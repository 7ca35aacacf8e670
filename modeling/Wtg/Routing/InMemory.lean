import Wtg.Routing.EtcdRegistry

/-! # Resolution over the registry in memory

`InMemoryRegistry` of `pkg/routing/registry.go`, and what `Resolve` answers after any sequence of
`Put`, `Delete` and `SetActive` (`resolve_after`). -/

namespace Wtg.Routing.InMemory

open Lib Mymq.Codec Routing.Rules List AList String
open Routing.EtcdRegistry (StoredRule Call)

def Registry.empty : Registry := ⟨∅, fun k r h => by simp at h⟩

def Registry.set (reg : Registry) (rule : Rule) : Registry where
  rules := reg.rules.insert rule.aliasName rule
  keyed k r h := by
    by_cases hk : k = rule.aliasName
    · subst hk
      rw [AList.lookup_insert] at h
      rw [← Option.some.inj h]
    · rw [AList.lookup_insert_ne hk] at h
      exact reg.keyed k r h

def Registry.remove (reg : Registry) (aliasName : String) : Registry where
  rules := reg.rules.erase aliasName
  keyed k r h := by
    by_cases hk : k = aliasName
    · rw [hk, AList.lookup_erase] at h
      cases h
    · rw [AList.lookup_erase_ne hk] at h
      exact reg.keyed k r h

/-- `Put`, `Delete` and `SetActive`, without the audit fields. -/
def call (reg : Registry) : Call → Except EtcdRegistry.Err Registry
  | .put none _ => .error .aliasRequired
  | .put (some rule) _ => rule.validate.map fun cp => Registry.set reg cp.toRule
  | .delete aliasName =>
    match reg.rules.lookup aliasName with
    | none => .error .routeNotFound
    | some _ => .ok (Registry.remove reg aliasName)
  | .setActive aliasName active _ =>
    match reg.rules.lookup aliasName with
    | none => .error .routeNotFound
    | some rule => .ok (Registry.set reg { rule with active := active })

def after (calls : List Call) : Registry :=
  calls.foldl (fun reg c => (call reg c).toOption.getD reg) Registry.empty

structure Rule.Fits (r : Rule) : Prop where
  exchange : r.exchange.utf8ByteSize ≤ LXchg
  routingKey : r.routingKey.utf8ByteSize ≤ LRkey
  keyed : r.isPattern = false → r.routingKey ≠ ""

def Stored (reg : Registry) : Prop := ∀ k r, reg.rules.lookup k = some r → Rule.Fits r

lemma fits_of_validate {r cp : StoredRule} (h : r.validate = .ok cp) : Rule.Fits cp.toRule := by
  revert h
  fun_cases StoredRule.validate r <;> intro h
  case case7 hrkey hexchange hlen =>
    rw [← Except.ok.inj h]
    refine ⟨not_lt.mp hexchange, not_lt.mp hlen, fun hpattern hblank => hrkey ⟨hblank, ?_⟩⟩
    exact Bool.eq_false_iff.mp hpattern
  all_goals cases h

lemma Stored.set {reg : Registry} (h : Stored reg) {rule : Rule} (hrule : Rule.Fits rule) :
    Stored (Registry.set reg rule) := by
  intro k r hr
  by_cases hk : k = rule.aliasName
  · subst hk
    rw [Registry.set, lookup_insert] at hr
    rwa [← Option.some.inj hr]
  · rw [Registry.set, lookup_insert_ne hk] at hr
    exact h k r hr

lemma stored_call {reg reg' : Registry} (h : Stored reg) {c : Call} (hc : call reg c = .ok reg') :
    Stored reg' := by
  revert hc
  fun_cases call reg c <;> intro hc
  case case2 rule _ =>
    rcases hv : rule.validate with e | cp <;> rw [hv] at hc <;> cases hc
    exact h.set (fits_of_validate hv)
  case case4 aliasName _ _ =>
    cases hc
    intro k r hr
    by_cases hk : k = aliasName
    · rw [hk, Registry.remove, lookup_erase] at hr
      cases hr
    · rw [Registry.remove, lookup_erase_ne hk] at hr
      exact h k r hr
  case case6 rule hrule =>
    cases hc
    obtain ⟨hexchange, hrkey, hkeyed⟩ := h _ rule hrule
    exact h.set ⟨hexchange, hrkey, hkeyed⟩
  all_goals cases hc

lemma stored_after (calls : List Call) : Stored (after calls) := by
  induction calls using reverseRecOn with
  | nil => exact fun k r h => by simp [after, Registry.empty] at h
  | append_singleton calls c ih =>
    rw [after, foldl_append, foldl_cons, foldl_nil]
    change Stored ((call (after calls) c).toOption.getD (after calls))
    rcases hc : call (after calls) c with e | reg
    · exact ih
    · exact stored_call ih hc

def Applies (aliasName : String) (r : Rule) : Prop :=
  r.active = true ∧ r.isPattern = true ∧ r.stem <+: aliasName.toList

/-- The rule is an active pattern of the registry whose prefix the alias begins with. -/
def Covers (reg : Registry) (aliasName : String) (r : Rule) : Prop :=
  reg.rules.lookup r.aliasName = some r ∧ Applies aliasName r

def IsLongest (reg : Registry) (aliasName : String) (best : Rule) : Prop :=
  Covers reg aliasName best ∧
    ∀ r, Covers reg aliasName r → r ≠ best → len r.stem < len best.stem

variable {reg : Registry} {aliasName : String} {r : Rule}

lemma mem_list : r ∈ reg.list ↔ reg.rules.lookup r.aliasName = some r := by
  rw [Registry.list, mem_insertionSort, mem_map]
  constructor
  · rintro ⟨⟨k, r'⟩, hmem, rfl⟩
    have hk : reg.rules.lookup k = some r' := mem_lookup_iff.mpr hmem
    rwa [reg.keyed k r' hk]
  · exact fun h => ⟨⟨r.aliasName, r⟩, mem_lookup_iff.mp h, rfl⟩

lemma len_append (l m : List Char) : len (l ++ m) = len l + len m := by
  rw [len, ofList_append, utf8ByteSize_append]
  rfl

lemma eq_of_prefix_of_len {l m n : List Char} (hl : l <+: n) (hm : m <+: n) (h : len l = len m) :
    l = m := by
  wlog hlm : l <+: m generalizing l m
  · exact (this hm hl h.symm ((List.prefix_or_prefix_of_prefix hl hm).resolve_left hlm)).symm
  obtain ⟨rest, rfl⟩ := hlm
  have hrest : len rest = 0 := by
    rw [len_append] at h
    omega
  rw [len, utf8ByteSize_eq_zero_iff, ofList_eq_empty_iff] at hrest
  rw [hrest, append_nil]

lemma eq_of_stem {r b : Rule} (hr : Covers reg aliasName r) (hb : Covers reg aliasName b)
    (h : len r.stem = len b.stem) : r = b := by
  obtain ⟨hrule, -, hpattern, hprefix⟩ := hr
  obtain ⟨hrule', -, hpattern', hprefix'⟩ := hb
  have hstem := eq_of_prefix_of_len hprefix hprefix' h
  rw [Rule.stem, Rule.stem, if_pos hpattern, if_pos hpattern'] at hstem
  have hname : r.aliasName.toList = b.aliasName.toList := by
    rw [← dropLast_append_getLast? _ (of_decide_eq_true hpattern),
      ← dropLast_append_getLast? _ (of_decide_eq_true hpattern'), hstem]
  rw [toList_inj.mp hname] at hrule
  exact Option.some.inj (hrule.symm.trans hrule')

lemma better_of_applies (h : Applies aliasName r) (best : Option Rule) :
    better aliasName best r =
      if ∀ b ∈ best, len b.stem < len r.stem then some r else best := by
  obtain ⟨hactive, hpattern, hprefix⟩ := h
  unfold better
  rw [hactive, hpattern, List.isPrefixOf_iff_prefix.mpr hprefix]
  rcases best with _ | b <;> simp

lemma better_of_not_applies (h : ¬ Applies aliasName r) (best : Option Rule) :
    better aliasName best r = best := by
  unfold better
  split_ifs with hkind hprefix
  · rfl
  · rfl
  · simp only [Bool.or_eq_true, Bool.not_eq_true', not_or, Bool.not_eq_false] at hkind hprefix
    exact absurd ⟨hkind.1, hkind.2, List.isPrefixOf_iff_prefix.mp hprefix⟩ h

/-- What the loop of `Resolve` has found after the rules `l`. -/
structure Found (aliasName : String) (l : List Rule) (best : Option Rule) : Prop where
  mem : ∀ b ∈ best, b ∈ l ∧ Applies aliasName b
  le : ∀ r ∈ l, Applies aliasName r → ∃ b ∈ best, len r.stem ≤ len b.stem

lemma found_foldl (l : List Rule) : Found aliasName l (l.foldl (better aliasName) none) := by
  induction l using reverseRecOn with
  | nil => exact ⟨fun b hb => (nomatch hb), fun r hr => absurd hr not_mem_nil⟩
  | append_singleton l r ih =>
    rw [foldl_append, foldl_cons, foldl_nil]
    generalize l.foldl (better aliasName) none = best at ih
    have hmem : ∀ b ∈ best, b ∈ l ++ [r] ∧ Applies aliasName b := fun b hb =>
      (ih.mem b hb).imp_left (mem_append_left _)
    by_cases hr : Applies aliasName r
    · rw [better_of_applies hr]
      split_ifs with hlt
      · refine ⟨fun b hb => ?_, fun r' hr' happ => ⟨r, rfl, ?_⟩⟩
        · rw [← Option.mem_some.mp hb]
          exact ⟨mem_append_right _ mem_cons_self, hr⟩
        · rcases mem_append.mp hr' with hold | hnew
          · obtain ⟨b, hb, hle⟩ := ih.le r' hold happ
            exact hle.trans (hlt b hb).le
          · rw [mem_singleton.mp hnew]
      · push Not at hlt
        obtain ⟨b, hb, hle⟩ := hlt
        refine ⟨hmem, fun r' hr' happ => ?_⟩
        rcases mem_append.mp hr' with hold | hnew
        · exact ih.le r' hold happ
        · rw [mem_singleton.mp hnew]
          exact ⟨b, hb, hle⟩
    · rw [better_of_not_applies hr]
      refine ⟨hmem, fun r' hr' happ => ?_⟩
      rcases mem_append.mp hr' with hold | hnew
      · exact ih.le r' hold happ
      · exact absurd (mem_singleton.mp hnew ▸ happ) hr

lemma found_none (h : Found aliasName reg.list none) (r : Rule) : ¬ Covers reg aliasName r := by
  intro hr
  obtain ⟨b, hb, -⟩ := h.le r (mem_list.mpr hr.1) hr.2
  cases hb

lemma found_some {best : Rule} (h : Found aliasName reg.list (some best)) :
    IsLongest reg aliasName best := by
  obtain ⟨hmem, happ⟩ := h.mem best rfl
  have hbest : Covers reg aliasName best := ⟨mem_list.mp hmem, happ⟩
  refine ⟨hbest, fun r hr hne => ?_⟩
  obtain ⟨b, hb, hle⟩ := h.le r (mem_list.mpr hr.1) hr.2
  cases hb
  exact lt_of_le_of_ne hle fun heq => hne (eq_of_stem hr hbest heq)

/-- The routing key for an alias that falls under a pattern. -/
def keyFor (aliasName : String) (best : Rule) : String :=
  if best.routingKey = "" then aliasName else best.routingKey

structure Rule.Sendable (r : Rule) : Prop where
  routingKey_ne : r.routingKey ≠ ""
  routingKey_le : r.routingKey.utf8ByteSize ≤ LRkey
  exchange_le : r.exchange.utf8ByteSize ≤ LXchg

lemma isPattern_of_star (h : '*' ∉ r.aliasName.toList) : r.isPattern = false :=
  decide_eq_false fun hlast => h (mem_of_getLast? hlast)

lemma resolve_of_lookup (hne : aliasName ≠ "") (hstar : '*' ∉ aliasName.toList)
    (h : reg.rules.lookup aliasName = some r) : resolve (some reg) aliasName =
      if r.active then .ok r else .error .routeNotFound := by
  simp only [resolve, if_neg hne, if_neg hstar, Registry.get, h]
  cases r.active <;> rfl

/-- **What an alias resolves to**, after any calls. -/
theorem resolve_after (calls : List Call) (aliasName : String) :
    (if aliasName = "" ∨ '*' ∈ aliasName.toList then
      resolve (some (after calls)) aliasName = .error .routeNotFound
    else
      match (after calls).rules.lookup aliasName with
      | some r => resolve (some (after calls)) aliasName =
          if r.active then .ok r else .error .routeNotFound
      | none =>
        ((∀ r, ¬ Covers (after calls) aliasName r) ∧
          resolve (some (after calls)) aliasName = .error .routeNotFound) ∨
        ∃ best, IsLongest (after calls) aliasName best ∧
          resolve (some (after calls)) aliasName =
            if LRkey < (keyFor aliasName best).utf8ByteSize then .error .rkeyTooLong
            else .ok { best with aliasName := aliasName, routingKey := keyFor aliasName best }) ∧
    ∀ r, resolve (some (after calls)) aliasName = .ok r → Rule.Sendable r := by
  have hstored := stored_after calls
  generalize after calls = reg at *
  by_cases hbad : aliasName = "" ∨ '*' ∈ aliasName.toList
  · have hfail : resolve (some reg) aliasName = .error .routeNotFound := by
      simp only [resolve]
      rcases hbad with hempty | hstar
      · rw [if_pos hempty]
      · split_ifs <;> rfl
    rw [if_pos hbad]
    exact ⟨hfail, fun r hr => by rw [hfail] at hr; cases hr⟩
  rw [if_neg hbad]
  obtain ⟨hne, hstar⟩ := not_or.mp hbad
  rcases hlook : reg.rules.lookup aliasName with _ | r
  · have hfound : Found aliasName reg.list _ := found_foldl reg.list
    have heq : resolve (some reg) aliasName =
        match reg.list.foldl (better aliasName) none with
        | none => .error .routeNotFound
        | some best =>
          if LRkey < (keyFor aliasName best).utf8ByteSize then .error .rkeyTooLong
          else .ok { best with aliasName := aliasName, routingKey := keyFor aliasName best } := by
      simp only [resolve, if_neg hne, if_neg hstar, Registry.get, hlook]
      rfl
    rw [heq]
    generalize reg.list.foldl (better aliasName) none = found at hfound
    rcases found with _ | best
    · exact ⟨.inl ⟨found_none hfound, rfl⟩, fun r hr => by cases hr⟩
    · have hlong := found_some hfound
      refine ⟨.inr ⟨best, hlong, rfl⟩, fun r hr => ?_⟩
      dsimp only at hr
      split_ifs at hr with hlen
      rw [← Except.ok.inj hr]
      refine ⟨?_, not_lt.mp hlen, (hstored _ best hlong.1.1).exchange⟩
      show keyFor aliasName best ≠ ""
      unfold keyFor
      split_ifs with hblank
      · exact hne
      · exact hblank
  · have hr := resolve_of_lookup hne hstar hlook
    refine ⟨hr, fun r' hr' => ?_⟩
    rw [hr] at hr'
    split_ifs at hr' with hactive
    cases hr'
    obtain ⟨hexchange, hrkey, hkeyed⟩ := hstored _ r hlook
    refine ⟨hkeyed (isPattern_of_star ?_), hrkey, hexchange⟩
    rwa [reg.keyed _ r hlook]

def catchAll : StoredRule := ⟨⟨"*", "FX", "QUOTE", true⟩, "", 0, ""⟩

/-- The pattern `*` covers every alias, and the empty one does not resolve. -/
theorem empty_alias_unresolved :
    IsLongest (after [.put (some catchAll) "ops"]) "" catchAll.toRule ∧
      (keyFor "" catchAll.toRule).utf8ByteSize ≤ LRkey ∧
      resolve (some (after [.put (some catchAll) "ops"])) "" = .error .routeNotFound := by
  have hfold : (after [.put (some catchAll) "ops"]).list.foldl (better "") none =
      some catchAll.toRule := by decide +kernel
  refine ⟨found_some ?_, by decide, rfl⟩
  rw [← hfold]
  exact found_foldl _

end Wtg.Routing.InMemory
