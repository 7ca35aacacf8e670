import Wtg.Lib.Transition
import Wtg.Pricing.Doc

/-! # Replacing and stopping a set of rules

`RuleSet` of `pkg/ratelimit/ruleset.go`. `Replace` compiles the new rules, swaps them in and stops
the limiters it has swapped out; `Stop` reads the rules and stops their limiters. -/

namespace Wtg.Ratelimit.RuleSet

open List hiding getElem?_eq_some_iff
open Lib Lib.Transition Pricing.Doc

variable {R : Type*}

structure Rule (R : Type*) where
  pattern : String
  rate : R
  burst : ℤ
  deriving DecidableEq, Repr

/-- What `compile` takes from Go's library: cases of letters, `%q`, and the error of `path.Match`
for a pattern, if it is a bad one. -/
structure GoLib where
  runes : Runes
  quote : String → String
  badPattern : List Char → Option String

def isHTTPMethod (lib : GoLib) (s : List Char) : Bool :=
  ["GET", "POST", "PUT", "DELETE", "PATCH", "HEAD", "OPTIONS"].contains
    (String.ofList (lib.runes.toUpper s))

/-- `parsePattern`: the method and the glob; `none` for an empty pattern. -/
def parsePattern (lib : GoLib) (pattern : String) : Option (List Char × List Char) :=
  let pat := trimSpace pattern.toList
  if pat = [] then none
  else if pat = ['*'] then some ([], ['*'])
  else
    match splitTwo ' ' pat with
    | some (method, rest) =>
      if isHTTPMethod lib method then some (lib.runes.toUpper method, trimSpace rest)
      else some ([], pat)
    | none => some ([], pat)

structure RuleSetData (R : Type*) where
  rules : List (Rule R × ℕ)
  fallback : Option ℕ
  deriving DecidableEq, Repr

def RuleSetData.limiters (d : RuleSetData R) : List ℕ := d.rules.map Prod.snd ++ d.fallback.toList

/-! ## Compiled rules -/

section

variable [LT R] [Zero R] [DecidableLT R] (lib : GoLib)

def ruleError (i : ℕ) (r : Rule R) : Option String :=
  let place := "rule[" ++ toString i ++ "] " ++ lib.quote r.pattern
  match parsePattern lib r.pattern with
  | none => some (place ++ ": 빈 패턴")
  | some (_, glob) =>
    match lib.badPattern glob with
    | some err => some (place ++ " glob 오류: " ++ err)
    | none => if r.rate < 0 ∨ r.burst < 0 then some (place ++ ": rate/burst 음수") else none

/-- The loop of `compile`, with the number of the next limiter. -/
def compileRules (i next : ℕ) : List (Rule R) → ℕ × Except String (List (Rule R × ℕ))
  | [] => (next, .ok [])
  | r :: rs =>
    match ruleError lib i r with
    | some err => (next, .error err)
    | none =>
      let (next', res) := compileRules (i + 1) (next + 1) rs
      (next', res.map ((r, next) :: ·))

def compile (next : ℕ) (rules : List (Rule R)) (fallback : Bool) :
    ℕ × Except String (RuleSetData R) :=
  match compileRules lib 0 next rules with
  | (next', .error err) => (next', .error err)
  | (next', .ok compiled) =>
    if fallback then (next' + 1, .ok ⟨compiled, some next'⟩) else (next', .ok ⟨compiled, none⟩)

/-- A call, by what it does next. -/
inductive Call (R : Type*)
  | replace (rules : List (Rule R)) (fallback : Bool)
  | swap (newData : RuleSetData R)
  | stop
  | stopAll (left : List ℕ)
  | failed (err : String)
  deriving DecidableEq, Repr

structure State (R : Type*) where
  data : RuleSetData R
  next : ℕ
  calls : List (Call R)
  stopped : List ℕ
  deriving DecidableEq, Repr

/-- A call comes in, or the `n`-th one takes its next step. -/
inductive Action (R : Type*)
  | call (c : Call R)
  | compile (n : ℕ)
  | swap (n : ℕ)
  | load (n : ℕ)
  | stopOne (n : ℕ)
  deriving DecidableEq, Repr

def Call.IsNew : Call R → Bool
  | .replace _ _ => true
  | .stop => true
  | _ => false

def step (s : State R) : Action R → Option (State R)
  | .call c => if c.IsNew then some { s with calls := s.calls ++ [c] } else none
  | .compile n =>
    match s.calls[n]? with
    | some (.replace rules fallback) =>
      match compile lib s.next rules fallback with
      | (next, .error err) => some { s with next, calls := s.calls.set n (.failed err) }
      | (next, .ok newData) => some { s with next, calls := s.calls.set n (.swap newData) }
    | _ => none
  | .swap n =>
    match s.calls[n]? with
    | some (.swap newData) => some { s with
        data := newData
        calls := s.calls.set n (.stopAll s.data.limiters) }
    | _ => none
  | .load n =>
    match s.calls[n]? with
    | some .stop => some { s with calls := s.calls.set n (.stopAll s.data.limiters) }
    | _ => none
  | .stopOne n =>
    match s.calls[n]? with
    | some (.stopAll (l :: left)) => some { s with
        calls := s.calls.set n (.stopAll left)
        stopped := s.stopped ++ [l] }
    | _ => none

/-- `NewRuleSet`. -/
def newRuleSet (rules : List (Rule R)) (fallback : Bool) : Except String (State R) :=
  match compile lib 0 rules fallback with
  | (_, .error err) => .error err
  | (next, .ok data) => .ok ⟨data, next, [], []⟩

end

def Call.holds : Call R → List ℕ
  | .swap newData => newData.limiters
  | .stopAll left => left
  | _ => []

/-- The limiters stopped, those held by calls, and those of the set unless a `Stop` has them. -/
def State.all (s : State R) (read : Bool) : List ℕ :=
  s.stopped ++ s.calls.flatMap Call.holds ++ if read then [] else s.data.limiters

structure Inv (read : Bool) (s : State R) : Prop where
  nodup : (s.all read).Nodup
  lt : ∀ l ∈ s.all read, l < s.next

/-- The limiters are new ones, with numbers from `next` up to `next'`. -/
structure Fresh (next next' : ℕ) (ls : List ℕ) : Prop where
  nodup : ls.Nodup
  range : ∀ l ∈ ls, next ≤ l ∧ l < next'

lemma Fresh.nil (next next' : ℕ) : Fresh next next' [] := ⟨nodup_nil, by simp⟩

variable {n : ℕ}

lemma count_holds_set {calls : List (Call R)} {c : Call R} (h : calls[n]? = some c)
    (c' : Call R) (l : ℕ) : ((calls.set n c').flatMap Call.holds).count l + c.holds.count l =
      (calls.flatMap Call.holds).count l + c'.holds.count l := by
  obtain ⟨hn, rfl⟩ := getElem?_eq_some_iff.mp h
  have hset := ((set_perm_cons_eraseIdx hn c').flatMap_right Call.holds).count_eq l
  have herase := ((getElem_cons_eraseIdx_perm hn).flatMap_right Call.holds).count_eq l
  simp only [flatMap_cons, count_append] at hset herase
  omega

variable {s s' : State R}

/-- One call goes from `c` to `c'` and takes new limiters up; no other one is lost or doubled. -/
lemma Inv.set {read read' : Bool} {c c' : Call R} {new : List ℕ}
    (h : Inv read s) (hcall : s.calls[n]? = some c) (hset : s'.calls = s.calls.set n c')
    (hnext : s.next ≤ s'.next) (hnew : Fresh s.next s'.next new)
    (hcount : ∀ l, s'.stopped.count l + c'.holds.count l +
        (if read' then [] else s'.data.limiters).count l = new.count l + (s.stopped.count l +
          c.holds.count l + (if read then [] else s.data.limiters).count l)) : Inv read' s' := by
  have hperm : (s'.all read').Perm (new ++ s.all read) := by
    refine perm_iff_count.mpr fun l => ?_
    have hcalls := count_holds_set hcall c' l
    have hl := hcount l
    simp only [State.all, hset, count_append]
    omega
  refine ⟨hperm.nodup_iff.mpr (nodup_append.mpr ⟨hnew.nodup, h.nodup, ?_⟩), fun l hl => ?_⟩
  · rintro l hl _ hl' rfl
    exact absurd (h.lt l hl') (not_lt.mpr (hnew.range l hl).1)
  · rcases mem_append.mp (hperm.mem_iff.mp hl) with hl | hl
    · exact (hnew.range l hl).2
    · exact (h.lt l hl).trans_le hnext

/-! ## Steps and runs -/

section

variable [LT R] [Zero R] [DecidableLT R] {lib : GoLib}

lemma compileRules_fresh (rs : List (Rule R)) : ∀ i next : ℕ,
    next ≤ (compileRules lib i next rs).1 ∧ ∀ compiled,
      (compileRules lib i next rs).2 = .ok compiled →
        Fresh next (compileRules lib i next rs).1 (compiled.map Prod.snd) := by
  induction rs with
  | nil =>
    intro i next
    refine ⟨le_rfl, fun compiled h => ?_⟩
    cases h
    exact ⟨nodup_nil, by simp⟩
  | cons r rs ih =>
    intro i next
    unfold compileRules
    cases ruleError lib i r with
    | some err => exact ⟨le_rfl, by simp⟩
    | none =>
      obtain ⟨hle, hfresh⟩ := ih (i + 1) (next + 1)
      dsimp only
      refine ⟨by omega, fun compiled h => ?_⟩
      cases hres : (compileRules lib (i + 1) (next + 1) rs).2 with
      | error err =>
        rw [hres] at h
        cases h
      | ok rest =>
        rw [hres] at h
        cases h
        obtain ⟨hnodup, hrange⟩ := hfresh rest hres
        refine ⟨nodup_cons.mpr ⟨fun hmem => ?_, hnodup⟩, fun l hl => ?_⟩
        · have := hrange _ hmem
          dsimp only at this
          omega
        · rcases mem_cons.mp hl with rfl | hl
          · omega
          · have := hrange l hl
            omega

lemma compile_fresh {next next' : ℕ} {rules : List (Rule R)} {fallback : Bool}
    {res : Except String (RuleSetData R)} (h : compile lib next rules fallback = (next', res)) :
    next ≤ next' ∧ ∀ d, res = .ok d → Fresh next next' d.limiters := by
  have hrules := @compileRules_fresh R _ _ _ lib rules 0 next
  revert h
  fun_cases compile lib next rules fallback
  case case1 next₁ err heq =>
    rintro ⟨⟩
    rw [heq] at hrules
    exact ⟨hrules.1, by simp⟩
  case case2 next₁ compiled heq hfallback =>
    rintro ⟨⟩
    rw [heq] at hrules
    obtain ⟨hnodup, hrange⟩ := hrules.2 compiled rfl
    refine ⟨hrules.1.trans (Nat.le_succ _), fun d hd => ?_⟩
    cases hd
    have hlast : ∀ l ∈ compiled.map Prod.snd, l ≠ next₁ := fun l hl => (hrange l hl).2.ne
    constructor
    · exact nodup_append.mpr ⟨hnodup, nodup_singleton _, by simpa using hlast⟩
    · refine forall_concat (fun l hl => ?_) ⟨hrules.1, Nat.lt_succ_self _⟩
      have := hrange l hl
      omega
  case case3 next₁ compiled heq hfallback =>
    rintro ⟨⟩
    rw [heq] at hrules
    refine ⟨hrules.1, fun d hd => ?_⟩
    cases hd
    simpa [RuleSetData.limiters] using hrules.2 compiled rfl

def Action.isLoad : Action R → Bool
  | .load _ => true
  | _ => false

def Action.takes : Action R → Bool
  | .load _ => true
  | .swap _ => true
  | _ => false

variable {a : Action R}

lemma Inv.step {read : Bool} (h : Inv read s) (hfree : a.takes → read = false)
    (hstep : step lib s a = some s') : Inv (read || a.isLoad) s' := by
  revert hstep
  fun_cases RuleSet.step lib s a <;> rintro ⟨⟩
  case case1 c hnew =>
    have hall : ∀ read, State.all { s with calls := s.calls ++ [c] } read = s.all read := by
      intro read
      cases c <;> simp_all [State.all, Call.IsNew, Call.holds]
    rw [show (Action.call c).isLoad = false from rfl, Bool.or_false]
    exact ⟨hall read ▸ h.nodup, hall read ▸ h.lt⟩
  case case3 n rules fallback hcall next err heq =>
    refine h.set hcall rfl (compile_fresh heq).1 (.nil _ _) fun l => ?_
    simp [Call.holds, Action.isLoad]
  case case4 n rules fallback hcall next newData heq =>
    obtain ⟨hle, hfresh⟩ := compile_fresh heq
    refine h.set hcall rfl hle (hfresh newData rfl) fun l => ?_
    simp only [Call.holds, Action.isLoad, Bool.or_false, count_nil]
    omega
  case case6 n newData hcall =>
    obtain rfl := hfree rfl
    refine h.set hcall rfl le_rfl (.nil _ _) fun l => ?_
    simp [Call.holds, Action.isLoad]
    omega
  case case8 n hcall =>
    obtain rfl := hfree rfl
    refine h.set hcall rfl le_rfl (.nil _ _) fun l => ?_
    simp [Call.holds, Action.isLoad]
  case case10 n l left hcall =>
    refine h.set hcall rfl le_rfl (.nil _ _) fun l' => ?_
    simp [Call.holds, Action.isLoad, count_cons]
    omega

lemma Inv.newRuleSet {rules : List (Rule R)} {fallback : Bool} {s : State R}
    (h : newRuleSet lib rules fallback = .ok s) : Inv false s := by
  revert h
  fun_cases RuleSet.newRuleSet lib rules fallback <;> rintro ⟨⟩
  case case2 next data heq =>
    obtain ⟨hnodup, hrange⟩ := (compile_fresh heq).2 data rfl
    exact ⟨by simpa [State.all] using hnodup,
      fun l hl => (hrange l (by simpa [State.all] using hl)).2⟩

/-- After the read of a `Stop` come no other `Stop` and no swap. -/
def StopLast (as : List (Action R)) : Prop := as.Pairwise fun a b => a.isLoad → ¬ b.takes

variable {as : List (Action R)}

lemma inv_run (h : Inv false s) (hlast : StopLast as) (hrun : run (step lib) s as = some s') :
    Inv (as.any Action.isLoad) s' := by
  refine history_run (P := fun as s => StopLast as → Inv (as.any Action.isLoad) s) (step lib)
    (fun _ => h) (fun past s₁ a s₂ _ ih hstep hlast => ?_) as s' hrun hlast
  obtain ⟨hpast, -, hbetween⟩ := pairwise_append.mp hlast
  rw [any_append, any_cons, any_nil, Bool.or_false]
  refine (ih hpast).step (fun htakes => ?_) hstep
  rw [any_eq_false]
  exact fun b hb hload => hbetween b hb a (mem_singleton_self a) hload htakes

/-- It was in the set when a swap took it out or a `Stop` read it. -/
def Taken (lib : GoLib) (s₀ : State R) (as : List (Action R)) (l : ℕ) : Prop :=
  ∃ before a s, before ++ [a] <+: as ∧ a.takes ∧ run (step lib) s₀ before = some s ∧
    l ∈ s.data.limiters

variable {l : ℕ}

lemma Taken.mono {s₀ : State R} {as bs : List (Action R)} (h : Taken lib s₀ as l) :
    Taken lib s₀ (as ++ bs) l := by
  obtain ⟨before, a, s, hpre, hrest⟩ := h
  exact ⟨before, a, s, hpre.trans (prefix_append as bs), hrest⟩

/-- The limiters that have been stopped or are going to be. -/
def State.Doomed (s : State R) (l : ℕ) : Prop :=
  l ∈ s.stopped ∨ ∃ left, Call.stopAll left ∈ s.calls ∧ l ∈ left

omit [LT R] [Zero R] [DecidableLT R] in
lemma doomed_set {s : State R} {c : Call R} {stopped : List ℕ} {next : ℕ} {data : RuleSetData R}
    (h : State.Doomed ⟨data, next, s.calls.set n c, stopped⟩ l) :
    l ∈ stopped ∨ s.Doomed l ∨ ∃ left, c = .stopAll left ∧ l ∈ left := by
  rcases h with h | ⟨left, hmem, hl⟩
  · exact .inl h
  · rcases mem_or_eq_of_mem_set hmem with hmem | rfl
    · exact .inr (.inl (.inr ⟨left, hmem, hl⟩))
    · exact .inr (.inr ⟨left, rfl, hl⟩)

lemma doomed_step (hstep : step lib s a = some s') (h : s'.Doomed l) :
    s.Doomed l ∨ (a.takes ∧ l ∈ s.data.limiters) := by
  revert hstep
  fun_cases RuleSet.step lib s a <;> rintro ⟨⟩
  case case1 c hnew =>
    rcases h with h | ⟨left, hmem, hl⟩
    · exact .inl (.inl h)
    · rcases mem_append.mp hmem with hmem | hmem
      · exact .inl (.inr ⟨left, hmem, hl⟩)
      · obtain rfl := mem_singleton.mp hmem
        cases hnew
  case case10 n l' left hcall =>
    have hheld := mem_of_getElem? hcall
    rcases doomed_set h with h | h | ⟨left', hleft, hl⟩
    · rcases mem_append.mp h with h | h
      · exact .inl (.inl h)
      · exact .inl (.inr ⟨_, hheld, mem_cons.mpr (.inl (mem_singleton.mp h))⟩)
    · exact .inl h
    · cases hleft
      exact .inl (.inr ⟨_, hheld, mem_cons_of_mem _ hl⟩)
  all_goals
    rcases doomed_set h with h | h | ⟨left, hleft, hl⟩
    · exact .inl (.inl h)
    · exact .inl h
    · cases hleft
      try exact .inr ⟨rfl, hl⟩

lemma taken_of_stopped (hnone : ∀ l, ¬ s.Doomed l) (hrun : run (step lib) s as = some s')
    (hl : l ∈ s'.stopped) : Taken lib s as l := by
  refine history_run (P := fun as s' => ∀ l, s'.Doomed l → Taken lib s as l) (step lib)
    (fun l hl => absurd hl (hnone l)) (fun past s₁ a s₂ hpast ih hstep l hl => ?_) as s' hrun l
    (.inl hl)
  rcases doomed_step hstep hl with hl | ⟨htakes, hl⟩
  · exact (ih l hl).mono
  · exact ⟨past, a, s₁, prefix_rfl, htakes, hpast, hl⟩

lemma swapped_step (hstep : step lib s a = some s')
    (h : a = .swap n ∨ ∃ left, s.calls[n]? = some (.stopAll left)) :
    ∃ left, s'.calls[n]? = some (.stopAll left) := by
  revert hstep
  fun_cases RuleSet.step lib s a <;> rintro ⟨⟩
  case case6 m newData hcall =>
    obtain ⟨hm, -⟩ := getElem?_eq_some_iff.mp hcall
    by_cases hnm : m = n
    · subst hnm
      exact ⟨_, getElem?_set_self hm⟩
    · obtain ⟨left, hleft⟩ := h.resolve_left (fun ha => hnm (Action.swap.inj ha))
      exact ⟨left, (getElem?_set_ne hnm).trans hleft⟩
  all_goals
    obtain ⟨left, hleft⟩ := h.resolve_left (fun ha => nomatch ha)
    grind

lemma step_data (hstep : step lib s a = some s') (hswap : ∀ n, a ≠ .swap n) :
    s'.data = s.data := by
  revert hstep
  fun_cases RuleSet.step lib s a <;> rintro ⟨⟩
  case case6 n newData hcall => exact absurd rfl (hswap n)
  all_goals rfl

lemma swapped_run (hrun : run (step lib) s as = some s') :
    ∀ n, .swap n ∈ as → ∃ left, s'.calls[n]? = some (.stopAll left) := by
  refine history_run
    (P := fun as s' => ∀ n, .swap n ∈ as → ∃ left, s'.calls[n]? = some (.stopAll left))
    (step lib) (by simp) (fun past s₁ a s₂ _ ih hstep n hn => swapped_step hstep ?_) as s' hrun
  rcases mem_append.mp hn with hn | hn
  · exact .inr (ih n hn)
  · exact .inl (mem_singleton.mp hn).symm

/-- **Limiters are stopped once**, if no `Stop` and no swap comes after the read of a `Stop`. In
every run a limiter that is stopped was taken out of the set by a swap or read by a `Stop`; only
swaps change the active rules, and a call that fails makes none. -/
theorem stopped_once {rules : List (Rule R)} {fallback : Bool} {s s' : State R}
    {as : List (Action R)} (hnew : newRuleSet lib rules fallback = .ok s)
    (hrun : run (step lib) s as = some s') :
    (StopLast as → s'.stopped.Nodup) ∧ (∀ l ∈ s'.stopped, Taken lib s as l) ∧
      (∀ n err, s'.calls[n]? = some (.failed err) → .swap n ∉ as) ∧
      ∀ (s₁ : State R) a s₂, step lib s₁ a = some s₂ → (∀ n, a ≠ .swap n) →
        s₂.data = s₁.data := by
  refine ⟨fun hlast => ?_, fun l => taken_of_stopped ?_ hrun, fun n err herr hmem => ?_,
    fun s₁ a s₂ => step_data⟩
  · have hall := (inv_run (Inv.newRuleSet hnew) hlast hrun).nodup
    exact (nodup_append.mp (nodup_append.mp hall).1).1
  · revert hnew
    fun_cases RuleSet.newRuleSet lib rules fallback <;> rintro ⟨⟩
    simp [State.Doomed]
  · obtain ⟨left, hleft⟩ := swapped_run hrun n hmem
    rw [herr] at hleft
    cases hleft

end

def plainLib : GoLib := ⟨⟨id, id⟩, id, fun _ => none⟩

def oneLimiter : State ℤ := ⟨⟨[], some 0⟩, 1, [], []⟩

/-- The limiter is replaced by another, which a `Stop` stops. -/
theorem stopped_once_replaced :
    ∃ s', run (step plainLib) oneLimiter [.call (.replace [] true), .call .stop, .compile 0,
        .swap 0, .load 1, .stopOne 1, .stopOne 0] = some s' ∧ s'.stopped = [1, 0] ∧
      s'.stopped.Nodup := by
  have hnew : newRuleSet plainLib [] true = .ok oneLimiter := rfl
  have hrun : run (step plainLib) oneLimiter [.call (.replace [] true), .call .stop, .compile 0,
    .swap 0, .load 1, .stopOne 1, .stopOne 0] = some _ := rfl
  refine ⟨_, hrun, rfl, (stopped_once hnew hrun).1 ?_⟩
  unfold StopLast
  decide

/-- Two calls of `Stop` stop a limiter twice. -/
theorem stopped_twice : newRuleSet plainLib [] true = .ok oneLimiter ∧
    ∃ s', run (step plainLib) oneLimiter [.call .stop, .call .stop, .load 0, .stopOne 0, .load 1,
        .stopOne 1] = some s' ∧ s'.stopped = [0, 0] ∧ ¬ s'.stopped.Nodup :=
  ⟨rfl, _, rfl, rfl, by decide⟩

end Wtg.Ratelimit.RuleSet
