import Mathlib.Data.Fintype.Basic
import Wtg.Lib.RevisionedMap
import Wtg.Lib.Transition
import Wtg.Pricing.Doc
import Wtg.Routing.Rules

/-! # The rules in etcd

`EtcdRegistry` of `pkg/routing/etcd.go`. -/

namespace Wtg.Routing.EtcdRegistry

open Lib Lib.Follower Mymq.Codec Routing.Rules List Option Function AList RevisionedMap
open Lib.Transition (Outcome)
open Pricing.Doc (trimSpace)

structure StoredRule extends Rule where
  comment : String
  updatedAt : ℤ
  updatedBy : String
  deriving DecidableEq, Repr

inductive Err
  | aliasRequired
  | aliasInvalid
  | routeNotFound
  | exchangeTooLong
  | rkeyTooLong
  | rkeyRequired
  deriving DecidableEq, Repr

def StoredRule.validate (r : StoredRule) : Except Err StoredRule :=
  let name := trimSpace r.aliasName.toList
  let r := { r with aliasName := String.ofList name }
  if name = [] then .error .aliasRequired
  else if 64 < r.aliasName.utf8ByteSize ∨ name.any (" \t\r\n/".toList.contains ·) then
    .error .aliasInvalid
  else if name.idxOf '*' < name.length ∧ name.idxOf '*' ≠ name.length - 1 then .error .aliasInvalid
  else if r.routingKey = "" ∧ ¬r.isPattern then .error .rkeyRequired
  else if LXchg < r.exchange.utf8ByteSize then .error .exchangeTooLong
  else if LRkey < r.routingKey.utf8ByteSize then .error .rkeyTooLong
  else .ok r

structure Codec (ν : Type*) where
  marshal : StoredRule → ν
  unmarshal : ν → Option StoredRule

def Codec.Lawful {ν : Type*} (c : Codec ν) : Prop := ∀ r, c.unmarshal (c.marshal r) = some r

variable {ν : Type*} (c : Codec ν) (pre : String)

def keyOf (aliasName : String) : String := pre ++ aliasName

def aliasFromKey (key : String) : String :=
  if pre.toList.isPrefixOf key.toList then String.ofList (key.toList.drop pre.toList.length) else ""

def setRule (rules : GoMap String StoredRule) (key : String) (value : ν) :
    GoMap String StoredRule :=
  let aliasName := aliasFromKey pre key
  if aliasName = "" then rules
  else
    match c.unmarshal value with
    | none => rules
    | some rule => rules.insert aliasName { rule with aliasName := aliasName }

def initialLoad (entries : GoMap String ν) : GoMap String StoredRule :=
  let kvs := entries.entries.filter fun kv => pre.toList.isPrefixOf kv.1.toList
  kvs.foldl (fun rules kv => setRule c pre rules kv.1 kv.2) ∅

def applyEvent (rules : GoMap String StoredRule) (e : String × Option ν) :
    GoMap String StoredRule :=
  match e.2 with
  | some value => setRule c pre rules e.1 value
  | none => if aliasFromKey pre e.1 = "" then rules else rules.erase (aliasFromKey pre e.1)

def applyEvents (rules : GoMap String StoredRule) (events : List (String × Option ν)) :
    GoMap String StoredRule :=
  events.foldl (applyEvent c pre) rules

/-- An operation that is under way: its call to etcd has not been made yet (`put`, `delete`), or
etcd has answered at a revision, and the cache is still to be written. -/
inductive Op
  | put (rule : StoredRule)
  | delete (aliasName : String)
  | cache (aliasName : String) (value : Option StoredRule) (revision : ℕ)
  deriving DecidableEq, Repr

structure Instance where
  rules : GoMap String StoredRule
  watching : Bool
  position : ℕ
  ops : List Op

inductive Call
  | put (rule : Option StoredRule) (updatedBy : String)
  | delete (aliasName : String)
  | setActive (aliasName : String) (active : Bool) (updatedBy : String)
  deriving DecidableEq, Repr

def preparePut (now : ℤ) (rule : Option StoredRule) (updatedBy : String) : Except Err Op :=
  match rule with
  | none => .error .aliasRequired
  | some rule =>
    match rule.validate with
    | .error e => .error e
    | .ok cp => .ok (.put { cp with updatedAt := now, updatedBy := updatedBy })

def Instance.begin (inst : Instance) (now : ℤ) : Call → Except Err Op
  | .put rule updatedBy => preparePut now rule updatedBy
  | .delete aliasName =>
    match inst.rules.lookup aliasName with
    | none => .error .routeNotFound
    | some _ => .ok (.delete aliasName)
  | .setActive aliasName active updatedBy =>
    match inst.rules.lookup aliasName with
    | none => .error .routeNotFound
    | some cur => preparePut now (some { cur with active := active }) updatedBy

def send (etcd : RevisionedMap String ν) : Op → Option (RevisionedMap String ν × Op)
  | .put rule =>
    let etcd := etcd.put (keyOf pre rule.aliasName) (c.marshal rule)
    some (etcd, .cache rule.aliasName (some rule) etcd.revision)
  | .delete aliasName =>
    let etcd := etcd.delete (keyOf pre aliasName)
    some (etcd, .cache aliasName none etcd.revision)
  | .cache _ _ _ => none

def writeCache (rules : GoMap String StoredRule) (aliasName : String) :
    Option StoredRule → GoMap String StoredRule
  | some rule => rules.insert aliasName rule
  | none => rules.erase aliasName

structure System (ι ν : Type*) where
  etcd : RevisionedMap String ν
  instances : ι → Option Instance

/-- The steps: an instance starts, opens its watch, loses it, is delivered the next `n` events; a
call begins, is sent to etcd, and the cache is written. -/
inductive Action (ι : Type*)
  | start (i : ι)
  | watch (i : ι)
  | close (i : ι)
  | deliver (i : ι) (n : ℕ)
  | call (i : ι) (now : ℤ) (call : Call)
  | send (i : ι) (n : ℕ) (outcome : Outcome)
  | cache (i : ι) (n : ℕ)
  deriving DecidableEq, Repr

/-! ## The system -/

section

variable {ι : Type*} [DecidableEq ι]

def System.set (s : System ι ν) (i : ι) (inst : Instance) : System ι ν :=
  { s with instances := Function.update s.instances i (some inst) }

@[simp] lemma System.set_self (s : System ι ν) (i : ι) (inst : Instance) :
    (s.set i inst).instances i = some inst := update_self ..

lemma System.set_ne (s : System ι ν) {i j : ι} (hji : j ≠ i) (inst : Instance) :
    (s.set i inst).instances j = s.instances j := update_of_ne hji ..

def step (s : System ι ν) : Action ι → Option (System ι ν)
  | .start i =>
    match s.instances i with
    | some _ => none
    | none => some (s.set i ⟨initialLoad c pre s.etcd.contents, false, s.etcd.revision, []⟩)
  | .watch i =>
    match s.instances i with
    | some inst =>
      if inst.watching then none
      else some (s.set i { inst with watching := true, position := s.etcd.revision })
    | none => none
  | .close i =>
    match s.instances i with
    | some inst => if inst.watching then some (s.set i { inst with watching := false }) else none
    | none => none
  | .deliver i n =>
    match s.instances i with
    | some inst =>
      if inst.watching ∧ inst.position + n ≤ s.etcd.revision then
        let events := (s.etcd.events.drop inst.position).take n
        some (s.set i { inst with rules := applyEvents c pre inst.rules events
                                  position := inst.position + n })
      else none
    | none => none
  | .call i now call =>
    match s.instances i with
    | some inst =>
      match inst.begin now call with
      | .error _ => some s
      | .ok op => some (s.set i { inst with ops := inst.ops ++ [op] })
    | none => none
  | .send i n outcome =>
    match s.instances i with
    | some inst =>
      match inst.ops[n]?.bind (send c pre s.etcd) with
      | none => none
      | some (etcd, op) =>
        let rest := inst.ops.eraseIdx n
        match outcome with
        | .failed => some (s.set i { inst with ops := rest })
        | .unanswered => some ({ s with etcd := etcd }.set i { inst with ops := rest })
        | .done => some ({ s with etcd := etcd }.set i { inst with ops := rest ++ [op] })
    | none => none
  | .cache i n =>
    match s.instances i with
    | some inst =>
      match inst.ops[n]? with
      | some (.cache aliasName value _) =>
        some (s.set i { inst with rules := writeCache inst.rules aliasName value
                                  ops := inst.ops.eraseIdx n })
      | _ => none
    | none => none

def System.init (ι : Type*) (entries : GoMap String ν) : System ι ν :=
  ⟨⟨entries, []⟩, fun _ => none⟩

/-- No operation is under way, every watch is open, and every event has been delivered. -/
def Quiet (s : System ι ν) : Prop :=
  ∀ i, ∀ inst ∈ s.instances i,
    inst.watching = true ∧ inst.position = s.etcd.revision ∧ inst.ops = []

def stored (entries : GoMap String ν) (aliasName : String) : Option StoredRule :=
  if aliasName = "" then none
  else
    ((entries.lookup (keyOf pre aliasName)).bind c.unmarshal).map fun rule =>
      { rule with aliasName := aliasName }

/-- No event of the alias later than the answer of etcd has been delivered. -/
def Op.InTime (delivered : List (String × Option ν)) : Op → Prop
  | .cache aliasName _ revision =>
    ∀ e ∈ delivered.drop revision, aliasFromKey pre e.1 ≠ aliasName
  | _ => True

/-- **A timely step.** A watch is opened when every rule written since the position is in the cache
as etcd has it, and the cache is written before the watch delivers a later event of the alias. -/
def Timely (s : System ι ν) : Action ι → Prop
  | .watch i => ∀ inst ∈ s.instances i, ∀ e ∈ s.etcd.events.drop inst.position,
      inst.rules.lookup (aliasFromKey pre e.1) = stored c pre s.etcd.contents (aliasFromKey pre e.1)
  | .cache i n => ∀ inst ∈ s.instances i, ∀ op ∈ inst.ops[n]?,
      op.InTime pre (s.etcd.events.take inst.position)
  | _ => True

instance [Fintype ι] (s : System ι ν) : Decidable (Quiet s) :=
  inferInstanceAs (Decidable (∀ _, _))

instance (delivered : List (String × Option ν)) : ∀ op : Op, Decidable (op.InTime pre delivered)
  | .cache _ _ _ => inferInstanceAs (Decidable (∀ _ ∈ _, _))
  | .put _ => .isTrue trivial
  | .delete _ => .isTrue trivial

instance (s : System ι ν) : ∀ a, Decidable (Timely c pre s a)
  | .watch _ => inferInstanceAs (Decidable (∀ _ ∈ _, _))
  | .cache _ _ => inferInstanceAs (Decidable (∀ _ ∈ _, _))
  | .start _ | .close _ | .deliver _ _ | .call _ _ _ | .send _ _ _ => .isTrue trivial

end

variable {c pre}

@[simp] lemma aliasFromKey_keyOf (a : String) : aliasFromKey pre (keyOf pre a) = a := by
  have hfront : pre.toList.isPrefixOf (pre.toList ++ a.toList) = true :=
    List.isPrefixOf_iff_prefix.mpr (prefix_append _ _)
  rw [aliasFromKey, keyOf, String.toList_append, if_pos hfront, drop_left,
    String.ofList_toList]

lemma eq_keyOf {key a : String} (h : aliasFromKey pre key = a) (ha : a ≠ "") :
    key = keyOf pre a := by
  unfold aliasFromKey at h
  split_ifs at h with hfront
  · obtain ⟨rest, hrest⟩ := List.isPrefixOf_iff_prefix.mp hfront
    rw [← hrest, drop_left] at h
    rw [← String.toList_inj, keyOf, String.toList_append, ← h, String.toList_ofList, hrest]
  · exact absurd h.symm ha

variable (c pre) in
def gives (a : String) (e : String × Option ν) : Option (Option StoredRule) :=
  if aliasFromKey pre e.1 = a then
    match e.2 with
    | none => some none
    | some value => (c.unmarshal value).map fun rule => some { rule with aliasName := a }
  else none

variable {a : String}

variable (c pre) in
/-- What an event gives a cache, which has no rule without a name. -/
def news (a : String) (e : String × Option ν) : Option (Option StoredRule) :=
  if a = "" then none else gives c pre a e

lemma news_of_ne (ha : a ≠ "") : (news c pre a : String × Option ν → _) = gives c pre a :=
  funext fun _ => if_neg ha

lemma news_empty (e : String × Option ν) : news c pre "" e = none := if_pos rfl

lemma lookup_setRule (rules : GoMap String StoredRule) (key : String) (value : ν) :
    (setRule c pre rules key value).lookup a =
      (news c pre a (key, some value)).getD (rules.lookup a) := by
  unfold setRule news gives
  by_cases hkey : aliasFromKey pre key = a
  · by_cases ha : a = ""
    · simp [hkey, ha]
    · simp only [hkey, ha, if_false, if_true]
      rcases c.unmarshal value with _ | rule
      · rfl
      · simp
  · simp only [hkey, if_false, ite_self, getD_none]
    split_ifs with hempty
    · rfl
    · rcases c.unmarshal value with _ | rule
      · rfl
      · exact lookup_insert_ne (Ne.symm hkey)

lemma lookup_applyEvent (rules : GoMap String StoredRule) (e : String × Option ν) :
    (applyEvent c pre rules e).lookup a = (news c pre a e).getD (rules.lookup a) := by
  obtain ⟨key, _ | value⟩ := e
  · unfold applyEvent news gives
    by_cases hkey : aliasFromKey pre key = a
    · by_cases ha : a = "" <;> simp [hkey, ha]
    · simp only [hkey, if_false, ite_self, getD_none]
      split_ifs with hempty
      · rfl
      · exact lookup_erase_ne (Ne.symm hkey)
  · exact lookup_setRule rules key value

lemma lookup_applyEvents (events : List (String × Option ν)) (rules : GoMap String StoredRule) :
    (applyEvents c pre rules events).lookup a = settle (news c pre a) (rules.lookup a) events :=
  view_foldl rules fun e _ rules => lookup_applyEvent rules e

def Readable (c : Codec ν) (e : String × Option ν) : Prop := ∀ value ∈ e.2, c.unmarshal value ≠ none

lemma stored_contents {m : RevisionedMap String ν} (hread : ∀ e ∈ m.events, Readable c e)
    (ha : a ≠ "") : stored c pre m.contents a =
      settle (gives c pre a) (stored c pre m.first a) m.events := by
  let view : Option ν → Option StoredRule := fun value =>
    (value.bind c.unmarshal).map fun rule => { rule with aliasName := a }
  have hview : ∀ e ∈ m.events,
      gives c pre a e = (ofKey (keyOf pre a) e).map view := by
    intro e he
    unfold gives ofKey
    by_cases hkey : e.1 = keyOf pre a
    · rw [if_pos (hkey ▸ aliasFromKey_keyOf a), if_pos hkey]
      rcases hval : e.2 with _ | value
      · rfl
      · obtain ⟨rule, hrule⟩ := ne_none_iff_exists'.mp (hread e he value hval)
        simp only [view, hrule, map_some, bind_some]
    · rw [if_neg fun h => hkey (eq_keyOf h ha), if_neg hkey]
      rfl
  have hsettle := settle_map view (m.first.lookup (keyOf pre a)) hview
  unfold stored
  rw [if_neg ha, if_neg ha, lookup_contents]
  exact hsettle.symm

lemma lookup_foldl_setRule (kvs : List (Sigma fun _ : String => ν))
    (rules : GoMap String StoredRule) :
    (kvs.foldl (fun rules kv => setRule c pre rules kv.1 kv.2) rules).lookup a =
      settle (fun kv => news c pre a (kv.1, some kv.2)) (rules.lookup a) kvs :=
  view_foldl rules fun kv _ rules => lookup_setRule rules kv.1 kv.2

lemma settle_entries (ha : a ≠ "") :
    ∀ {kvs : List (Sigma fun _ : String => ν)}, kvs.NodupKeys →
      settle (fun kv => gives c pre a (kv.1, some kv.2)) none kvs =
        ((kvs.dlookup (keyOf pre a)).bind c.unmarshal).map fun rule => { rule with aliasName := a }
  | [], _ => rfl
  | ⟨key, value⟩ :: kvs, h => by
    obtain ⟨hnew, hrest⟩ := nodupKeys_cons.mp h
    rw [settle_cons]
    by_cases hkey : key = keyOf pre a
    · -- no other key has this alias
      have hidle : ∀ kv ∈ kvs, gives c pre a (kv.1, some kv.2) = none := by
        intro kv hkv
        refine if_neg fun halias => hnew ?_
        rw [hkey, ← eq_keyOf halias ha]
        show kv.1 ∈ kvs.keys
        exact mem_keys_of_mem hkv
      rw [settle_idle _ hidle, hkey, dlookup_cons_eq]
      unfold gives
      rw [if_pos (aliasFromKey_keyOf a)]
      simp only [bind_some]
      rcases c.unmarshal value with _ | rule <;> rfl
    · have hother : gives c pre a (key, some value) = none :=
        if_neg fun halias => hkey (eq_keyOf halias ha)
      rw [hother, getD_none, settle_entries ha hrest,
        dlookup_cons_ne _ _ (Ne.symm hkey)]

lemma lookup_initialLoad (ha : a ≠ "") (entries : GoMap String ν) :
    (initialLoad c pre entries).lookup a = stored c pre entries a := by
  have houtside : ∀ kv : Sigma fun _ : String => ν, pre.toList.isPrefixOf kv.1.toList = false →
      gives c pre a (kv.1, some kv.2) = none := by
    intro kv hkv
    refine if_neg fun halias => ha ?_
    rw [← halias, aliasFromKey, hkv]
    rfl
  rw [initialLoad, lookup_foldl_setRule, news_of_ne ha, settle_filter houtside, lookup_empty,
    settle_entries ha entries.nodupKeys, stored, if_neg ha]
  rfl

variable (entries : GoMap String ν)

lemma lookup_initialLoad_empty : (initialLoad c pre entries).lookup "" = none := by
  rw [initialLoad, lookup_foldl_setRule, settle_idle _ fun _ _ => news_empty _, lookup_empty]

def Op.name : Op → String
  | .put rule => rule.aliasName
  | .delete aliasName => aliasName
  | .cache aliasName _ _ => aliasName

variable (c pre) in
def Op.Holds (etcd : RevisionedMap String ν) : Op → Prop
  | .cache a value k =>
    k ≤ etcd.revision ∧
      value = settle (gives c pre a) (stored c pre etcd.first a) (etcd.events.take k)
  | _ => True

variable (c pre) in
/-- **A sound instance.** For every alias its cache follows the events of etcd. -/
structure Sound (etcd : RevisionedMap String ν) (inst : Instance) : Prop where
  bound : inst.position ≤ etcd.revision
  unnamed : inst.rules.lookup "" = none
  follows : ∀ a ≠ "", Follows (gives c pre a) (stored c pre etcd.first a) etcd.events inst.position
    (inst.rules.lookup a)
  named : ∀ op ∈ inst.ops, op.name ≠ ""
  holds : ∀ op ∈ inst.ops, op.Holds c pre etcd

variable {etcd etcd' : RevisionedMap String ν} {inst : Instance} {op op' : Op}

structure Grows (c : Codec ν) (etcd etcd' : RevisionedMap String ν) : Prop where
  first : etcd'.first = etcd.first
  events : ∃ es, etcd'.events = etcd.events ++ es ∧ ∀ e ∈ es, Readable c e

lemma Grows.refl (c : Codec ν) (etcd : RevisionedMap String ν) : Grows c etcd etcd :=
  ⟨rfl, [], (append_nil _).symm, nofun⟩

lemma Grows.le (h : Grows c etcd etcd') : etcd.revision ≤ etcd'.revision := by
  obtain ⟨es, hes, -⟩ := h.events
  unfold revision
  rw [hes, length_append]
  omega

lemma Op.Holds.grow (hold : op.Holds c pre etcd) (h : Grows c etcd etcd') :
    op.Holds c pre etcd' := by
  cases op with
  | put rule => trivial
  | delete a => trivial
  | cache a value k =>
    obtain ⟨es, hes, -⟩ := h.events
    obtain ⟨hk, hvalue⟩ := hold
    refine ⟨hk.trans h.le, ?_⟩
    rw [h.first, hes, take_append_of_le_length hk]
    exact hvalue

section

variable (hs : Sound c pre etcd inst)
include hs

lemma Sound.grow (h : Grows c etcd etcd') :
    Sound c pre etcd' inst where
  bound := hs.bound.trans h.le
  unnamed := hs.unnamed
  follows a ha := by
    obtain ⟨es, hes, -⟩ := h.events
    rw [h.first, hes]
    exact (hs.follows a ha).grow es
  named := hs.named
  holds op hop := (hs.holds op hop).grow h

lemma Sound.withOps {ops : List Op} (hops : ∀ op ∈ ops, op.name ≠ "" ∧ op.Holds c pre etcd) :
    Sound c pre etcd { inst with ops := ops } :=
  ⟨hs.bound, hs.unnamed, hs.follows, fun op hop => (hops op hop).1, fun op hop => (hops op hop).2⟩

lemma Sound.ofMem (hop : op ∈ inst.ops) :
    op.name ≠ "" ∧ op.Holds c pre etcd := ⟨hs.named op hop, hs.holds op hop⟩

lemma Sound.eraseOp (n : ℕ) : Sound c pre etcd { inst with ops := inst.ops.eraseIdx n } :=
  hs.withOps fun _ hop => hs.ofMem (mem_of_mem_eraseIdx hop)

lemma Sound.addOp (hop : op.name ≠ "" ∧ op.Holds c pre etcd) :
    Sound c pre etcd { inst with ops := inst.ops ++ [op] } :=
  hs.withOps (forall_concat (fun _ => hs.ofMem) hop)

end

lemma sound_start (hread : ∀ e ∈ etcd.events, Readable c e) :
    Sound c pre etcd ⟨initialLoad c pre etcd.contents, false, etcd.revision, []⟩ where
  bound := le_refl _
  unnamed := lookup_initialLoad_empty _
  follows a ha := by
    rw [lookup_initialLoad ha, stored_contents hread ha]
    exact Follows.start _ _
  named _ hop := absurd hop not_mem_nil
  holds _ hop := absurd hop not_mem_nil

lemma Sound.watch (hs : Sound c pre etcd inst) (hread : ∀ e ∈ etcd.events, Readable c e)
    (htimely : ∀ e ∈ etcd.events.drop inst.position,
      inst.rules.lookup (aliasFromKey pre e.1) =
        stored c pre etcd.contents (aliasFromKey pre e.1)) :
    Sound c pre etcd { inst with watching := true, position := etcd.revision } where
  bound := le_refl _
  unnamed := hs.unnamed
  follows a ha := by
    by_cases hmissed : ∃ e ∈ etcd.events.drop inst.position, aliasFromKey pre e.1 = a
    · obtain ⟨e, he, rfl⟩ := hmissed
      rw [htimely e he, stored_contents hread ha]
      exact Follows.start _ _
    · refine (hs.follows a ha).skip fun e he => if_neg fun halias => hmissed ⟨e, he, halias⟩
  named := hs.named
  holds := hs.holds

lemma Sound.deliver (hs : Sound c pre etcd inst) {n : ℕ}
    (hn : inst.position + n ≤ etcd.revision) :
    Sound c pre etcd { inst with
      rules := applyEvents c pre inst.rules ((etcd.events.drop inst.position).take n)
      position := inst.position + n } where
  bound := hn
  unnamed := by
    rw [lookup_applyEvents, settle_idle _ fun e _ => news_empty e]
    exact hs.unnamed
  follows a ha := by
    rw [lookup_applyEvents, news_of_ne ha]
    exact (hs.follows a ha).deliverNext hn
  named := hs.named
  holds := hs.holds

lemma name_of_validate {r cp : StoredRule} (h : r.validate = .ok cp) : cp.aliasName ≠ "" := by
  unfold StoredRule.validate at h
  dsimp only at h
  split_ifs at h with hempty
  obtain rfl := Except.ok.inj h
  intro hname
  exact hempty (by simpa using congrArg String.toList hname)

lemma name_of_preparePut {now : ℤ} {rule : Option StoredRule} {updatedBy : String}
    (h : preparePut now rule updatedBy = .ok op) : ∃ cp, op = .put cp ∧ cp.aliasName ≠ "" := by
  unfold preparePut at h
  rcases rule with _ | rule
  · exact nomatch h
  · rcases hv : rule.validate with e | cp
    · simp [hv] at h
    · simp only [hv] at h
      have hcp := name_of_validate hv
      exact ⟨_, (Except.ok.inj h).symm, hcp⟩

lemma Sound.begin (hs : Sound c pre etcd inst) {now : ℤ} {call : Call}
    (h : inst.begin now call = .ok op) : op.name ≠ "" ∧ op.Holds c pre etcd := by
  cases call with
  | put rule updatedBy =>
    obtain ⟨cp, rfl, hcp⟩ := name_of_preparePut h
    exact ⟨hcp, trivial⟩
  | delete a =>
    simp only [Instance.begin] at h
    split at h
    · exact nomatch h
    · rename_i rule hrule
      obtain rfl := Except.ok.inj h
      refine ⟨fun hname => ?_, trivial⟩
      rw [show a = "" from hname, hs.unnamed] at hrule
      exact nomatch hrule
  | setActive a active updatedBy =>
    simp only [Instance.begin] at h
    split at h
    · exact nomatch h
    · obtain ⟨cp, rfl, hcp⟩ := name_of_preparePut h
      exact ⟨hcp, trivial⟩

lemma send_spec (hlaw : c.Lawful) (hread : ∀ e ∈ etcd.events, Readable c e)
    (hname : op.name ≠ "") (h : send c pre etcd op = some (etcd', op')) :
    Grows c etcd etcd' ∧ op'.name ≠ "" ∧ op'.Holds c pre etcd' := by
  cases op with
  | put rule =>
    obtain ⟨rfl, rfl⟩ := Prod.mk.inj (some.inj h)
    refine ⟨⟨rfl, _, rfl, ?_⟩, hname, le_refl _, ?_⟩
    · rintro e he value hvalue
      obtain rfl := mem_singleton.mp he
      obtain rfl := some.inj hvalue
      rw [hlaw]
      exact some_ne_none _
    · rw [revision, take_length]
      simp [put, settle_append, gives, hlaw rule]
  | delete a =>
    obtain ⟨rfl, rfl⟩ := Prod.mk.inj (some.inj h)
    rcases etcd.delete_cases (keyOf pre a) with hevent | ⟨habsent, hsame⟩
    · rw [hevent]
      refine ⟨⟨rfl, _, rfl, ?_⟩, hname, le_refl _, ?_⟩
      · rintro e he value hvalue
        obtain rfl := mem_singleton.mp he
        exact nomatch hvalue
      · rw [revision, take_length]
        simp [settle_append, gives]
    · -- nothing was stored, and nothing changes
      rw [hsame]
      refine ⟨Grows.refl c etcd, hname, le_refl _, ?_⟩
      have ha : a ≠ "" := hname
      have hstored : stored c pre etcd.contents a = none := by
        rw [stored, if_neg ha, habsent]
        rfl
      rw [revision, take_length, ← stored_contents hread ha]
      exact hstored.symm
  | cache a value k => exact nomatch h

lemma Sound.cache (hs : Sound c pre etcd inst) {n : ℕ} {value : Option StoredRule} {k : ℕ}
    (hop : inst.ops[n]? = some (.cache a value k))
    (htimely : ∀ e ∈ (etcd.events.take inst.position).drop k, aliasFromKey pre e.1 ≠ a) :
    Sound c pre etcd { inst with rules := writeCache inst.rules a value
                                 ops := inst.ops.eraseIdx n } := by
  have hmem := mem_of_getElem? hop
  have ha : a ≠ "" := hs.named _ hmem
  obtain ⟨hk, hvalue⟩ := hs.holds _ hmem
  have hlookup : ∀ a', (writeCache inst.rules a value).lookup a' =
      if a' = a then value else inst.rules.lookup a' := by
    intro a'
    by_cases ha' : a' = a
    · subst ha'
      rcases value with _ | rule <;> simp [writeCache]
    · rcases value with _ | rule
      · simp [writeCache, ha', lookup_erase_ne]
      · simp [writeCache, ha', lookup_insert_ne]
  refine ⟨hs.bound, ?_, fun a' ha' => ?_,
    fun op hmem => hs.named op (mem_of_mem_eraseIdx hmem),
    fun op hmem => hs.holds op (mem_of_mem_eraseIdx hmem)⟩
  · rw [hlookup, if_neg (Ne.symm ha)]
    exact hs.unnamed
  · rw [hlookup]
    split_ifs with heq
    · subst heq
      rw [hvalue]
      exact Follows.writeThrough hs.bound hk fun e he => if_neg (htimely e he)
    · exact hs.follows a' ha'

/-! ## Whole runs -/

section

variable {ι : Type*} {s s' : System ι ν}

variable (c pre) in
structure Inv (s : System ι ν) : Prop where
  readable : ∀ e ∈ s.etcd.events, Readable c e
  sound : ∀ i inst, s.instances i = some inst → Sound c pre s.etcd inst

lemma inv_init : Inv c pre (System.init ι entries) :=
  ⟨nofun, nofun⟩

variable [DecidableEq ι]

lemma Inv.set (h : Inv c pre s) (i : ι) (hgrow : Grows c s.etcd etcd')
    (hsound : Sound c pre etcd' inst) :
    Inv c pre ({ s with etcd := etcd' }.set i inst) where
  readable e he := by
    obtain ⟨es, hes, hread⟩ := hgrow.events
    rcases mem_append.mp (hes ▸ he : e ∈ s.etcd.events ++ es) with hold | hnew
    · exact h.readable e hold
    · exact hread e hnew
  sound j inst' hj := by
    by_cases hij : j = i
    · subst hij
      rw [System.set_self] at hj
      obtain rfl := some.inj hj
      exact hsound
    · rw [System.set_ne _ hij] at hj
      exact (h.sound j inst' hj).grow hgrow

lemma Inv.setSame (h : Inv c pre s) (i : ι) (hsound : Sound c pre s.etcd inst) :
    Inv c pre (s.set i inst) := h.set i (Grows.refl c s.etcd) hsound

omit [DecidableEq ι] in
lemma Inv.send (hlaw : c.Lawful) (h : Inv c pre s) {i : ι} {n : ℕ}
    (hinst : s.instances i = some inst)
    (hop : inst.ops[n]?.bind (EtcdRegistry.send c pre s.etcd) = some (etcd', op')) :
    Grows c s.etcd etcd' ∧ op'.name ≠ "" ∧ op'.Holds c pre etcd' := by
  obtain ⟨op, hop, hsend⟩ := bind_eq_some_iff.mp hop
  have hmem := mem_of_getElem? hop
  exact send_spec hlaw h.readable ((h.sound i inst hinst).named _ hmem) hsend

lemma Inv.step (hlaw : c.Lawful) (h : Inv c pre s) {a : Action ι} (htimely : Timely c pre s a)
    (hstep : EtcdRegistry.step c pre s a = some s') : Inv c pre s' := by
  revert hstep
  fun_cases EtcdRegistry.step c pre s a <;> rintro ⟨⟩
  case case2 i _ => exact h.setSame i (sound_start h.readable)
  case case4 i inst hinst _ =>
    exact h.setSame i ((h.sound i inst hinst).watch h.readable (htimely inst hinst))
  case case6 i inst hinst _ =>
    have hs := h.sound i inst hinst
    exact h.setSame i ⟨hs.bound, hs.unnamed, hs.follows, hs.named, hs.holds⟩
  case case9 i n inst hinst hopen _ => exact h.setSame i ((h.sound i inst hinst).deliver hopen.2)
  case case12 => exact h
  case case13 i _ _ inst hinst op hbegin =>
    have hs := h.sound i inst hinst
    exact h.setSame i (hs.addOp (hs.begin hbegin))
  -- the call to etcd fails, is not answered, is answered
  case case16 i n inst hinst etcd' op' hop _ =>
    exact h.setSame i ((h.sound i inst hinst).eraseOp n)
  case case17 i n inst hinst etcd' op' hop _ =>
    obtain ⟨hgrow, -⟩ := h.send hlaw hinst hop
    exact h.set i hgrow (((h.sound i inst hinst).grow hgrow).eraseOp n)
  case case18 i n inst hinst etcd' op' hop _ =>
    obtain ⟨hgrow, hholds⟩ := h.send hlaw hinst hop
    exact h.set i hgrow ((((h.sound i inst hinst).grow hgrow).eraseOp n).addOp hholds)
  case case20 i n inst hinst a value k hop =>
    exact h.setSame i ((h.sound i inst hinst).cache hop (htimely inst hinst _ hop))

/-- **Routing caches converge.** In every run of any number of instances whose steps are timely, the
caches of all instances are the rules in etcd whenever nothing is under way. -/
theorem caches_converge (hlaw : c.Lawful) (entries : GoMap String ν) {acts : List (Action ι)}
    (hrun : Transition.run (step c pre) (System.init ι entries) acts = some s)
    (htimely : Transition.Along (step c pre) (Timely c pre) (System.init ι entries) acts)
    (hquiet : Quiet s) (i : ι) (hinst : s.instances i = some inst) (a : String) :
    inst.rules.lookup a = stored c pre s.etcd.contents a := by
  have hinv : Inv c pre s :=
    Transition.invariant (step c pre) (fun _ _ _ h hgood hstep => h.step hlaw hgood hstep)
      (inv_init entries) htimely hrun
  obtain ⟨-, hposition, -⟩ := hquiet i inst hinst
  have hs := hinv.sound i inst hinst
  by_cases ha : a = ""
  · rw [ha, hs.unnamed]
    rfl
  · have hfollows := hs.follows a ha
    rw [hposition] at hfollows
    rw [hfollows.caughtUp, stored_contents hinv.readable ha]

end

def plain : Codec StoredRule := ⟨id, some⟩

def orderNew (exchange : String) : StoredRule := ⟨⟨"NEW", exchange, "rk", true⟩, "", 0, ""⟩

def bothWatch : List (Action (Fin 2)) := [.start 0, .watch 0, .start 1, .watch 1]

def putsInTurn : List (Action (Fin 2)) :=
  bothWatch ++ [.call 0 1 (.put (orderNew "BLUE") "kim"), .send 0 0 .done, .deliver 1 1, .cache 0 0,
    .call 1 2 (.put (orderNew "GREEN") "lee"), .send 1 0 .done, .deliver 0 2, .cache 1 0,
    .deliver 1 1]

def putsOverlap : List (Action (Fin 2)) :=
  bothWatch ++ [.call 0 1 (.put (orderNew "BLUE") "kim"), .call 1 2 (.put (orderNew "GREEN") "lee"),
    .send 0 0 .done, .send 1 0 .done, .deliver 0 2, .deliver 1 2, .cache 1 0, .cache 0 0]

def putBeforeWatch : List (Action (Fin 2)) :=
  [.start 1, .watch 1, .start 0, .call 1 1 (.put (orderNew "BLUE") "lee"), .send 1 0 .done,
    .cache 1 0, .deliver 1 1, .watch 0]

def putWhileClosed : List (Action (Fin 2)) :=
  bothWatch ++ [.close 0, .call 1 1 (.put (orderNew "BLUE") "lee"), .send 1 0 .done, .cache 1 0,
    .deliver 1 1, .watch 0]

def after (acts : List (Action (Fin 2))) : Option (System (Fin 2) StoredRule) :=
  Transition.run (step plain "r/") (System.init (Fin 2) ∅) acts

theorem putsInTurn_converge :
    ∃ s ∈ after putsInTurn, Quiet s ∧ (stored plain "r/" s.etcd.contents "NEW").isSome ∧
      ∀ i, ∀ inst ∈ s.instances i, ∀ a,
        inst.rules.lookup a = stored plain "r/" s.etcd.contents a := by
  have hrun : ∃ s ∈ after putsInTurn, Quiet s ∧
      (stored plain "r/" s.etcd.contents "NEW").isSome := by decide +kernel
  obtain ⟨s, hs, hquiet, hsome⟩ := hrun
  refine ⟨s, hs, hquiet, hsome, fun i inst hinst a => ?_⟩
  exact caches_converge (fun _ => rfl) ∅ hs (by decide +kernel) hquiet i hinst a

/-- Nothing is under way, and the cache of the first instance is not what etcd has. -/
def Stale (acts : List (Action (Fin 2))) : Prop :=
  ∃ s ∈ after acts, Quiet s ∧ ∃ inst ∈ s.instances 0,
    inst.rules.lookup "NEW" ≠ stored plain "r/" s.etcd.contents "NEW"

instance (acts : List (Action (Fin 2))) : Decidable (Stale acts) :=
  inferInstanceAs (Decidable (∃ _ ∈ _, _))

theorem cache_goes_stale : Stale putsOverlap ∧ Stale putBeforeWatch ∧ Stale putWhileClosed := by
  decide +kernel

end Wtg.Routing.EtcdRegistry
