import Wtg.Lib.Follower
import Wtg.Lib.RevisionedKey
import Wtg.Lib.Transition
import Wtg.Pricing.Doc

/-! # The pricing table in etcd

`EtcdTableWatcher` of `pkg/pricing/etcd.go`. -/

namespace Wtg.Pricing.EtcdTableWatcher

open Lib Lib.Follower Pricing.Doc Pricing.Table Option

variable {ν R : Type*}

/-- What the package takes from Go's library: the letters, and `json.Unmarshal` of a document. -/
structure Env (ν R : Type*) where
  runes : Runes
  unmarshal : ν → Option (PricingTableDoc R)

def parsePricingTable (env : Env ν R) (body : ν) : Option (PricingTable R) :=
  (env.unmarshal body).map (buildPricingTable env.runes)

def newStore : PricingTable R := ⟨0, ∅, ∅, ∅, [], ∅, none⟩

def initialLoad (env : Env ν R) (value : Option ν) (store : PricingTable R) :
    Option (PricingTable R) :=
  match value with
  | none => some store
  | some body => parsePricingTable env body

def applyEvent (env : Env ν R) (store : PricingTable R) : Option ν → PricingTable R
  | some body =>
    match parsePricingTable env body with
    | some tbl => tbl
    | none => store
  | none => store

def applyEvents (env : Env ν R) (store : PricingTable R) (events : List (Option ν)) :
    PricingTable R := events.foldl (applyEvent env) store

inductive Phase
  | new
  | loaded
  | failed
  | watching
  | closed
  deriving DecidableEq, Repr

structure System (ν R : Type*) where
  key : RevisionedKey (Option ν)
  store : PricingTable R
  phase : Phase
  position : ℕ

/-- The steps: others put or delete the document; the watcher reads it; it opens its watch, for the
first time or again; the channel closes; a response with the next `n` events is delivered. -/
inductive Action (ν : Type*)
  | write (value : Option ν)
  | load
  | watch
  | close
  | deliver (n : ℕ)
  deriving DecidableEq, Repr

def step (env : Env ν R) (s : System ν R) : Action ν → Option (System ν R)
  | .write value =>
    -- etcd makes no event of the deletion of an absent key
    if value.isNone ∧ s.key.value.isNone then some s
    else some { s with key := s.key.put value }
  | .load =>
    if s.phase = .new then
      match initialLoad env s.key.value s.store with
      | some tbl => some { s with store := tbl, phase := .loaded, position := s.key.revision }
      | none => some { s with phase := .failed }
    else none
  | .watch =>
    if s.phase = .loaded ∨ s.phase = .closed then
      some { s with phase := .watching, position := s.key.revision }
    else none
  | .close => if s.phase = .watching then some { s with phase := .closed } else none
  | .deliver n =>
    if s.phase = .watching ∧ s.position + n ≤ s.key.revision then
      let events := (s.key.writes.drop s.position).take n
      some { s with store := applyEvents env s.store events, position := s.position + n }
    else none

def System.init (value : Option ν) : System ν R := ⟨⟨value, []⟩, newStore, .new, 0⟩

def Waiting (s : System ν R) : Prop := s.phase = .watching ∧ s.position = s.key.revision

instance (s : System ν R) : Decidable (Waiting s) := inferInstanceAs (Decidable (_ ∧ _))

def tableOf (env : Env ν R) (value : Option ν) : Option (PricingTable R) :=
  value.bind (parsePricingTable env)

def latest (env : Env ν R) (key : RevisionedKey (Option ν)) : PricingTable R :=
  settle (tableOf env) ((tableOf env key.first).getD newStore) key.writes

/-- **No gap.** A key that is absent at the `Get` never had a document that parses, and when a watch
is opened, none has been stored since the position. -/
def Gapless (env : Env ν R) (s : System ν R) : Action ν → Prop
  | .load => s.key.value = none → ∀ v ∈ s.key.first :: s.key.writes, (tableOf env v).isNone
  | .watch => ∀ v ∈ s.key.writes.drop s.position, (tableOf env v).isNone
  | _ => True

instance [DecidableEq ν] (env : Env ν R) (s : System ν R) : ∀ a, Decidable (Gapless env s a)
  | .load => inferInstanceAs (Decidable (_ → _))
  | .watch => inferInstanceAs (Decidable (∀ _ ∈ _, _))
  | .write _ | .close | .deliver _ => .isTrue trivial

variable {env : Env ν R}

lemma applyEvent_eq (store : PricingTable R) (v : Option ν) :
    applyEvent env store v = (tableOf env v).getD store := by
  rcases v with _ | body
  · rfl
  · simp only [applyEvent, tableOf, bind_some]
    rcases parsePricingTable env body with _ | tbl <;> rfl

lemma applyEvents_eq : ∀ (events : List (Option ν)) (store : PricingTable R),
    applyEvents env store events = settle (tableOf env) store events
  | [], _ => rfl
  | v :: events, store => by
    show applyEvents env (applyEvent env store v) events = _
    rw [applyEvents_eq events, applyEvent_eq, settle_cons]

variable {key : RevisionedKey (Option ν)} {tbl : PricingTable R}

lemma latest_of_value (h : tableOf env key.value = some tbl) :
    latest env key = tbl := by
  obtain ⟨first, writes⟩ := key
  rcases List.eq_nil_or_concat writes with rfl | ⟨before, last, rfl⟩
  · show (tableOf env first).getD newStore = tbl
    rw [show tableOf env first = some tbl from h]
    rfl
  · have hlast : tableOf env last = some tbl := by
      simpa [RevisionedKey.value] using h
    simp [latest, settle_append, hlast]

lemma latest_of_none (h : ∀ v ∈ key.first :: key.writes, (tableOf env v).isNone) :
    latest env key = newStore := by
  have hfirst : tableOf env key.first = none :=
    isNone_iff_eq_none.mp (h _ List.mem_cons_self)
  unfold latest
  rw [settle_idle _ fun v hv => isNone_iff_eq_none.mp (h v (List.mem_cons_of_mem _ hv)),
    hfirst]
  rfl

variable (env) in
structure Inv (s : System ν R) : Prop where
  fresh : s.phase = .new → s.store = newStore
  bound : s.position ≤ s.key.revision
  follows : s.phase = .loaded ∨ s.phase = .watching ∨ s.phase = .closed →
    Follows (tableOf env) ((tableOf env s.key.first).getD newStore) s.key.writes s.position s.store

variable {s s' : System ν R}

lemma inv_init (value : Option ν) : Inv env (System.init value : System ν R) :=
  ⟨fun _ => rfl, le_refl _, nofun⟩

lemma Inv.write (h : Inv env s) (value : Option ν) :
    Inv env { s with key := s.key.put value } where
  fresh := h.fresh
  bound := by
    rw [RevisionedKey.revision_put]
    exact h.bound.trans (Nat.le_succ _)
  follows hphase := (h.follows hphase).grow [value]

lemma Inv.load (h : Inv env s) (hnew : s.phase = .new) (hgood : Gapless env s .load)
    (hload : initialLoad env s.key.value s.store = some tbl) :
    Inv env { s with store := tbl, phase := .loaded, position := s.key.revision } := by
  have htbl : tbl = latest env s.key := by
    rcases hvalue : s.key.value with _ | body
    · rw [latest_of_none (hgood hvalue), ← h.fresh hnew]
      rw [hvalue] at hload
      exact (some.inj hload).symm
    · rw [hvalue] at hload
      refine (latest_of_value ?_).symm
      rw [hvalue]
      exact hload
  refine ⟨nofun, le_refl _, fun _ => ?_⟩
  rw [htbl]
  exact Follows.start _ _

lemma Inv.watch (h : Inv env s) (hphase : s.phase = .loaded ∨ s.phase = .closed)
    (hgood : Gapless env s .watch) :
    Inv env { s with phase := .watching, position := s.key.revision } where
  fresh := nofun
  bound := le_refl _
  follows _ := by
    have hstarted : s.phase = .loaded ∨ s.phase = .watching ∨ s.phase = .closed := by tauto
    exact (h.follows hstarted).skip fun v hv => isNone_iff_eq_none.mp (hgood v hv)

lemma Inv.deliver (h : Inv env s) (hphase : s.phase = .watching) {n : ℕ}
    (hn : s.position + n ≤ s.key.revision) :
    Inv env { s with
      store := applyEvents env s.store ((s.key.writes.drop s.position).take n)
      position := s.position + n } where
  fresh hnew := absurd (hphase.symm.trans hnew) (by decide)
  bound := hn
  follows _ := by
    rw [applyEvents_eq]
    exact (h.follows (.inr (.inl hphase))).deliverNext hn

lemma Inv.step (h : Inv env s) {a : Action ν} (hgood : Gapless env s a)
    (hstep : EtcdTableWatcher.step env s a = some s') : Inv env s' := by
  revert hstep
  fun_cases EtcdTableWatcher.step env s a <;> rintro ⟨⟩
  case case1 => exact h
  case case2 value _ => exact h.write value
  case case3 hnew tbl hload => exact h.load hnew hgood hload
  case case4 => exact ⟨nofun, h.bound, nofun⟩
  case case6 hphase => exact h.watch hphase hgood
  case case8 hphase => exact ⟨nofun, h.bound, fun _ => h.follows (.inr (.inl hphase))⟩
  case case10 hopen _ => exact h.deliver hopen.1 hopen.2

/-- **The table in use is the one in etcd**: in every run without a gap, once every event is
delivered, it is that of the latest document that parses. -/
theorem table_current (value : Option ν) {acts : List (Action ν)}
    (hrun : Transition.run (step env) (System.init value) acts = some s)
    (hgapless : Transition.Along (step env) (Gapless env) (System.init value) acts)
    (hwaiting : Waiting s) : s.store = latest env s.key := by
  have hinv : Inv env s :=
    Transition.invariant (step env) (fun _ _ _ h hgood hstep => h.step hgood hstep)
      (inv_init value) hgapless hrun
  have hfollows := hinv.follows (.inr (.inl hwaiting.1))
  rw [hwaiting.2] at hfollows
  exact hfollows.caughtUp

variable (env) in
/-- The table is the one of `NewStore`, or that of a document that was in etcd. -/
def Stored (s : System ν R) : Prop :=
  s.store = newStore ∨ ∃ v ∈ s.key.first :: s.key.writes, tableOf env v = some s.store

lemma Stored.step (h : Stored env s) {a : Action ν}
    (hstep : EtcdTableWatcher.step env s a = some s') : Stored env s' := by
  revert hstep
  fun_cases EtcdTableWatcher.step env s a <;> rintro ⟨⟩
  case case2 value _ =>
    exact h.imp_right fun ⟨v, hv, htbl⟩ => ⟨v, List.mem_append_left [value] hv, htbl⟩
  case case3 tbl hload =>
    rcases hvalue : s.key.value with _ | body <;> rw [hvalue] at hload
    · obtain rfl := some.inj hload
      exact h
    · exact .inr ⟨some body, hvalue ▸ s.key.value_mem, hload⟩
  case case10 n _ _ =>
    unfold Stored
    rw [applyEvents_eq]
    rcases settle_mem ((s.key.writes.drop s.position).take n) s.store with hold | ⟨v, hv, htbl⟩
    · rw [hold]
      exact h
    · exact .inr ⟨v, List.mem_cons_of_mem _ (List.mem_of_mem_drop (List.mem_of_mem_take hv)), htbl⟩
  all_goals exact h

/-- **No table is made up**: in every run, with or without gaps, the table in use is the one of
`NewStore` or that of a document that was in etcd and parsed. -/
theorem table_stored (value : Option ν) {acts : List (Action ν)}
    (hrun : Transition.run (step env) (System.init value) acts = some s) : Stored env s :=
  Transition.invariant (step env) (fun _ _ _ h _ hstep => h.step hstep) (.inl rfl)
    (Transition.along_of_forall _ (fun _ _ => trivial) acts _) hrun

def versions : Env ℤ ℤ where
  runes := ⟨id, id⟩
  unmarshal v := if v < 0 then none else some ⟨Int64.ofInt v, [], [], [], [], [], []⟩

def after (acts : List (Action ℤ)) : Option (System ℤ ℤ) :=
  Transition.run (step versions) (System.init (some 1)) acts

def twoWrites : List (Action ℤ) :=
  [.load, .watch, .write (some 2), .write (some (-1)), .deliver 2]

theorem table_current_two : ∃ s ∈ after twoWrites,
    Waiting s ∧ s.store.version = 2 ∧ s.store = latest versions s.key := by
  have hrun : ∃ s ∈ after twoWrites, Waiting s ∧ s.store.version = 2 := by decide +kernel
  obtain ⟨s, hs, hwaiting, hversion⟩ := hrun
  exact ⟨s, hs, hwaiting, hversion, table_current (some 1) hs (by decide +kernel) hwaiting⟩

theorem table_stored_two : ∃ s ∈ after twoWrites, Stored versions s := by
  have hrun : (after twoWrites).isSome = true := by decide +kernel
  obtain ⟨s, hs⟩ := isSome_iff_exists.mp hrun
  exact ⟨s, hs, table_stored (some 1) hs⟩

/-- The watcher waits with version 1, and the latest stored version is 2. -/
def Outdated (acts : List (Action ℤ)) : Prop :=
  ∃ s ∈ after acts, Waiting s ∧ s.store.version = 1 ∧ (latest versions s.key).version = 2

instance (acts : List (Action ℤ)) : Decidable (Outdated acts) :=
  inferInstanceAs (Decidable (∃ _ ∈ _, _))

theorem table_outdated : Outdated [.load, .write (some 2), .watch] ∧
    Outdated [.load, .watch, .close, .write (some 2), .watch] := by
  decide +kernel

end Wtg.Pricing.EtcdTableWatcher
