import Mathlib.Data.Int.Order.Basic
import Mathlib.Data.List.Nodup
import Wtg.Lib.RevisionedKey
import Wtg.Lib.Transition

/-! # Reading, changing and writing back

Several clients share one key with revisions. Each of them loads the value, computes a new one from
it and stores that. -/

namespace Wtg.Lib.ReadModifyWrite

open Transition List Option RevisionedKey

/-- The clients: what they make of a value, whether and how often they store conditionally, and the
errors they return. -/
structure Clients (ι σ ε : Type*) where
  change : ι → σ → Except ε σ
  conditional : ι → Bool
  tries : ι → ℕ
  loadError : ι → ε
  storeError : ι → ε
  conflict : ι → ε

/-- Where a client stands: before a load, between load and store with the value to store and the
revision it was made from, or at the end. -/
inductive Phase (σ ε : Type*)
  | ready (attempt : ℕ)
  | loaded (attempt : ℕ) (next : σ) (rev : ℕ)
  | succeeded
  | failed (err : ε)
deriving DecidableEq, Repr

def Phase.Over {σ ε : Type*} (p : Phase σ ε) : Prop := p = .succeeded ∨ ∃ e, p = .failed e

/-- The first value of the key, the stores made since with their clients, and the clients. -/
structure State (ι σ ε : Type*) where
  first : σ
  stores : List (ι × σ)
  phase : ι → Phase σ ε

inductive Action (ι : Type*)
  | load (i : ι) (outcome : Outcome)
  | store (i : ι) (outcome : Outcome)
deriving DecidableEq, Repr

variable {ι σ ε : Type*}

namespace State

def key (s : State ι σ ε) : RevisionedKey σ := ⟨s.first, s.stores.map Prod.snd⟩

def init (first : σ) : State ι σ ε := ⟨first, [], fun _ => .ready 0⟩

variable [DecidableEq ι]

def enter (s : State ι σ ε) (i : ι) (p : Phase σ ε) : State ι σ ε :=
  { s with phase := Function.update s.phase i p }

def write (s : State ι σ ε) (i : ι) (v : σ) (p : Phase σ ε) : State ι σ ε :=
  { s with stores := s.stores ++ [(i, v)], phase := Function.update s.phase i p }

variable (s : State ι σ ε) (i : ι) (p : Phase σ ε)

@[simp] lemma phase_enter_self :
    (s.enter i p).phase i = p := by simp [enter]

lemma phase_enter_ne {i j : ι} (h : j ≠ i) :
    (s.enter i p).phase j = s.phase j := by simp [enter, h]

@[simp] lemma phase_write_self (v : σ) (p : Phase σ ε) :
    (s.write i v p).phase i = p := by simp [write]

lemma phase_write_ne {i j : ι} (v : σ) (p : Phase σ ε) (h : j ≠ i) :
    (s.write i v p).phase j = s.phase j := by simp [write, h]

@[simp] lemma key_write (v : σ) (p : Phase σ ε) : (s.write i v p).key = s.key.put v := by
  simp [key, write, put]

end State

/-! ## Steps -/

section

variable [DecidableEq ι] (c : Clients ι σ ε)

/-- The end of a load: the changed value with its revision, or an error. -/
def afterLoad (s : State ι σ ε) (i : ι) (attempt : ℕ) : Outcome → Phase σ ε
  | .done =>
    match c.change i s.key.value with
    | .ok next => .loaded attempt next s.key.revision
    | .error e => .failed e
  | _ => .failed (c.loadError i)

/-- The end of a conditional store that found another revision. -/
def afterConflict (i : ι) (attempt : ℕ) : Outcome → Phase σ ε
  | .done => if attempt + 1 < c.tries i then .ready (attempt + 1) else .failed (c.conflict i)
  | _ => .failed (c.storeError i)

def afterStore (i : ι) : Outcome → Phase σ ε
  | .done => .succeeded
  | _ => .failed (c.storeError i)

def step (s : State ι σ ε) : Action ι → Option (State ι σ ε)
  | .load i outcome =>
    match s.phase i with
    | .ready attempt => some (s.enter i (afterLoad c s i attempt outcome))
    | _ => none
  | .store i outcome =>
    match s.phase i with
    | .loaded attempt next rev =>
      if outcome = .failed then some (s.enter i (.failed (c.storeError i)))
      else if c.conditional i = true ∧ s.key.revision ≠ rev then
        some (s.enter i (afterConflict c i attempt outcome))
      else some (s.write i next (afterStore c i outcome))
    | _ => none

/-- What a step does: a client loads, moves on without effect, or stores. -/
inductive Does (s : State ι σ ε) : Action ι → State ι σ ε → Prop
  | read {i attempt next} : s.phase i = .ready attempt → c.change i s.key.value = .ok next →
      Does s (.load i .done) (s.enter i (.loaded attempt next s.key.revision))
  | quiet {a i p} : ¬ (s.phase i).Over → ((∃ attempt, p = .ready attempt) ∨ ∃ e, p = .failed e) →
      Does s a (s.enter i p)
  | wrote {i outcome attempt next rev p} : s.phase i = .loaded attempt next rev →
      outcome ≠ .failed → (c.conditional i = true → s.key.revision = rev) → p.Over →
      Does s (.store i outcome) (s.write i next p)

variable {c} {s s' : State ι σ ε} {a : Action ι} {i : ι}

lemma does_load {outcome : Outcome} (h : step c s (.load i outcome) = some s') :
    Does c s (.load i outcome) s' := by
  rcases hp : s.phase i with attempt | _ | _ | _ <;> rw [step, hp] at h <;>
    simp only [reduceCtorEq] at h
  have hbusy : ¬ (s.phase i).Over := by simp [hp, Phase.Over]
  obtain rfl := some.inj h
  rcases outcome with _ | _ | _
  · exact .quiet hbusy (.inr ⟨_, rfl⟩)
  · exact .quiet hbusy (.inr ⟨_, rfl⟩)
  · rcases hchange : c.change i s.key.value with e | next
    · rw [afterLoad, hchange]
      exact .quiet hbusy (.inr ⟨_, rfl⟩)
    · rw [afterLoad, hchange]
      exact .read hp hchange

lemma does_store {outcome : Outcome} (h : step c s (.store i outcome) = some s') :
    Does c s (.store i outcome) s' := by
  rcases hp : s.phase i with _ | ⟨attempt, next, rev⟩ | _ | _ <;> rw [step, hp] at h <;>
    simp only [reduceCtorEq] at h
  have hbusy : ¬ (s.phase i).Over := by simp [hp, Phase.Over]
  split_ifs at h with hfailed hconflict
  · obtain rfl := some.inj h
    exact .quiet hbusy (.inr ⟨_, rfl⟩)
  · obtain rfl := some.inj h
    refine .quiet hbusy ?_
    rcases outcome with _ | _ | _
    · exact .inr ⟨_, rfl⟩
    · exact .inr ⟨_, rfl⟩
    · rw [afterConflict]
      split_ifs
      · exact .inl ⟨_, rfl⟩
      · exact .inr ⟨_, rfl⟩
  · obtain rfl := some.inj h
    refine .wrote hp hfailed (fun hc => not_not.mp fun hne => hconflict ⟨hc, hne⟩) ?_
    rcases outcome with _ | _ | _
    · exact .inr ⟨_, rfl⟩
    · exact .inr ⟨_, rfl⟩
    · exact .inl rfl

lemma does_of_step (h : step c s a = some s') : Does c s a s' := by
  rcases a with ⟨i, outcome⟩ | ⟨i, outcome⟩
  · exact does_load h
  · exact does_store h

/-- What a client is about to store was made from the value at the revision it has loaded, and the
clients that have stored are through. -/
structure Inv (c : Clients ι σ ε) (s : State ι σ ε) : Prop where
  loaded : ∀ i attempt next rev, s.phase i = .loaded attempt next rev →
    rev ≤ s.key.revision ∧ (rev = s.key.revision → c.change i s.key.value = .ok next)
  stored : ∀ i, s.phase i = .succeeded → i ∈ s.stores.map Prod.fst
  ended : ∀ i ∈ s.stores.map Prod.fst, (s.phase i).Over
  once : (s.stores.map Prod.fst).Nodup

omit [DecidableEq ι] in
lemma inv_init (c : Clients ι σ ε) (first : σ) : Inv c (State.init first) := by
  refine ⟨?_, ?_, ?_, nodup_nil⟩
  · exact fun i attempt next rev h => absurd h (by simp [State.init])
  · exact fun i h => absurd h (by simp [State.init])
  · exact fun i h => absurd h not_mem_nil

variable {p : Phase σ ε}

lemma Inv.enter (hinv : Inv c s) (hbusy : ¬ (s.phase i).Over)
    (hp : p ≠ .succeeded)
    (hload : ∀ attempt next rev, p = .loaded attempt next rev →
      rev ≤ s.key.revision ∧ (rev = s.key.revision → c.change i s.key.value = .ok next)) :
    Inv c (s.enter i p) := by
  refine ⟨fun j attempt next rev h => ?_, fun j h => ?_, fun j hj => ?_, hinv.once⟩
  · by_cases hji : j = i
    · subst hji
      rw [State.phase_enter_self] at h
      exact hload attempt next rev h
    · rw [State.phase_enter_ne s p hji] at h
      exact hinv.loaded j attempt next rev h
  · by_cases hji : j = i
    · subst hji
      rw [State.phase_enter_self] at h
      exact absurd h hp
    · rw [State.phase_enter_ne s p hji] at h
      exact hinv.stored j h
  · have hji : j ≠ i := fun hji => hbusy (hji ▸ hinv.ended j hj)
    rw [State.phase_enter_ne s p hji]
    exact hinv.ended j hj

lemma Inv.write (hinv : Inv c s) {v : σ} (hbusy : ¬ (s.phase i).Over) (hp : p.Over) :
    Inv c (s.write i v p) := by
  have hstores : (s.write i v p).stores.map Prod.fst = s.stores.map Prod.fst ++ [i] := by
    simp [State.write]
  refine ⟨fun j attempt next rev h => ?_, fun j h => ?_, fun j hj => ?_, ?_⟩
  · have hji : j ≠ i := by
      rintro rfl
      rw [State.phase_write_self] at h
      subst h
      rcases hp with hp | ⟨e, hp⟩ <;> exact absurd hp (by simp)
    rw [State.phase_write_ne s v p hji] at h
    have hle := (hinv.loaded j attempt next rev h).1
    rw [State.key_write, revision_put]
    exact ⟨by omega, fun heq => absurd heq (by omega)⟩
  · rw [hstores]
    by_cases hji : j = i
    · exact mem_append_right _ (mem_singleton.mpr hji)
    · rw [State.phase_write_ne s v p hji] at h
      exact mem_append_left _ (hinv.stored j h)
  · rw [hstores] at hj
    by_cases hji : j = i
    · rw [hji, State.phase_write_self]
      exact hp
    · rw [State.phase_write_ne s v p hji]
      exact hinv.ended j ((mem_append.mp hj).resolve_right fun h =>
        hji (mem_singleton.mp h))
  · rw [hstores, nodup_append]
    refine ⟨hinv.once, nodup_singleton i, fun j hj k hk hjk => ?_⟩
    rw [mem_singleton.mp hk] at hjk
    exact hbusy (hjk ▸ hinv.ended j hj)

lemma Inv.step (hinv : Inv c s) (h : step c s a = some s') : Inv c s' := by
  cases does_of_step h with
  | read hp hchange =>
    refine hinv.enter (by simp [hp, Phase.Over]) (by simp) fun attempt next rev heq => ?_
    obtain ⟨-, rfl, rfl⟩ := Phase.loaded.inj heq
    exact ⟨Nat.le_refl _, fun _ => hchange⟩
  | quiet hbusy hp =>
    refine hinv.enter hbusy ?_ fun attempt next rev heq => ?_
    · rcases hp with ⟨_, rfl⟩ | ⟨_, rfl⟩ <;> simp
    · rcases hp with ⟨_, rfl⟩ | ⟨_, rfl⟩ <;> exact absurd heq (by simp)
  | wrote hp _ _ hover => exact hinv.write (by simp [hp, Phase.Over]) hover

/-- The stored values come out of each other, each by a step of its client. -/
def Serial (rel : ι → σ → σ → Prop) : σ → List (ι × σ) → Prop
  | _, [] => True
  | v, (i, v') :: rest => rel i v v' ∧ Serial rel v' rest

omit [DecidableEq ι] in
lemma serial_concat {rel : ι → σ → σ → Prop} {v' : σ} :
    ∀ {l : List (ι × σ)} {v : σ}, Serial rel v (l ++ [(i, v')]) ↔
      Serial rel v l ∧ rel i (value ⟨v, l.map Prod.snd⟩) v'
  | [], v => by simp [Serial, value]
  | (j, w) :: l, v => by
    have hvalue : value ⟨v, ((j, w) :: l).map Prod.snd⟩ =
        value ⟨w, l.map Prod.snd⟩ := by
      simp only [value, map_cons, getLast?_cons, getD_some]
    rw [cons_append, Serial, Serial, serial_concat, hvalue, and_assoc]

/-- From this phase a store, if it is made, finds the key at the revision that was loaded, and a
value with `P`. -/
def FindsLoaded (c : Clients ι σ ε) (P : σ → Prop) (key : RevisionedKey σ) (i : ι)
    (outcome : Outcome) : Phase σ ε → Prop
  | .loaded _ _ rev => outcome ≠ .failed → (c.conditional i = true → key.revision = rev) →
      key.revision = rev ∧ P key.value
  | _ => True

instance (c : Clients ι σ ε) (P : σ → Prop) [DecidablePred P] (key : RevisionedKey σ) (i : ι)
    (outcome : Outcome) : ∀ p, Decidable (FindsLoaded c P key i outcome p)
  | .loaded _ _ _ => inferInstanceAs (Decidable (_ → _))
  | .ready _ => .isTrue trivial
  | .succeeded => .isTrue trivial
  | .failed _ => .isTrue trivial

/-- No store that is made overwrites a value that its client has not seen. -/
def Undisturbed (c : Clients ι σ ε) (P : σ → Prop) (s : State ι σ ε) : Action ι → Prop
  | .load _ _ => True
  | .store i outcome => FindsLoaded c P s.key i outcome (s.phase i)

instance (c : Clients ι σ ε) (P : σ → Prop) [DecidablePred P] (s : State ι σ ε) :
    ∀ a, Decidable (Undisturbed c P s a)
  | .load _ _ => .isTrue trivial
  | .store i outcome => inferInstanceAs (Decidable (FindsLoaded c P s.key i outcome (s.phase i)))

lemma serial_of_run {P : σ → Prop} {first : σ} {as : List (Action ι)}
    (hrun : run (step c) (State.init first) as = some s)
    (hgood : Along (step c) (Undisturbed c P) (State.init first) as) :
    Inv c s ∧ s.first = first ∧
      Serial (fun i v v' => c.change i v = .ok v' ∧ P v) first s.stores := by
  refine invariant (step c) (P := fun s => Inv c s ∧ s.first = first ∧
    Serial (fun i v v' => c.change i v = .ok v' ∧ P v) first s.stores) ?_
    ⟨inv_init c first, rfl, trivial⟩ hgood hrun
  rintro s a s' ⟨hinv, hfirst, hserial⟩ hgood hstep
  refine ⟨hinv.step hstep, ?_⟩
  cases does_of_step hstep with
  | read => exact ⟨hfirst, hserial⟩
  | quiet => exact ⟨hfirst, hserial⟩
  | wrote hp hmade hcond =>
    rw [Undisturbed, hp] at hgood
    obtain ⟨hrev, hP⟩ := hgood hmade hcond
    have hchange := (hinv.loaded _ _ _ _ hp).2 hrev.symm
    subst hfirst
    exact ⟨rfl, serial_concat.mpr ⟨hserial, hchange, hP⟩⟩

omit [DecidableEq ι] in
lemma undisturbed_of_conditional (h : ∀ i, c.conditional i = true) (s : State ι σ ε)
    (a : Action ι) : Undisturbed c (fun _ => True) s a := by
  rcases a with ⟨i, outcome⟩ | ⟨i, outcome⟩
  · trivial
  · rw [Undisturbed]
    rcases s.phase i with _ | ⟨_, _, rev⟩ | _ | _
    · trivial
    · exact fun _ hrev => ⟨hrev (h i), trivial⟩
    · trivial
    · trivial

/-- A client that has stored has succeeded, or was told an error of the store. -/
def Told (c : Clients ι σ ε) (s : State ι σ ε) : Prop :=
  ∀ i ∈ s.stores.map Prod.fst, s.phase i = .succeeded ∨ s.phase i = .failed (c.storeError i)

lemma Told.enter (h : Told c s) (hbusy : ¬ (s.phase i).Over) : Told c (s.enter i p) := by
  intro j hj
  have hji : j ≠ i := by
    rintro rfl
    exact hbusy ((h j hj).imp_right fun he => ⟨_, he⟩)
  rw [State.phase_enter_ne s p hji]
  exact h j hj

lemma Told.step (h : Told c s) (hstep : step c s a = some s') : Told c s' := by
  revert hstep
  fun_cases ReadModifyWrite.step c s a <;> rintro ⟨⟩
  case case1 i outcome attempt hp => exact h.enter (by simp [hp, Phase.Over])
  case case3 i attempt next rev hp => exact h.enter (by simp [hp, Phase.Over])
  case case4 i outcome attempt next rev hp _ _ => exact h.enter (by simp [hp, Phase.Over])
  case case5 i outcome attempt next rev hp _ _ =>
    intro j hj
    by_cases hji : j = i
    · rw [hji, State.phase_write_self]
      rcases outcome with _ | _ | _
      · exact .inr rfl
      · exact .inr rfl
      · exact .inl rfl
    · rw [State.phase_write_ne s _ _ hji]
      refine h j ?_
      simpa [State.write, hji] using hj

end

/-! ## Serial order -/

variable {rel : ι → σ → σ → Prop}

lemma Serial.imp {rel' : ι → σ → σ → Prop} (himp : ∀ i v v', rel i v v' → rel' i v v') :
    ∀ {l : List (ι × σ)} {first : σ}, Serial rel first l → Serial rel' first l
  | [], _, _ => trivial
  | _ :: _, _, ⟨hrel, hrest⟩ => ⟨himp _ _ _ hrel, hrest.imp himp⟩

def lastBy (own : ι → Prop) [DecidablePred own] (l : List (ι × σ)) : Option σ :=
  ((l.filter fun e => own e.1).getLast?).map Prod.snd

lemma Serial.part (same : σ → σ → Prop) (hrefl : ∀ v, same v v)
    (htrans : ∀ u v w, same u v → same v w → same u w) {own : ι → Prop} [DecidablePred own]
    (hframe : ∀ i v v', ¬ own i → rel i v v' → same v' v) {first : σ} (l : List (ι × σ))
    (h : Serial rel first l) :
    same (value ⟨first, l.map Prod.snd⟩) ((lastBy own l).getD first) := by
  induction l using reverseRecOn with
  | nil => exact hrefl first
  | append_singleton l e ih =>
    obtain ⟨i, v⟩ := e
    obtain ⟨hserial, hrel⟩ := serial_concat.mp h
    have hvalue : value ⟨first, (l ++ [(i, v)]).map Prod.snd⟩ = v := by
      simp [value]
    rw [hvalue]
    by_cases hown : own i
    · have hlast : lastBy own (l ++ [(i, v)]) = some v := by simp [lastBy, hown]
      rw [hlast]
      exact hrefl v
    · have hlast : lastBy own (l ++ [(i, v)]) = lastBy own l := by simp [lastBy, hown]
      rw [hlast]
      exact htrans _ _ _ (hframe i _ v hown hrel) (ih hserial)

lemma Serial.increasing (version : σ → ℤ) (hlt : ∀ i v v', rel i v v' → version v < version v') :
    ∀ {l : List (ι × σ)} {first : σ}, Serial rel first l →
      (version first :: l.map fun e => version e.2).Pairwise (· < ·)
  | [], _, _ => pairwise_singleton _ _
  | (i, v) :: l, first, ⟨hrel, hrest⟩ => by
    have ih := Serial.increasing version hlt hrest
    refine pairwise_cons.mpr ⟨fun w hw => ?_, ih⟩
    rcases mem_cons.mp hw with rfl | hw
    · exact hlt i first v hrel
    · exact lt_trans (hlt i first v hrel) ((pairwise_cons.mp ih).1 w hw)

end Wtg.Lib.ReadModifyWrite
