import Mathlib.Data.List.Permutation
import Wtg.Lib.RevisionedKey
import Wtg.Lib.Transition
import Wtg.Policy.Operations

/-! # The policy in etcd

`EtcdSync` of `pkg/policy/etcd.go`. -/

namespace Wtg.Policy.EtcdSync

open Lib Policy.Operations List Lib.Transition Text Engine

/-- The engine, the snapshots not yet written, in the order in which they were taken, the key in
etcd, and the revision `watchLoop` has got to. -/
structure Sync where
  engine : Engine
  pending : List State
  key : RevisionedKey State
  applied : ℕ

/-- After `initialLoad` of a value; a missing key is the empty state. -/
def loaded (t : Text) (s : State) : Sync := ⟨Engine.applyRemote t s, [], ⟨s, []⟩, 0⟩

/-- The steps: a mutator under the lock, the write of a pending snapshot by `persist`, and the
application of the next event by `watchLoop`. -/
inductive Action
  | mutate (now : ℤ) (m : Mutator)
  | persist (n : ℕ)
  | watch
deriving DecidableEq, Repr

def step (t : Text) (s : Sync) : Action → Option Sync
  | .mutate now m =>
    some { s with engine := (m.run t now s.engine).1
                  pending := s.pending ++ (m.run t now s.engine).2.toList }
  | .persist n =>
    match s.pending[n]? with
    | some snap => some { s with pending := s.pending.eraseIdx n, key := s.key.put snap }
    | none => none
  | .watch =>
    match s.key.event s.applied with
    | some v => some { s with engine := Engine.applyRemote t v, applied := s.applied + 1 }
    | none => none

def Quiet (s : Sync) : Prop := s.pending = [] ∧ s.applied = s.key.revision

instance (s : Sync) : Decidable (Quiet s) := inferInstanceAs (Decidable (_ ∧ _))

def mutations (acts : List Action) : List (ℤ × Mutator) :=
  acts.filterMap fun
    | .mutate now m => some (now, m)
    | _ => none

def applyAll (t : Text) : Engine → List (ℤ × Mutator) → Engine
  | e, [] => e
  | e, m :: ms => applyAll t (m.2.run t m.1 e).1 ms

def Sync.latest (s : Sync) : State := s.pending.getLast?.getD s.key.value

/-- **An orderly step**: a mutator starts from what the last one left, and of the pending snapshots
the oldest is written first. -/
def Orderly (s : Sync) : Action → Prop
  | .mutate _ _ => s.engine.state = s.latest
  | .persist n => n = 0
  | .watch => True

instance (s : Sync) : ∀ a, Decidable (Orderly s a)
  | .mutate _ _ => inferInstanceAs (Decidable (_ = _))
  | .persist n => inferInstanceAs (Decidable (n = 0))
  | .watch => .isTrue trivial

/-- The block lists are as the engine keeps them. -/
structure Kept (t : Text) (s : State) : Prop where
  symbols : IsNormal t.trimUpper "" s.blockedSymbols
  routingKeys : IsNormal t.trimUpper "" s.blockedRoutingKeys

variable {t : Text}

lemma Kept.applyRemote {s : State} (h : Kept t s) : (applyRemote t s).state = s := by
  have hs : normalizeUpper t s.blockedSymbols = s.blockedSymbols := h.symbols.sortedNames_eq
  have hr : normalizeUpper t s.blockedRoutingKeys = s.blockedRoutingKeys := h.routingKeys.sortedNames_eq
  show normalizeBlocked t s = s
  unfold normalizeBlocked
  rw [hs, hr]

lemma kept_normalizeBlocked (ht : t.Lawful) (s : State) : Kept t (normalizeBlocked t s) :=
  ⟨isNormal_sortedNames (trimUpper_trimUpper ht) _,
    isNormal_sortedNames (trimUpper_trimUpper ht) _⟩

lemma isNormal_add (ht : t.Lawful) {l : Listing} (h : IsNormal t.trimUpper "" l.list) {x : String}
    (hx : t.trimUpper x ≠ "") : IsNormal t.trimUpper "" (l.add (t.trimUpper x)).list := by
  unfold Listing.add
  split_ifs with hin
  · exact h
  · refine h.add (trimUpper_trimUpper ht x) hx ?_
    rw [l.agree, mem_toFinset] at hin
    exact hin

lemma run_cases (ht : t.Lawful) {e : Engine} (h : Kept t e.state) (now : ℤ) (m : Mutator) :
    Kept t (m.run t now e).1.state ∧
      (m.run t now e).2 = some (m.run t now e).1.state ∨ m.run t now e = (e, none) := by
  cases m with
  | setState s updatedBy => exact .inl ⟨kept_normalizeBlocked ht _, rfl⟩
  | setKillSwitch active updatedBy => exact .inl ⟨⟨h.symbols, h.routingKeys⟩, rfl⟩
  | setKillSwitchScoped active channels updatedBy =>
    exact .inl ⟨⟨h.symbols, h.routingKeys⟩, rfl⟩
  | setMaintenance w updatedBy =>
    simp only [Mutator.run, setMaintenance]
    split_ifs
    · exact .inr rfl
    · exact .inl ⟨⟨h.symbols, h.routingKeys⟩, rfl⟩
  | addBlockedSymbol sym updatedBy =>
    simp only [Mutator.run, addBlockedSymbol]
    split_ifs with hx
    · exact .inr rfl
    · exact .inl ⟨⟨isNormal_add ht (l := e.symbols) h.symbols hx, h.routingKeys⟩, rfl⟩
  | removeBlockedSymbol sym updatedBy =>
    simp only [Mutator.run, removeBlockedSymbol]
    split_ifs
    · exact .inr rfl
    · exact .inl ⟨⟨h.symbols.filter _, h.routingKeys⟩, rfl⟩
    · exact .inr rfl
  | addBlockedRoutingKey rk updatedBy =>
    simp only [Mutator.run, addBlockedRoutingKey]
    split_ifs with hx
    · exact .inr rfl
    · exact .inl ⟨⟨h.symbols, isNormal_add ht (l := e.rkeys) h.routingKeys hx⟩, rfl⟩
  | removeBlockedRoutingKey rk updatedBy =>
    simp only [Mutator.run, removeBlockedRoutingKey]
    split_ifs
    · exact .inr rfl
    · exact .inl ⟨⟨h.symbols, h.routingKeys.filter _⟩, rfl⟩
    · exact .inr rfl

/-- **In order.** The last mutator left the result of all of them; a watcher that has caught up has
put the engine at the value in etcd, or it is at what the last mutator left. -/
structure InOrder (t : Text) (e₀ : Engine) (done : List (ℤ × Mutator)) (s : Sync) : Prop where
  latest : s.latest = (applyAll t e₀ done).state
  bound : s.applied ≤ s.key.revision
  caughtUp : s.applied = s.key.revision →
    s.engine.state = s.key.value ∨ s.engine.state = s.latest
  engine : Kept t s.engine.state
  pending : ∀ v ∈ s.pending, Kept t v
  writes : ∀ v ∈ s.key.writes, Kept t v

lemma applyAll_append (ms : List (ℤ × Mutator)) (m : ℤ × Mutator) :
    ∀ e : Engine, applyAll t e (ms ++ [m]) = (m.2.run t m.1 (applyAll t e ms)).1 := by
  induction ms with
  | nil => exact fun e => rfl
  | cons m' ms ih => exact fun e => ih _

lemma latest_append (s : Sync) (snap : State) (e : Engine) :
    ({ s with engine := e, pending := s.pending ++ [snap] } : Sync).latest = snap := by
  simp [Sync.latest]

variable {e₀ : Engine} {done : List (ℤ × Mutator)} {s s' : Sync}

lemma InOrder.mutate (ht : t.Lawful) (h : InOrder t e₀ done s) (now : ℤ) (m : Mutator)
    (hstart : s.engine.state = s.latest) :
    InOrder t e₀ (done ++ [(now, m)])
      { s with engine := (m.run t now s.engine).1
               pending := s.pending ++ (m.run t now s.engine).2.toList } := by
  -- the engine is the one the mutators so far give, as its state determines it
  have hengine : s.engine = applyAll t e₀ done := ext_state (hstart.trans h.latest)
  have hall : (m.run t now s.engine).1 = applyAll t e₀ (done ++ [(now, m)]) := by
    rw [applyAll_append, ← hengine]
  rcases run_cases ht h.engine now m with ⟨hkept, hsnap⟩ | hnone
  · rw [hsnap]
    have hlatest := latest_append s (m.run t now s.engine).1.state (m.run t now s.engine).1
    exact ⟨hlatest.trans (congrArg state hall), h.bound, fun _ => .inr hlatest.symm, hkept,
      forall_concat h.pending hkept, h.writes⟩
  · rw [hnone] at hall ⊢
    simp only [Option.toList_none, append_nil]
    exact ⟨hstart.symm.trans (congrArg state hall), h.bound, fun _ => .inr hstart, h.engine,
      h.pending, h.writes⟩

lemma InOrder.persist (h : InOrder t e₀ done s) {snap : State} {rest : List State}
    (hp : s.pending = snap :: rest) :
    InOrder t e₀ done { s with pending := rest, key := s.key.put snap } where
  latest := by
    rw [← h.latest, Sync.latest, Sync.latest, hp]
    simp [getLast?_cons]
  bound := by
    rw [RevisionedKey.revision_put]
    exact h.bound.trans (Nat.le_succ _)
  caughtUp hcaught := by
    have hbound := h.bound
    rw [RevisionedKey.revision_put] at hcaught
    exact absurd (show s.applied = s.key.revision + 1 from hcaught) (by omega)
  engine := h.engine
  pending v hv := h.pending v (by rw [hp]; exact mem_cons_of_mem _ hv)
  writes := forall_concat h.writes (h.pending snap (by rw [hp]; exact mem_cons_self))

lemma InOrder.watch (h : InOrder t e₀ done s) {v : State} (hv : s.key.event s.applied = some v) :
    InOrder t e₀ done { s with engine := applyRemote t v, applied := s.applied + 1 } := by
  have hkept := h.writes v (RevisionedKey.mem_of_event hv)
  refine ⟨h.latest, RevisionedKey.lt_of_event hv, ?_, ?_, h.pending, h.writes⟩
  · intro hcaught
    -- the last event is the value in etcd
    rw [hkept.applyRemote]
    exact .inl (RevisionedKey.event_last hv hcaught)
  · rw [hkept.applyRemote]
    exact hkept

lemma InOrder.step (ht : t.Lawful) (h : InOrder t e₀ done s) {a : Action} (hgood : Orderly s a)
    (hstep : EtcdSync.step t s a = some s') : InOrder t e₀ (done ++ mutations [a]) s' := by
  cases a with
  | mutate now m =>
    obtain rfl := Option.some.inj hstep
    exact h.mutate ht now m hgood
  | persist n =>
    obtain rfl : n = 0 := hgood
    rcases hp : s.pending with _ | ⟨snap, rest⟩
    · simp [EtcdSync.step, hp] at hstep
    · simp only [EtcdSync.step, hp, getElem?_cons_zero, eraseIdx_zero, tail_cons,
        Option.some.injEq] at hstep
      subst hstep
      rw [show mutations [Action.persist 0] = [] from rfl, append_nil]
      exact h.persist hp
  | watch =>
    rcases hv : s.key.event s.applied with _ | v
    · simp [EtcdSync.step, hv] at hstep
    · simp only [EtcdSync.step, hv, Option.some.injEq] at hstep
      subst hstep
      rw [show mutations [Action.watch] = [] from rfl, append_nil]
      exact h.watch hv

lemma inOrder_run (ht : t.Lawful) : ∀ (acts : List Action) {done : List (ℤ × Mutator)} {s s' : Sync},
    InOrder t e₀ done s → Transition.Along (step t) Orderly s acts →
      run (step t) s acts = some s' → InOrder t e₀ (done ++ mutations acts) s'
  | [], done, s, s', h, _, hrun => by
    obtain rfl := Option.some.inj hrun
    rw [show mutations [] = [] from rfl, append_nil]
    exact h
  | a :: acts, done, s, s', h, ⟨hgood, hrest⟩, hrun => by
    obtain ⟨s₁, h₁, hrun⟩ := Option.bind_eq_some_iff.mp hrun
    have hnext := inOrder_run ht acts (h.step ht hgood h₁) (hrest s₁ h₁) hrun
    rw [append_assoc] at hnext
    rwa [show mutations (a :: acts) = mutations [a] ++ mutations acts from
      filterMap_append (l := [a])]

lemma inOrder_loaded {v : State} (hv : Kept t v) :
    InOrder t (applyRemote t v) [] (loaded t v) where
  latest := hv.applyRemote.symm
  bound := le_rfl
  caughtUp _ := .inl hv.applyRemote
  engine := by
    rw [show (loaded t v).engine.state = v from hv.applyRemote]
    exact hv
  pending _ h := absurd h not_mem_nil
  writes _ h := absurd h not_mem_nil

/-- **No change is lost in orderly runs**: once everything is written and applied, the engine and
etcd hold the result of all mutators in their order. -/
theorem nothing_lost (t : Text) (ht : t.Lawful) (v : State) (hv : Kept t v) (acts : List Action)
    (s : Sync) (hgood : Transition.Along (step t) Orderly (loaded t v) acts)
    (hrun : Transition.run (step t) (loaded t v) acts = some s) (hquiet : Quiet s) :
    s.engine.state = s.key.value ∧ ∃ order : List (ℤ × Mutator), order.Perm (mutations acts) ∧
      s.key.value = (applyAll t (loaded t v).engine order).state := by
  have h := inOrder_run ht acts (inOrder_loaded hv) hgood hrun
  obtain ⟨hpending, happlied⟩ := hquiet
  have hlatest : s.latest = s.key.value := by rw [Sync.latest, hpending]; rfl
  refine ⟨?_, mutations acts, List.Perm.refl _, hlatest.symm.trans h.latest⟩
  rcases h.caughtUp happlied with hvalue | hvalue
  · exact hvalue
  · exact hvalue.trans hlatest

def orderlyActs : List Action :=
  [.mutate 1 (.addBlockedSymbol "usdkrw" "ops"), .persist 0, .watch, .mutate 2 (.setKillSwitch true "ops"),
    .persist 0, .watch]

theorem nothing_lost_orderly :
    ∃ s, Transition.run (step Text.ascii) (loaded Text.ascii {}) orderlyActs = some s ∧ Quiet s ∧
      s.engine.state = s.key.value ∧ ∃ order : List (ℤ × Mutator),
        order.Perm (mutations orderlyActs) ∧
          s.key.value = (applyAll Text.ascii (loaded Text.ascii {}).engine order).state := by
  have hsome : (run (step ascii) (loaded ascii {}) orderlyActs).isSome = true := by
    decide +kernel
  have hquiet : ∀ s ∈ run (step ascii) (loaded ascii {}) orderlyActs, Quiet s := by
    decide +kernel
  obtain ⟨s, hs⟩ := Option.isSome_iff_exists.mp hsome
  exact ⟨s, hs, hquiet s hs, nothing_lost ascii ascii_lawful {} ⟨isNormal_nil, isNormal_nil⟩
    orderlyActs s (by decide +kernel) hs (hquiet s hs)⟩

def lateSnapshot : List Action :=
  [.mutate 1 (.addBlockedSymbol "usdkrw" "ops"), .mutate 2 (.setKillSwitch true "ops"), .persist 1,
    .persist 0, .watch, .watch]

theorem kill_switch_lost :
    ∃ s, Transition.run (step Text.ascii) (loaded Text.ascii {}) lateSnapshot = some s ∧ Quiet s ∧
      s.engine.state.killSwitch = false ∧ s.key.value.killSwitch = false ∧
      ∀ order : List (ℤ × Mutator), order.Perm (mutations lateSnapshot) →
        s.key.value ≠ (applyAll Text.ascii (loaded Text.ascii {}).engine order).state := by
  have hsome : (run (step ascii) (loaded ascii {}) lateSnapshot).isSome = true := by
    decide +kernel
  have hend : ∀ s ∈ run (step ascii) (loaded ascii {}) lateSnapshot,
      Quiet s ∧ s.engine.state.killSwitch = false ∧ s.key.value.killSwitch = false ∧
        ∀ order ∈ (mutations lateSnapshot).permutations',
          s.key.value ≠ (applyAll ascii (loaded ascii {}).engine order).state := by
    decide +kernel
  obtain ⟨s, hs⟩ := Option.isSome_iff_exists.mp hsome
  obtain ⟨hquiet, hoff, hstored, horder⟩ := hend s hs
  exact ⟨s, hs, hquiet, hoff, hstored, fun order h => horder order (mem_permutations'.mpr h)⟩

end Wtg.Policy.EtcdSync
