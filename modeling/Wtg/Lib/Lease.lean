import Wtg.Lib.Transition
import Mathlib.Data.Int.Order.Basic
import Mathlib.Data.List.Basic

/-! # Reservations without an owner

A store keeps, under one key, either nothing, or a reservation with a tag and an expiry, or the
answer that a reservation was completed with. -/

namespace Wtg.Lib.Lease

open List Function

/-! ## Cells -/

section

variable (τ ρ : Type*)

/-- What is under the key: nothing, a reservation, or an answer. -/
inductive Cell
  | free
  | held (tag : τ) (expiry : ℤ)
  | kept (tag : τ) (answer : ρ) (expiry : ℤ)

/-- What an attempt to reserve is told. -/
inductive Answer
  | miss
  | cached (answer : ρ)
  | inFlight
  | conflict
  | failed
  deriving DecidableEq

end

variable {σ τ ρ : Type*}

/-- The cell is not free at `now`, an entry with expiry `e` counting while `live now e`. -/
def Cell.Live (live : ℤ → ℤ → Prop) (now : ℤ) : Cell τ ρ → Prop
  | .free => False
  | .held _ e => live now e
  | .kept _ _ e => live now e

/-- A store under one key. -/
structure Store (σ τ ρ : Type*) where
  reserve : ℤ → σ → τ → σ × Answer ρ
  commit : ℤ → σ → ρ → σ
  rollback : ℤ → σ → σ
  reserved : ℤ → σ → Bool

/-- **The store follows a cell** (`R`, at a time), as long as completions find their reservation. -/
structure Implements (st : Store σ τ ρ) (live : ℤ → ℤ → Prop) (ttl : ℤ)
    (R : ℤ → σ → Cell τ ρ → Prop) : Prop where
  live_mono : ∀ {now now' e : ℤ}, now' ≤ now → live now e → live now' e
  live_later : ∀ {now e e' : ℤ}, e ≤ e' → live now e → live now e'
  mono : ∀ {now now' : ℤ} {s : σ} {c : Cell τ ρ}, now ≤ now' → R now s c → R now' s c
  miss : ∀ {now : ℤ} {s : σ} {c : Cell τ ρ} {tag : τ}, R now s c →
    (st.reserve now s tag).2 = .miss →
      ¬ c.Live live now ∧ R now (st.reserve now s tag).1 (.held tag (now + ttl))
  other : ∀ {now : ℤ} {s : σ} {c : Cell τ ρ} {tag : τ}, R now s c →
    (st.reserve now s tag).2 ≠ .miss → R now (st.reserve now s tag).1 c
  cached : ∀ {now : ℤ} {s : σ} {c : Cell τ ρ} {tag : τ} {a : ρ}, R now s c →
    (st.reserve now s tag).2 = .cached a → ∃ e, c = .kept tag a e
  failed : ∀ {now : ℤ} {s : σ} {c : Cell τ ρ} {tag : τ}, R now s c → live now (now + ttl) →
    (st.reserve now s tag).2 ≠ .failed
  commit : ∀ {now : ℤ} {s : σ} {tag : τ} {e : ℤ} (a : ρ), R now s (.held tag e) → live now e →
    R now (st.commit now s a) (.kept tag a (now + ttl))
  rollback : ∀ {now : ℤ} {s : σ} {tag : τ} {e : ℤ}, R now s (.held tag e) → live now e →
    R now (st.rollback now s) .free

/-- **What a reservation may do** to a store at a cell, case by case. -/
inductive Reserves (live : ℤ → ℤ → Prop) (ttl : ℤ) (R : ℤ → σ → Cell τ ρ → Prop) (now : ℤ)
    (c : Cell τ ρ) (tag : τ) : σ × Answer ρ → Prop
  | miss {s : σ} (hfree : ¬ c.Live live now) (h : R now s (.held tag (now + ttl))) :
      Reserves live ttl R now c tag (s, .miss)
  | conflict {s : σ} (h : R now s c) : Reserves live ttl R now c tag (s, .conflict)
  | inFlight {s : σ} (h : R now s c) : Reserves live ttl R now c tag (s, .inFlight)
  | cached {s : σ} {a : ρ} {e : ℤ} (h : R now s c) (hc : c = .kept tag a e) :
      Reserves live ttl R now c tag (s, .cached a)
  | failed {s : σ} (h : R now s c) (hdead : ¬ live now (now + ttl)) :
      Reserves live ttl R now c tag (s, .failed)

namespace Reserves

variable {live : ℤ → ℤ → Prop} {ttl now : ℤ} {R : ℤ → σ → Cell τ ρ → Prop} {c : Cell τ ρ} {tag : τ}
  {x : σ × Answer ρ} (h : Reserves live ttl R now c tag x)
include h

lemma of_miss (hx : x.2 = .miss) : ¬ c.Live live now ∧ R now x.1 (.held tag (now + ttl)) := by
  cases h with
  | miss hfree h => exact ⟨hfree, h⟩
  | _ => cases hx

lemma of_other (hx : x.2 ≠ .miss) : R now x.1 c := by
  cases h with
  | miss => exact absurd rfl hx
  | _ h => exact h

lemma of_cached {a : ρ} (hx : x.2 = .cached a) : ∃ e, c = .kept tag a e := by
  cases h with
  | cached h hc => cases hx; exact ⟨_, hc⟩
  | _ => cases hx

lemma ne_failed (hlive : live now (now + ttl)) : x.2 ≠ .failed := by
  cases h with
  | failed h hdead => exact absurd hlive hdead
  | _ => nofun

end Reserves

lemma Implements.reserves {st : Store σ τ ρ} {live : ℤ → ℤ → Prop} {ttl now : ℤ}
    {R : ℤ → σ → Cell τ ρ → Prop} {s : σ} {c : Cell τ ρ} (himp : Implements st live ttl R)
    (h : R now s c) (tag : τ) : Reserves live ttl R now c tag (st.reserve now s tag) := by
  have hmiss : (st.reserve now s tag).2 = .miss → _ := himp.miss h
  have hother : (st.reserve now s tag).2 ≠ .miss → _ := himp.other h
  have hcached : ∀ a, (st.reserve now s tag).2 = .cached a → _ := fun _ => himp.cached h
  have hfailed : live now (now + ttl) → (st.reserve now s tag).2 ≠ .failed := himp.failed h
  generalize st.reserve now s tag = x at hmiss hother hcached hfailed ⊢
  obtain ⟨s', answer⟩ := x
  cases answer with
  | miss => exact .miss (hmiss rfl).1 (hmiss rfl).2
  | cached a =>
    obtain ⟨e, hc⟩ := hcached a rfl
    exact .cached (hother nofun) hc
  | inFlight => exact .inFlight (hother nofun)
  | conflict => exact .conflict (hother nofun)
  | failed => exact .failed (hother nofun) fun hlive => hfailed hlive rfl

/-- How far a handler is. -/
inductive Phase (τ : Type*)
  | fresh
  | leading (tag : τ) (since : ℤ)
  | done

/-- What happened. -/
inductive Event (τ ρ : Type*)
  | reserved (i : ℕ) (tag : τ) (answer : Answer ρ)
  | committed (i : ℕ) (answer : ρ)
  | rolledBack (i : ℕ) (released : Option ℕ)
  deriving DecidableEq

/-- The store, the handlers, who made the last reservation, and what happened so far. -/
structure Sys (σ τ ρ : Type*) where
  time : ℤ
  store : σ
  phase : ℕ → Phase τ
  maker : Option ℕ
  log : List (Event τ ρ)

inductive Act (τ ρ : Type*)
  | reserve (i : ℕ) (tag : τ)
  | commit (i : ℕ) (answer : ρ)
  | rollback (i : ℕ)

def start (time : ℤ) (store : σ) : Sys σ τ ρ := ⟨time, store, fun _ => .fresh, none, []⟩

variable (st : Store σ τ ρ)

/-- A fresh handler reserves, and leads if it is told `miss`. -/
def reserveStep (s : Sys σ τ ρ) (now : ℤ) (i : ℕ) (tag : τ) : Sys σ τ ρ :=
  let (store, answer) := st.reserve now s.store tag
  match answer with
  | .miss => ⟨now, store, Function.update s.phase i (.leading tag now), some i,
      s.log ++ [.reserved i tag .miss]⟩
  | answer => ⟨now, store, Function.update s.phase i .done, s.maker,
      s.log ++ [.reserved i tag answer]⟩

def commitStep (s : Sys σ τ ρ) (now : ℤ) (i : ℕ) (a : ρ) : Sys σ τ ρ :=
  ⟨now, st.commit now s.store a, Function.update s.phase i .done, s.maker,
    s.log ++ [.committed i a]⟩

def rollbackStep (s : Sys σ τ ρ) (now : ℤ) (i : ℕ) : Sys σ τ ρ :=
  let store := st.rollback now s.store
  let released := if st.reserved now s.store && !st.reserved now store then s.maker else none
  ⟨now, store, Function.update s.phase i .done, s.maker, s.log ++ [.rolledBack i released]⟩

/-- One call. -/
def step (s : Sys σ τ ρ) : ℤ × Act τ ρ → Option (Sys σ τ ρ)
  | (now, act) =>
    if now < s.time then none
    else match act with
      | .reserve i tag =>
        match s.phase i with
        | .fresh => some (reserveStep st s now i tag)
        | _ => none
      | .commit i a =>
        match s.phase i with
        | .leading _ _ => some (commitStep st s now i a)
        | _ => none
      | .rollback i =>
        match s.phase i with
        | .leading _ _ => some (rollbackStep st s now i)
        | _ => none

def Phase.InTime (live : ℤ → ℤ → Prop) (ttl now : ℤ) : Phase τ → Prop
  | .leading _ since => live now (since + ttl)
  | _ => True

instance (live : ℤ → ℤ → Prop) [DecidableRel live] (ttl now : ℤ) :
    ∀ p : Phase τ, Decidable (p.InTime live ttl now)
  | .leading _ since => inferInstanceAs (Decidable (live now (since + ttl)))
  | .fresh | .done => .isTrue trivial

/-- A completion comes while the leader's own reservation is alive. -/
def Timely (live : ℤ → ℤ → Prop) (ttl : ℤ) (s : Sys σ τ ρ) : ℤ × Act τ ρ → Prop
  | (_, .reserve _ _) => True
  | (now, .commit i _) => (s.phase i).InTime live ttl now
  | (now, .rollback i) => (s.phase i).InTime live ttl now

instance (live : ℤ → ℤ → Prop) [DecidableRel live] (ttl : ℤ) (s : Sys σ τ ρ) :
    ∀ act, Decidable (Timely live ttl s act)
  | (_, .reserve _ _) => .isTrue trivial
  | (now, .commit i _) => inferInstanceAs (Decidable ((s.phase i).InTime live ttl now))
  | (now, .rollback i) => inferInstanceAs (Decidable ((s.phase i).InTime live ttl now))

variable {st}

/-- **Ownership.** An answer that is handed out was committed before, by a leader that had reserved
under the same tag, and a rollback releases only the handler's own reservation. -/
structure Owned (log : List (Event τ ρ)) : Prop where
  cached : ∀ before after i tag a, log = before ++ .reserved i tag (.cached a) :: after →
    ∃ j, .reserved j tag .miss ∈ before ∧ .committed j a ∈ before
  released : ∀ i j, .rolledBack i (some j) ∈ log → j = i

lemma owned_nil : Owned ([] : List (Event τ ρ)) :=
  ⟨fun _ _ _ _ _ h => by simp at h, fun _ _ h => by simp at h⟩

lemma Owned.snoc {log : List (Event τ ρ)} {ev : Event τ ρ} (h : Owned log)
    (hcached : ∀ i tag a, ev = .reserved i tag (.cached a) →
      ∃ j, .reserved j tag .miss ∈ log ∧ .committed j a ∈ log)
    (hreleased : ∀ i j, ev = .rolledBack i (some j) → j = i) : Owned (log ++ [ev]) where
  cached := by
    intro before after i tag a heq
    rcases eq_nil_or_concat after with rfl | ⟨after, ev', rfl⟩
    · obtain ⟨rfl, hev⟩ := append_inj' heq rfl
      exact hcached i tag a (singleton_inj.mp hev)
    · rw [concat_eq_append, ← cons_append, ← append_assoc] at heq
      exact h.cached before after i tag a (append_inj' heq rfl).1
  released := by
    intro i j hmem
    rcases mem_append.mp hmem with hmem | hmem
    · exact h.released i j hmem
    · exact hreleased i j (mem_singleton.mp hmem).symm

/-- The store follows `c`; a leader whose reservation is alive made the one in the store; an answer
in the store was committed under the tag it is kept with. -/
structure Inv (live : ℤ → ℤ → Prop) (ttl : ℤ) (R : ℤ → σ → Cell τ ρ → Prop) (c : Cell τ ρ)
    (s : Sys σ τ ρ) : Prop where
  follows : R s.time s.store c
  reserved : ∀ i tag since, s.phase i = .leading tag since → .reserved i tag .miss ∈ s.log
  leader : ∀ i tag since, s.phase i = .leading tag since → live s.time (since + ttl) →
    s.maker = some i ∧ c = .held tag (since + ttl)
  kept : ∀ tag a e, c = .kept tag a e → ∃ j, .reserved j tag .miss ∈ s.log ∧ .committed j a ∈ s.log
  owned : Owned s.log

variable {live : ℤ → ℤ → Prop} {ttl : ℤ} {R : ℤ → σ → Cell τ ρ → Prop} {c : Cell τ ρ}
  {s : Sys σ τ ρ} {now : ℤ}

lemma inv_start {time : ℤ} {store : σ} (h : R time store .free) :
    Inv live ttl R .free (start time store : Sys σ τ ρ) where
  follows := h
  reserved := fun _ _ _ hp => by simp [start] at hp
  leader := fun _ _ _ hp => by simp [start] at hp
  kept := fun _ _ _ hc => by cases hc
  owned := owned_nil

variable {since : ℤ} {tag : τ}

lemma leading_of_update {i j : ℕ} {p : Phase τ} (hji : j ≠ i)
    (h : update s.phase i p j = .leading tag since) : s.phase j = .leading tag since := by
  rwa [update_of_ne hji] at h

variable {i : ℕ}

lemma leading_self {tag tag' : τ}
    (h : update s.phase i (.leading tag now) i = .leading tag' since) :
    tag = tag' ∧ now = since := by
  rw [update_self] at h
  exact Phase.leading.inj h

lemma leading_of_done {i j : ℕ} (h : update s.phase i .done j = .leading tag since) :
    j ≠ i ∧ s.phase j = .leading tag since := by
  have hji : j ≠ i := by
    rintro rfl
    rw [update_self] at h
    cases h
  exact ⟨hji, leading_of_update hji h⟩

lemma Inv.reserved_of_done (h : Inv live ttl R c s) (ev : Event τ ρ) (i : ℕ) :
    ∀ j tag since, update s.phase i .done j = .leading tag since →
      .reserved j tag .miss ∈ s.log ++ [ev] := by
  intro j tag since hp
  exact mem_append_left _ (h.reserved j tag since (leading_of_done hp).2)

variable (himp : Implements st live ttl R)
include himp

omit himp in
lemma Inv.turnAway (h : Inv live ttl R c s) {store : σ} {answer : Answer ρ} (hR : R now store c)
    (hmono : ∀ {e : ℤ}, live now e → live s.time e)
    (hcached : ∀ a, answer = .cached a → ∃ e, c = .kept tag a e) :
    Inv live ttl R c ⟨now, store, update s.phase i .done, s.maker,
      s.log ++ [.reserved i tag answer]⟩ := by
  refine ⟨hR, h.reserved_of_done _ i, ?_, ?_, ?_⟩
  · intro j tag' since hp hlive
    exact h.leader j tag' since (leading_of_done hp).2 (hmono hlive)
  · intro tag' a e hc
    obtain ⟨j, hmiss, hcom⟩ := h.kept tag' a e hc
    exact ⟨j, mem_append_left _ hmiss, mem_append_left _ hcom⟩
  · refine h.owned.snoc ?_ (fun _ _ hev => by simp at hev)
    intro i' tag' a hev
    simp only [Event.reserved.injEq] at hev
    obtain ⟨-, rfl, hans⟩ := hev
    obtain ⟨e, hc⟩ := hcached a hans
    exact h.kept tag a e hc

lemma Inv.reserve (h : Inv live ttl R c s) (htime : s.time ≤ now) (i : ℕ) (tag : τ) :
    ∃ c', Inv live ttl R c' (reserveStep st s now i tag) := by
  have hres := himp.reserves (himp.mono htime h.follows) tag
  unfold reserveStep
  generalize st.reserve now s.store tag = x at hres ⊢
  cases hres with
  | miss hfree hnew =>
    -- nobody else's reservation is alive, so the new leader is the only one
    refine ⟨.held tag (now + ttl), hnew, ?_, ?_, (fun _ _ _ hc => nomatch hc), ?_⟩
    · intro j tag' since hp
      by_cases hji : j = i
      · subst hji
        obtain ⟨rfl, rfl⟩ := leading_self hp
        simp
      · exact mem_append_left _ (h.reserved j tag' since (leading_of_update hji hp))
    · intro j tag' since hp hlive
      by_cases hji : j = i
      · subst hji
        obtain ⟨rfl, rfl⟩ := leading_self hp
        exact ⟨rfl, rfl⟩
      · have hlive' : live s.time (since + ttl) := himp.live_mono htime hlive
        obtain ⟨-, rfl⟩ := h.leader j tag' since (leading_of_update hji hp) hlive'
        exact absurd hlive hfree
    · exact h.owned.snoc (fun _ _ _ hev => by simp at hev) (fun _ _ hev => by simp at hev)
  | cached hR hc =>
    exact ⟨c, h.turnAway hR (himp.live_mono htime) fun a ha => by cases ha; exact ⟨_, hc⟩⟩
  | conflict hR | inFlight hR | failed hR =>
    exact ⟨c, h.turnAway hR (himp.live_mono htime) nofun⟩

lemma Inv.own (h : Inv live ttl R c s) (htime : s.time ≤ now)
    (hp : s.phase i = .leading tag since) (hlive : live now (since + ttl)) :
    s.maker = some i ∧ R now s.store (.held tag (since + ttl)) ∧
      ∀ j tag' since', j ≠ i → s.phase j = .leading tag' since' → ¬ live now (since' + ttl) := by
  obtain ⟨hmaker, rfl⟩ := h.leader i tag since hp (himp.live_mono htime hlive)
  refine ⟨hmaker, himp.mono htime h.follows, ?_⟩
  intro j tag' since' hji hp' hlive'
  obtain ⟨hmaker', -⟩ := h.leader j tag' since' hp' (himp.live_mono htime hlive')
  rw [hmaker] at hmaker'
  exact hji (Option.some.inj hmaker').symm

lemma Inv.commit (h : Inv live ttl R c s) (htime : s.time ≤ now)
    (hp : s.phase i = .leading tag since) (hlive : live now (since + ttl)) (a : ρ) :
    ∃ c', Inv live ttl R c' (commitStep st s now i a) := by
  obtain ⟨-, hheld, halone⟩ := h.own himp htime hp hlive
  refine ⟨.kept tag a (now + ttl), himp.commit a hheld hlive, h.reserved_of_done _ i, ?_, ?_, ?_⟩
  · intro j tag' since' hp' hlive'
    obtain ⟨hji, hp'⟩ := leading_of_done hp'
    exact absurd hlive' (halone j tag' since' hji hp')
  · intro tag' a' e hc
    cases hc
    exact ⟨i, mem_append_left _ (h.reserved i tag since hp), by simp [commitStep]⟩
  · exact h.owned.snoc (fun _ _ _ hev => by simp at hev) (fun _ _ hev => by simp at hev)

lemma Inv.rollback (h : Inv live ttl R c s) (htime : s.time ≤ now)
    (hp : s.phase i = .leading tag since) (hlive : live now (since + ttl)) :
    ∃ c', Inv live ttl R c' (rollbackStep st s now i) := by
  obtain ⟨hmaker, hheld, halone⟩ := h.own himp htime hp hlive
  refine ⟨.free, himp.rollback hheld hlive, h.reserved_of_done _ i, ?_,
    (fun _ _ _ hc => nomatch hc), ?_⟩
  · intro j tag' since' hp' hlive'
    obtain ⟨hji, hp'⟩ := leading_of_done hp'
    exact absurd hlive' (halone j tag' since' hji hp')
  · refine h.owned.snoc (fun _ _ _ hev => by simp at hev) ?_
    intro i' j hev
    -- whatever is released is the last reservation made, and that one is the leader's own
    simp only [Event.rolledBack.injEq, hmaker] at hev
    obtain ⟨rfl, hrel⟩ := hev
    split_ifs at hrel
    exact (Option.some.inj hrel).symm

lemma Inv.step {s' : Sys σ τ ρ} {act : ℤ × Act τ ρ} (h : ∃ c, Inv live ttl R c s)
    (hgood : Timely live ttl s act) (hstep : Lease.step st s act = some s') :
    ∃ c', Inv live ttl R c' s' := by
  obtain ⟨c, h⟩ := h
  revert hgood hstep
  fun_cases Lease.step st s act <;> rintro hgood ⟨⟩
  case case2 now htime i tag hp => exact h.reserve himp (not_lt.mp htime) i tag
  case case4 now htime i a tag since hp =>
    exact h.commit himp (not_lt.mp htime) hp
      (by simpa only [Timely, Phase.InTime, hp] using hgood) a
  case case6 now htime i tag since hp =>
    exact h.rollback himp (not_lt.mp htime) hp
      (by simpa only [Timely, Phase.InTime, hp] using hgood)

lemma owned {time : ℤ} {store : σ} (h : R time store .free) {acts : List (ℤ × Act τ ρ)}
    {s' : Sys σ τ ρ}
    (hgood : Transition.Along (step st) (Timely live ttl) (start time store) acts)
    (hrun : Transition.run (step st) (start time store) acts = some s') : Owned s'.log := by
  obtain ⟨c, hinv⟩ := Transition.invariant (step st) (P := fun s => ∃ c, Inv live ttl R c s)
    (fun s act s' hs hg hst => Inv.step himp hs hg hst) ⟨.free, inv_start h⟩ hgood hrun
  exact hinv.owned

end Wtg.Lib.Lease
