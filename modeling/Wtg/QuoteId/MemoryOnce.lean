import Wtg.Lib.Transition
import Wtg.QuoteId.Memory

/-! # A quote in memory is used only once

`effect_step` says what one call of the in-memory registry can do to the two maps: store a record,
set a marker (the only call that answers `ConsumeOK`), or `Shrink` them: whatever record is still
there afterwards was there before, with the same marker. -/

namespace Wtg.QuoteId.MemoryOnce

open Lib Lib.Runs QuoteId.Registry QuoteId.Memory List AList MemoryRegistry

variable {now : ℤ} {m m' : MemoryRegistry}

def Shrinks (m m' : MemoryRegistry) : Prop :=
  ∀ id rec, m'.records.lookup id = some rec →
    m.records.lookup id = some rec ∧ m'.consumed.lookup id = m.consumed.lookup id

lemma Shrinks.refl (m : MemoryRegistry) : Shrinks m m := fun _ _ h => ⟨h, rfl⟩

lemma lookup_erase_some {ν : Type} {k k' : String} {s : GoMap String ν} {v : ν}
    (h : (s.erase k').lookup k = some v) : k ≠ k' ∧ s.lookup k = some v := by
  by_cases hk : k = k'
  · subst hk; rw [lookup_erase] at h; cases h
  · exact ⟨hk, by rwa [lookup_erase_ne hk] at h⟩

variable (id : QuoteID)

lemma shrinks_eraseRecord : Shrinks m { m with records := m.records.erase id } := by
  intro k rec h
  exact ⟨(lookup_erase_some h).2, rfl⟩

lemma shrinks_eraseBoth :
    Shrinks m { m with records := m.records.erase id, consumed := m.consumed.erase id } := by
  intro k rec h
  obtain ⟨hne, h⟩ := lookup_erase_some h
  exact ⟨h, lookup_erase_ne hne⟩

lemma shrinks_get : Shrinks m (m.get now id).1 := by
  unfold MemoryRegistry.get
  split
  · exact Shrinks.refl m
  · split
    · exact shrinks_eraseRecord id
    · exact Shrinks.refl m

lemma shrinks_delete : Shrinks m (m.delete id) := by
  unfold delete
  split
  · exact Shrinks.refl m
  · exact shrinks_eraseBoth id

lemma shrinks_sweep : Shrinks m (m.sweep now).1 := by
  intro k rec h
  simp only [sweep, GoMap.lookup_eraseWhere_entries] at h ⊢
  split_ifs at h with hx
  rw [if_neg hx]
  exact ⟨h, rfl⟩

lemma shrinks_swaps {s : GoMap String SwapRecord} : Shrinks m { m with swaps := s } :=
  fun _ _ h => ⟨h, rfl⟩

lemma shrinks_putSwap (rec : SwapRecord) : Shrinks m (m.putSwap rec).1 := by
  unfold putSwap
  split_ifs
  · exact Shrinks.refl m
  · exact Shrinks.refl m
  · exact shrinks_swaps

lemma shrinks_getSwap (id : String) : Shrinks m (m.getSwap now id).1 := by
  unfold getSwap
  split
  · exact Shrinks.refl m
  · split
    · exact shrinks_swaps
    · exact Shrinks.refl m

lemma shrinks_deleteSwap (id : String) : Shrinks m (m.deleteSwap id) := by
  unfold deleteSwap
  split
  · exact Shrinks.refl m
  · exact shrinks_swaps

/-- What a call at `now` stores, does to the registry and answers. -/
inductive Effect (now : ℤ) (m : MemoryRegistry) :
    List Record → MemoryRegistry → List ConsumeEvent → Prop
  | store (rec : Record) :
      Effect now m [rec] { m with records := m.records.insert rec.quoteID rec } []
  | consume {req : ConsumeRequest} {rec : Record} (hr : m.records.lookup req.quoteID = some rec)
      (hv : rec.validAt now = true) (hc : m.consumed.lookup req.quoteID = none) :
      Effect now m [] { m with consumed := m.consumed.insert req.quoteID req.consumerID }
        [⟨now, req, { status := .ok, record := rec }⟩]
  | shrink {m' : MemoryRegistry} (hs : Shrinks m m') : Effect now m [] m' []
  | refuse {m' : MemoryRegistry} {req : ConsumeRequest} {r : ConsumeResult} (hs : Shrinks m m')
      (hok : r.status ≠ .ok) (hdone : r.status = .alreadyDone → ∃ rec,
        m.records.lookup req.quoteID = some rec ∧
          m.consumed.lookup req.quoteID = some r.consumedBy) :
      Effect now m [] m' [⟨now, req, r⟩]

lemma effect_markConsumed (now : ℤ) (m : MemoryRegistry) (req : ConsumeRequest) :
    Effect now m [] (m.markConsumed now req).1 [⟨now, req, (m.markConsumed now req).2⟩] := by
  have ho := m.markConsumed_outcome now req
  generalize m.markConsumed now req = x at ho ⊢
  cases ho with
  | absent hr => exact .refuse (.refl m) nofun nofun
  | evicted hr he => exact .refuse (shrinks_eraseBoth _) nofun nofun
  | invalid hr he hv => exact .refuse (.refl m) nofun nofun
  | taken hr hc => exact .refuse (.refl m) nofun fun _ => ⟨_, hr.1, hc⟩
  | free hr hc => exact .consume hr.1 hr.2.2 hc

lemma effect_step {call : ℤ × Op} (hs : Single call) (m : MemoryRegistry) :
    Effect call.1 m (stored call) (step m call).1 (events (call, (step m call).2)) := by
  obtain ⟨now, op⟩ := call
  cases op with
  | put rec =>
    simp only [stored, step, put_eq, events]
    split_ifs
    · exact .store rec
    · exact .shrink (.refl m)
  | markConsumed req => exact effect_markConsumed now m req
  | putMany recs => exact hs.elim
  | markConsumedMany reqs => exact hs.elim
  | get id => exact .shrink (shrinks_get id)
  | lookup id => exact .shrink (.refl m)
  | lookupMany ids => exact .shrink (.refl m)
  | consumed id => exact .shrink (.refl m)
  | sweep => exact .shrink shrinks_sweep
  | delete id => exact .shrink (shrinks_delete id)
  | putSwap rec => exact .shrink (shrinks_putSwap rec)
  | getSwap id => exact .shrink (shrinks_getSwap id)
  | deleteSwap id => exact .shrink (shrinks_deleteSwap id)

/-- Two answers for one id, the first a `ConsumeOK`: the second is not, and names the consumer of
the first if it is `ConsumeAlreadyDone`. -/
def Follows (e e' : ConsumeEvent) : Prop :=
  e'.request.quoteID = e.request.quoteID → e.result.status = .ok →
    e'.result.status ≠ .ok ∧
      (e'.result.status = .alreadyDone → e'.result.consumedBy = e.request.consumerID)

/-- The id of the event has no record any more, or carries the event's marker. -/
def Taken (m : MemoryRegistry) (e : ConsumeEvent) : Prop :=
  m.records.lookup e.request.quoteID = none ∨
    m.consumed.lookup e.request.quoteID = some e.request.consumerID

/-- A `ConsumeOK` was given inside the validity of a stored record of its id. -/
def InTime (recs : List Record) (e : ConsumeEvent) : Prop :=
  e.result.status = .ok → ∃ rec ∈ recs, rec.quoteID = e.request.quoteID ∧
    e.result.record = rec ∧ rec.issuedAt ≤ e.time ∧ e.time < rec.validUntil

structure Ledger (recs : List Record) (h : List ConsumeEvent) (m : MemoryRegistry) : Prop where
  keyed : ∀ id rec, m.records.lookup id = some rec → rec ∈ recs ∧ rec.quoteID = id
  taken : ∀ e ∈ h, e.result.status = .ok →
    Taken m e ∧ ∃ rec ∈ recs, rec.quoteID = e.request.quoteID
  pair : h.Pairwise Follows
  inTime : ∀ e ∈ h, InTime recs e

lemma Ledger.init (grace : ℤ) : Ledger [] [] (newMemoryRegistry grace) where
  keyed := by simp [newMemoryRegistry]
  taken := by simp
  pair := .nil
  inTime := by simp

lemma Taken.shrinks {e : ConsumeEvent} (h : Taken m e) (hs : Shrinks m m') : Taken m' e := by
  rcases hr : m'.records.lookup e.request.quoteID with _ | rec
  · exact .inl hr
  · obtain ⟨h1, h2⟩ := hs _ _ hr
    rcases h with h | h
    · rw [h1] at h; cases h
    · exact .inr (by rw [h2, h])

variable {h : List ConsumeEvent} {recs : List Record}

section

variable (L : Ledger recs h m)
include L

lemma Ledger.store {rec : Record} (hnew : ∀ r ∈ recs, r.quoteID ≠ rec.quoteID) :
    Ledger (recs ++ [rec]) h { m with records := m.records.insert rec.quoteID rec } where
  keyed id r hr := by
    by_cases hid : id = rec.quoteID
    · subst hid
      rw [lookup_insert] at hr
      cases hr
      exact ⟨by simp, rfl⟩
    · rw [lookup_insert_ne hid] at hr
      obtain ⟨h1, h2⟩ := L.keyed id r hr
      exact ⟨by simp [h1], h2⟩
  taken e he hok := by
    obtain ⟨ht, r, hr, hid⟩ := L.taken e he hok
    have hne : e.request.quoteID ≠ rec.quoteID := by rw [← hid]; exact hnew r hr
    refine ⟨?_, r, by simp [hr], hid⟩
    unfold Taken
    rwa [lookup_insert_ne hne]
  pair := L.pair
  inTime e he hok := by
    obtain ⟨r, hr, h⟩ := L.inTime e he hok
    exact ⟨r, by simp [hr], h⟩

lemma Ledger.consume {req : ConsumeRequest} {rec : Record}
    (hr : m.records.lookup req.quoteID = some rec) (hv : rec.validAt now = true)
    (hc : m.consumed.lookup req.quoteID = none) :
    Ledger recs (h ++ [⟨now, req, { status := .ok, record := rec }⟩])
      { m with consumed := m.consumed.insert req.quoteID req.consumerID } := by
  obtain ⟨hmem, hid⟩ := L.keyed _ _ hr
  -- an earlier `ConsumeOK` for this id would have left its marker, as the record is still there
  have hfresh : ∀ e ∈ h, e.result.status = .ok → e.request.quoteID ≠ req.quoteID := by
    intro e he hok heq
    rcases (L.taken e he hok).1 with ht | ht
    · rw [heq, hr] at ht; cases ht
    · rw [heq, hc] at ht; cases ht
  refine ⟨L.keyed, forall_concat (fun e he hok => ?_) fun _ => ?_, pairwise_concat L.pair ?_,
    forall_concat L.inTime fun _ => ?_⟩
  · obtain ⟨ht, hex⟩ := L.taken e he hok
    refine ⟨?_, hex⟩
    unfold Taken
    rwa [lookup_insert_ne (hfresh e he hok)]
  · exact ⟨.inr (lookup_insert _), rec, hmem, hid⟩
  · exact fun e he heq hok => absurd heq.symm (hfresh e he hok)
  · obtain ⟨h1, h2⟩ := Record.validAt_iff.mp hv
    exact ⟨rec, hmem, hid, rfl, h1, h2⟩

lemma Ledger.shrink (hs : Shrinks m m') :
    Ledger recs h m' where
  keyed id rec hr := L.keyed id rec (hs id rec hr).1
  taken e he hok := ⟨(L.taken e he hok).1.shrinks hs, (L.taken e he hok).2⟩
  pair := L.pair
  inTime := L.inTime

lemma Ledger.refuse {req : ConsumeRequest}
    {r : ConsumeResult} (hok : r.status ≠ .ok)
    (hdone : r.status = .alreadyDone → ∃ rec, m.records.lookup req.quoteID = some rec ∧
      m.consumed.lookup req.quoteID = some r.consumedBy) :
    Ledger recs (h ++ [⟨now, req, r⟩]) m where
  keyed := L.keyed
  taken := forall_concat L.taken fun hst => absurd hst hok
  pair := by
    refine pairwise_concat L.pair fun e he heq hst => ⟨hok, fun hd => ?_⟩
    obtain ⟨rec, h1, h2⟩ := hdone hd
    rcases (L.taken e he hst).1 with ht | ht
    · rw [← heq, h1] at ht; cases ht
    · rw [← heq, h2] at ht; exact Option.some.inj ht
  inTime := forall_concat L.inTime fun hst => absurd hst hok

lemma Ledger.step {call : ℤ × Op} (hsingle : Single call)
    (hnew : ((recs ++ stored call).map Record.quoteID).Nodup) :
    Ledger (recs ++ stored call) (h ++ events (call, (step m call).2)) (step m call).1 := by
  have heff := effect_step hsingle m
  generalize stored call = new at hnew heff ⊢
  generalize (Memory.step m call).1 = m', events (call, (Memory.step m call).2) = es at heff ⊢
  cases heff with
  | store rec =>
    rw [append_nil]
    refine L.store fun r hr heq => ?_
    rw [map_append, nodup_append] at hnew
    exact hnew.2.2 _ (mem_map_of_mem hr) _ (by simp) heq
  | consume hr hv hc =>
    rw [append_nil]
    exact L.consume hr hv hc
  | shrink hs =>
    rw [append_nil, append_nil]
    exact L.shrink hs
  | refuse hs hok hdone =>
    rw [append_nil]
    exact (L.refuse hok hdone).shrink hs

end

lemma ledger_run (grace : ℤ) (ops : List (ℤ × Op)) (hs : ∀ i ∈ ops, Single i)
    (hput : ((ops.flatMap stored).map Record.quoteID).Nodup) :
    Ledger (ops.flatMap stored) (history grace ops)
      (final Memory.step (newMemoryRegistry grace) ops) := by
  have key := run_history
    (fun (h : List ((ℤ × Op) × Reply)) m =>
      Ledger ((h.map Prod.fst).flatMap stored) (h.flatMap events) m)
    (fun p => (∀ i ∈ p, Single i) ∧ ((p.flatMap stored).map Record.quoteID).Nodup)
    (Ledger.init grace)
    (fun h m i L hg => by
      have hi : Single i := hg.1 i (by simp)
      have hL := L.step hi (by simpa using hg.2)
      simpa using hL)
    ops (fun p hp => by
      obtain ⟨q, rfl⟩ := hp
      rw [flatMap_append, map_append] at hput
      exact ⟨fun i hi => hs i (mem_append_left q hi), (nodup_append.mp hput).1⟩)
  rwa [map_fst_log] at key

/-- **Use only once, in memory**: an id that is not stored twice gets `ConsumeOK` once, inside the
validity, and `ConsumeAlreadyDone` reports who got it. -/
theorem memory_used_once (grace : ℤ) (ops : List (ℤ × Op))
    (hput : ((ops.flatMap stored).map Record.quoteID).Nodup) :
    (∀ id, UsedOnce id (history grace ops)) ∧
    (∀ e ∈ history grace ops, InTime (ops.flatMap stored) e) ∧
    (history grace ops).Pairwise Follows := by
  have L := ledger_run grace (ops.flatMap items)
    (fun i hi => by
      obtain ⟨call, -, hi⟩ := mem_flatMap.mp hi
      exact single_items call i hi)
    (by rwa [stored_flatMap_items])
  rw [stored_flatMap_items, history_items] at L
  refine ⟨fun id => ?_, L.inTime, L.pair⟩
  refine L.pair.imp fun {e e'} hf ⟨h1, h2⟩ => ?_
  exact (hf (h2.1.trans h1.1.symm) h1.2).1 h2.2

theorem memory_used_once_two_consumers :
    let ops : List (ℤ × Op) := [(0, .put sampleQuote), (1, .markConsumed ⟨"q1", "c1"⟩),
      (2, .markConsumed ⟨"q1", "c2"⟩)]
    (history 5 ops).map (fun e => e.result.status) = [.ok, .alreadyDone] ∧
      (∀ id, UsedOnce id (history 5 ops)) ∧
      (∀ e ∈ history 5 ops, InTime (ops.flatMap stored) e) ∧ (history 5 ops).Pairwise Follows :=
  ⟨by decide, memory_used_once 5 _ (by decide)⟩

end Wtg.QuoteId.MemoryOnce
