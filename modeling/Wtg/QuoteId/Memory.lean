import Wtg.Lib.GoMap
import Wtg.Lib.Runs
import Wtg.QuoteId.Registry

/-! # The in-memory registry

`MemoryRegistry` of `pkg/quoteid/memory.go`. -/

namespace Wtg.QuoteId.Memory

open Lib Lib.Runs QuoteId.Registry

structure MemoryRegistry where
  records : GoMap QuoteID Record
  consumed : GoMap QuoteID String
  swaps : GoMap String SwapRecord
  grace : ℤ

def newMemoryRegistry (grace : ℤ) : MemoryRegistry := ⟨∅, ∅, ∅, grace⟩

namespace MemoryRegistry

variable (m : MemoryRegistry) (now : ℤ)

def expired (validUntil : ℤ) : Bool := decide (validUntil + m.grace < now)

def put (rec : Record) : MemoryRegistry × Except Err Unit :=
  if rec.validUntil ≤ rec.issuedAt then (m, .error .invalidRecord)
  else if rec.quoteID = "" then (m, .error .invalidRecord)
  else ({ m with records := m.records.insert rec.quoteID rec }, .ok ())

def putMany : MemoryRegistry → List Record → MemoryRegistry
  | m, [] => m
  | m, rec :: recs =>
    if rec.validUntil ≤ rec.issuedAt ∨ rec.quoteID = "" then putMany m recs
    else putMany { m with records := m.records.insert rec.quoteID rec } recs

/-- `Get`: a record past its grace is evicted, its marker is not. -/
def get (id : QuoteID) : MemoryRegistry × Except Err Record :=
  match m.records.lookup id with
  | none => (m, .error .notFound)
  | some rec =>
    if m.expired now rec.validUntil then
      ({ m with records := m.records.erase id }, .error .notFound)
    else (m, .ok rec)

def markConsumed (req : ConsumeRequest) : MemoryRegistry × ConsumeResult :=
  match m.records.lookup req.quoteID with
  | none => (m, { status := .notFound })
  | some rec =>
    if m.expired now rec.validUntil then
      ({ m with records := m.records.erase req.quoteID, consumed := m.consumed.erase req.quoteID },
        { status := .notFound })
    else if !rec.validAt now then (m, { status := .expired, record := rec })
    else
      match m.consumed.lookup req.quoteID with
      | some prev => (m, { status := .alreadyDone, record := rec, consumedBy := prev })
      | none =>
        ({ m with consumed := m.consumed.insert req.quoteID req.consumerID },
          { status := .ok, record := rec })

def markConsumedMany (now : ℤ) :
    MemoryRegistry → List ConsumeRequest → MemoryRegistry × List ConsumeResult
  | m, [] => (m, [])
  | m, req :: reqs =>
    let (m₁, r) := m.markConsumed now req
    let (m₂, rs) := markConsumedMany now m₁ reqs
    (m₂, r :: rs)

/-- `lookupLocked`, the body of `Lookup`: a record past its grace is not found but not evicted
either. -/
def lookup (id : QuoteID) : LookupResult :=
  let c := m.consumed.lookup id
  match m.records.lookup id with
  | none => { found := false, consumed := c.isSome, consumedBy := c.getD "" }
  | some rec =>
    if m.expired now rec.validUntil then
      { found := false, consumed := c.isSome, consumedBy := c.getD "" }
    else { found := true, record := rec, consumed := c.isSome, consumedBy := c.getD "" }

def lookupMany (ids : List QuoteID) : List LookupResult := ids.map (m.lookup now)

def consumedBy (id : QuoteID) : String × Bool :=
  ((m.consumed.lookup id).getD "", (m.consumed.lookup id).isSome)

/-- `Sweep`: evicts every record past its grace with its marker, and every swap past its own; the
answer is the number of records evicted. -/
def sweep : MemoryRegistry × ℕ :=
  ({ m with
      records :=
        GoMap.eraseWhere (fun _ rec => m.expired now rec.validUntil) m.records.entries m.records
      consumed :=
        GoMap.eraseWhere (fun _ rec => m.expired now rec.validUntil) m.records.entries m.consumed
      swaps := GoMap.eraseWhere (fun _ sw => m.expired now sw.validUntil) m.swaps.entries m.swaps },
    (m.records.entries.filter fun e => m.expired now e.2.validUntil).length)

def delete (id : QuoteID) : MemoryRegistry :=
  if id = "" then m
  else { m with records := m.records.erase id, consumed := m.consumed.erase id }

def putSwap (rec : SwapRecord) : MemoryRegistry × Except Err Unit :=
  if rec.validUntil ≤ rec.issuedAt then (m, .error .invalidRecord)
  else if rec.swapID = "" ∨ rec.nearID = "" ∨ rec.farID = "" then (m, .error .invalidRecord)
  else ({ m with swaps := m.swaps.insert rec.swapID rec }, .ok ())

def getSwap (swapID : String) : MemoryRegistry × Except Err SwapRecord :=
  match m.swaps.lookup swapID with
  | none => (m, .error .swapNotFound)
  | some rec =>
    if m.expired now rec.validUntil then
      ({ m with swaps := m.swaps.erase swapID }, .error .swapNotFound)
    else (m, .ok rec)

def deleteSwap (swapID : String) : MemoryRegistry :=
  if swapID = "" then m else { m with swaps := m.swaps.erase swapID }

/-- The record of `id` that a consumption at `now` may take: stored, within its grace and valid. -/
def Valid (id : QuoteID) (rec : Record) : Prop :=
  m.records.lookup id = some rec ∧ m.expired now rec.validUntil = false ∧ rec.validAt now = true

inductive Outcome (req : ConsumeRequest) : MemoryRegistry × ConsumeResult → Prop
  | absent (hr : m.records.lookup req.quoteID = none) : Outcome req (m, { status := .notFound })
  | evicted {rec : Record} (hr : m.records.lookup req.quoteID = some rec)
      (he : m.expired now rec.validUntil = true) :
      Outcome req ({ m with records := m.records.erase req.quoteID
                            consumed := m.consumed.erase req.quoteID }, { status := .notFound })
  | invalid {rec : Record} (hr : m.records.lookup req.quoteID = some rec)
      (he : m.expired now rec.validUntil = false) (hv : rec.validAt now = false) :
      Outcome req (m, { status := .expired, record := rec })
  | taken {rec : Record} {prev : String} (hr : m.Valid now req.quoteID rec)
      (hc : m.consumed.lookup req.quoteID = some prev) :
      Outcome req (m, { status := .alreadyDone, record := rec, consumedBy := prev })
  | free {rec : Record} (hr : m.Valid now req.quoteID rec)
      (hc : m.consumed.lookup req.quoteID = none) :
      Outcome req ({ m with consumed := m.consumed.insert req.quoteID req.consumerID },
        { status := .ok, record := rec })

variable {m now} in
lemma Outcome.elsewhere {req : ConsumeRequest} {x : MemoryRegistry × ConsumeResult}
    (h : m.Outcome now req x) : x.1.grace = m.grace ∧ ∀ id, id ≠ req.quoteID →
      x.1.records.lookup id = m.records.lookup id ∧
        x.1.consumed.lookup id = m.consumed.lookup id := by
  cases h with
  | evicted =>
    exact ⟨rfl, fun id hid => ⟨AList.lookup_erase_ne hid, AList.lookup_erase_ne hid⟩⟩
  | free => exact ⟨rfl, fun id hid => ⟨rfl, AList.lookup_insert_ne hid⟩⟩
  | _ => exact ⟨rfl, fun _ _ => ⟨rfl, rfl⟩⟩

lemma markConsumed_outcome (req : ConsumeRequest) :
    m.Outcome now req (m.markConsumed now req) := by
  unfold markConsumed
  rcases hr : m.records.lookup req.quoteID with _ | rec
  · exact .absent hr
  simp only
  rcases he : m.expired now rec.validUntil with _ | _
  swap
  · exact .evicted hr he
  rcases hv : rec.validAt now with _ | _
  · exact .invalid hr he hv
  rcases hc : m.consumed.lookup req.quoteID with _ | prev
  · exact .free ⟨hr, he, hv⟩ hc
  · exact .taken ⟨hr, he, hv⟩ hc

end MemoryRegistry

open MemoryRegistry

inductive Op
  | put (rec : Record)
  | putMany (recs : List Record)
  | get (id : QuoteID)
  | lookup (id : QuoteID)
  | lookupMany (ids : List QuoteID)
  | markConsumed (req : ConsumeRequest)
  | markConsumedMany (reqs : List ConsumeRequest)
  | consumed (id : QuoteID)
  | sweep
  | delete (id : QuoteID)
  | putSwap (rec : SwapRecord)
  | getSwap (swapID : String)
  | deleteSwap (swapID : String)

inductive Reply
  | done (r : Except Err Unit)
  | record (r : Except Err Record)
  | lookups (rs : List LookupResult)
  | results (rs : List ConsumeResult)
  | consumed (c : String × Bool)
  | swept (n : ℕ)
  | swap (r : Except Err SwapRecord)

def step (m : MemoryRegistry) : ℤ × Op → MemoryRegistry × Reply
  | (_, .put rec) => ((m.put rec).1, .done (m.put rec).2)
  | (_, .putMany recs) => (m.putMany recs, .done (.ok ()))
  | (now, .get id) => ((m.get now id).1, .record (m.get now id).2)
  | (now, .lookup id) => (m, .lookups [m.lookup now id])
  | (now, .lookupMany ids) => (m, .lookups (m.lookupMany now ids))
  | (now, .markConsumed req) => ((m.markConsumed now req).1, .results [(m.markConsumed now req).2])
  | (now, .markConsumedMany reqs) =>
    ((markConsumedMany now m reqs).1, .results (markConsumedMany now m reqs).2)
  | (_, .consumed id) => (m, .consumed (m.consumedBy id))
  | (now, .sweep) => ((m.sweep now).1, .swept (m.sweep now).2)
  | (_, .delete id) => (m.delete id, .done (.ok ()))
  | (_, .putSwap rec) => ((m.putSwap rec).1, .done (m.putSwap rec).2)
  | (now, .getSwap id) => ((m.getSwap now id).1, .swap (m.getSwap now id).2)
  | (_, .deleteSwap id) => (m.deleteSwap id, .done (.ok ()))

def events : (ℤ × Op) × Reply → List ConsumeEvent
  | ((now, .markConsumed req), .results rs) => rs.map fun r => ⟨now, req, r⟩
  | ((now, .markConsumedMany reqs), .results rs) => List.zipWith (fun q r => ⟨now, q, r⟩) reqs rs
  | _ => []

def history (grace : ℤ) (ops : List (ℤ × Op)) : List ConsumeEvent :=
  (log step (newMemoryRegistry grace) ops).flatMap events

def stored : ℤ × Op → List Record
  | (_, .put rec) => if rec.wellFormed then [rec] else []
  | (_, .putMany recs) => recs.filter Record.wellFormed
  | _ => []

def items : ℤ × Op → List (ℤ × Op)
  | (now, .putMany recs) => recs.map fun rec => (now, .put rec)
  | (now, .markConsumedMany reqs) => reqs.map fun req => (now, .markConsumed req)
  | call => [call]

def Single : ℤ × Op → Prop
  | (_, .putMany _) => False
  | (_, .markConsumedMany _) => False
  | _ => True

lemma single_items (call : ℤ × Op) : ∀ i ∈ items call, Single i := by
  obtain ⟨now, op⟩ := call
  cases op <;> simp [items, Single]

lemma wellFormed_iff {rec : Record} :
    rec.wellFormed = true ↔ ¬ (rec.validUntil ≤ rec.issuedAt) ∧ rec.quoteID ≠ "" := by
  simp [Record.wellFormed]

variable (m : MemoryRegistry)

lemma put_eq (rec : Record) :
    (m.put rec).1 =
      if rec.wellFormed then { m with records := m.records.insert rec.quoteID rec } else m := by
  unfold put
  by_cases h : rec.wellFormed = true
  · rw [if_pos h]
    obtain ⟨h1, h2⟩ := wellFormed_iff.mp h
    rw [if_neg h1, if_neg h2]
  · rw [if_neg h]
    split_ifs with h1 h2
    · rfl
    · rfl
    · exact absurd (wellFormed_iff.mpr ⟨h1, h2⟩) h

lemma putMany_items (now : ℤ) : ∀ (recs : List Record) (m : MemoryRegistry),
    m.putMany recs = final step m (recs.map fun rec => (now, Op.put rec))
  | [], m => rfl
  | rec :: recs, m => by
    rw [List.map_cons, final_cons, ← putMany_items now recs, putMany]
    simp only [step, put_eq]
    by_cases h : rec.wellFormed = true
    · obtain ⟨h1, h2⟩ := wellFormed_iff.mp h
      rw [if_neg (by tauto), if_pos h]
    · rw [if_neg h, if_pos]
      by_contra hc
      exact h (wellFormed_iff.mpr ⟨fun h1 => hc (.inl h1), fun h2 => hc (.inr h2)⟩)

lemma markConsumedMany_items (now : ℤ) : ∀ (reqs : List ConsumeRequest) (m : MemoryRegistry),
    (markConsumedMany now m reqs).1 = final step m (reqs.map fun req => (now, Op.markConsumed req)) ∧
      List.zipWith (fun q r => (⟨now, q, r⟩ : ConsumeEvent)) reqs (markConsumedMany now m reqs).2 =
        (log step m (reqs.map fun req => (now, Op.markConsumed req))).flatMap events
  | [], m => ⟨rfl, rfl⟩
  | req :: reqs, m => by
    obtain ⟨h1, h2⟩ := markConsumedMany_items now reqs (m.markConsumed now req).1
    constructor
    · simpa [markConsumedMany, step] using h1
    · simpa [markConsumedMany, step, events] using h2

lemma step_items (call : ℤ × Op) : (step m call).1 = final step m (items call) := by
  obtain ⟨now, op⟩ := call
  cases op with
  | putMany recs => exact putMany_items now recs m
  | markConsumedMany reqs => exact (markConsumedMany_items now reqs m).1
  | _ => rfl

lemma events_items (call : ℤ × Op) :
    events (call, (step m call).2) = (log step m (items call)).flatMap events := by
  obtain ⟨now, op⟩ := call
  cases op with
  | markConsumedMany reqs => exact (markConsumedMany_items now reqs m).2
  | putMany recs =>
    have h : ∀ (recs : List Record) (m : MemoryRegistry),
        (log step m (recs.map fun rec => (now, Op.put rec))).flatMap events = [] := by
      intro recs
      induction recs with
      | nil => intro m; rfl
      | cons rec recs ih => intro m; simp [events, ih]
    exact (h recs m).symm
  | _ => simp [items, events]

lemma stored_items (call : ℤ × Op) : (items call).flatMap stored = stored call := by
  obtain ⟨now, op⟩ := call
  cases op with
  | putMany recs =>
    simp only [items, stored, List.flatMap_map]
    induction recs with
    | nil => rfl
    | cons rec recs ih =>
      rw [List.flatMap_cons, ih, List.filter_cons]
      split_ifs <;> simp
  | markConsumedMany reqs => simp [items, stored]
  | _ => simp [items]

lemma history_items (grace : ℤ) (ops : List (ℤ × Op)) :
    history grace (ops.flatMap items) = history grace ops :=
  (log_flatMap items events events step_items events_items _ ops).symm

lemma stored_flatMap_items (ops : List (ℤ × Op)) :
    (ops.flatMap items).flatMap stored = ops.flatMap stored := by
  rw [List.flatMap_assoc]
  exact List.flatMap_congr fun call _ => stored_items call

end Wtg.QuoteId.Memory
