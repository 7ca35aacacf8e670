import Wtg.Lib.Program
import Wtg.QuoteId.Memory
import Wtg.QuoteId.Redis

/-! # The registry as its callers see it

`quoteid.Registry` and `quoteid.SwapIndex` as the request handlers use them: `RegCall` are the
calls, `Answer` their results, and a handler is a program over these calls. -/

namespace Wtg.QuoteId.Interface

open Lib Lib.Program QuoteId.Registry QuoteId.Memory QuoteId.Redis AList

inductive RegErr
  | sentinel (e : Err)
  | other (text : String)
deriving DecidableEq, Repr

def RegErr.text : RegErr → String
  | .sentinel e => e.text
  | .other s => s

inductive RegCall
  | now
  | getSwap (swapID : String)
  | lookup (id : QuoteID)
  | lookupMany (ids : List QuoteID)
  | markConsumed (req : ConsumeRequest)
  | markConsumedMany (reqs : List ConsumeRequest)

def Answer : RegCall → Type
  | .now => ℤ
  | .getSwap _ => Except RegErr SwapRecord
  | .lookup _ => Except RegErr LookupResult
  | .lookupMany _ => Except RegErr (List LookupResult)
  | .markConsumed _ => Except RegErr ConsumeResult
  | .markConsumedMany _ => Except RegErr (List ConsumeResult)

abbrev Handler := Prog RegCall Answer

namespace Reg

def now : Handler ℤ := Prog.perform RegCall.now

def getSwap (swapID : String) : Handler (Except RegErr SwapRecord) :=
  Prog.perform (RegCall.getSwap swapID)

def lookup (id : QuoteID) : Handler (Except RegErr LookupResult) := Prog.perform (RegCall.lookup id)

def lookupMany (ids : List QuoteID) : Handler (Except RegErr (List LookupResult)) :=
  Prog.perform (RegCall.lookupMany ids)

def markConsumed (req : ConsumeRequest) : Handler (Except RegErr ConsumeResult) :=
  Prog.perform (RegCall.markConsumed req)

def markConsumedMany (reqs : List ConsumeRequest) : Handler (Except RegErr (List ConsumeResult)) :=
  Prog.perform (RegCall.markConsumedMany reqs)

end Reg

abbrev RegistryObject (σ ε : Type) := Object RegCall Answer σ ε

def memoryObject : RegistryObject MemoryRegistry ℤ := fun now m c =>
  match c with
  | .now => (m, now)
  | .getSwap id => ((m.getSwap now id).1, (m.getSwap now id).2.mapError .sentinel)
  | .lookup id => (m, .ok (m.lookup now id))
  | .lookupMany ids => (m, .ok (m.lookupMany now ids))
  | .markConsumed req => ((m.markConsumed now req).1, .ok (m.markConsumed now req).2)
  | .markConsumedMany reqs =>
    ((MemoryRegistry.markConsumedMany now m reqs).1,
      .ok (MemoryRegistry.markConsumedMany now m reqs).2)

structure RedisEnv where
  now : ℤ
  delivery : ℕ → Delivery
  error : String

def RedisEnv.pipeline (e : RedisEnv) (reqs : List ConsumeRequest) : List (ConsumeRequest × Delivery) :=
  reqs.zipIdx.map fun q => (q.1, e.delivery q.2)

/-- `RedisRegistry`. -/
def redisObject (r : RedisRegistry) : RegistryObject DB RedisEnv := fun e db c =>
  match c with
  | .now => (db, e.now)
  | .getSwap id =>
    (db, if e.delivery 0 = .answered then
        match r.getSwap db e.now id with
        | some res => res.mapError .sentinel
        | none => .error (.other e.error)
      else .error (.other e.error))
  | .lookup id =>
    (db, if e.delivery 0 = .answered then
        match r.lookup db e.now id with
        | some res => .ok res
        | none => .error (.other e.error)
      else .error (.other e.error))
  | .lookupMany ids =>
    (db, .ok (ids.zipIdx.map fun q =>
      if e.delivery q.2 = .answered then (r.lookup db e.now q.1).getD {} else {}))
  | .markConsumed req =>
    ((r.markConsumed db e.now req (e.delivery 0)).1,
      match (r.markConsumed db e.now req (e.delivery 0)).2 with
      | some res => .ok res
      | none => .error (.other e.error))
  | .markConsumedMany reqs =>
    ((r.markConsumedMany e.now db (e.pipeline reqs)).1,
      .ok (r.markConsumedMany e.now db (e.pipeline reqs)).2)

/-- **A lawful registry**: each item of a batch gets an answer, and after a `ConsumeOK` the marker
of its id, as a read at that time sees it, names its consumer. -/
structure Lawful {σ ε : Type} (obj : RegistryObject σ ε) (marker : ε → σ → QuoteID → Option String) :
    Prop where
  marks : ∀ e s reqs rs, (obj e s (.markConsumedMany reqs)).2 = .ok rs →
    List.Forall₂ (fun req res => res.status = .ok →
      marker e (obj e s (.markConsumedMany reqs)).1 req.quoteID = some req.consumerID) reqs rs

def memoryMarker (_ : ℤ) (m : MemoryRegistry) (id : QuoteID) : Option String := m.consumed.lookup id

def redisMarker (r : RedisRegistry) (e : RedisEnv) (db : DB) (id : QuoteID) : Option String :=
  match db.get e.now (r.consumedKey id) with
  | some (.text s) => some s
  | _ => none

def Held (now : ℤ) (m : MemoryRegistry) (id : QuoteID) (c : String) : Prop :=
  (∃ rec, m.Valid now id rec) ∧ m.consumed.lookup id = some c

variable {now : ℤ} {c : String} {m : MemoryRegistry}

lemma Held.markConsumed {id : QuoteID} (h : Held now m id c)
    (req : ConsumeRequest) : Held now (m.markConsumed now req).1 id c := by
  obtain ⟨⟨rec, hr, he, hv⟩, hc⟩ := h
  have ho := m.markConsumed_outcome now req
  generalize m.markConsumed now req = x at ho ⊢
  cases ho with
  | absent _ => exact ⟨⟨rec, hr, he, hv⟩, hc⟩
  | invalid _ _ _ => exact ⟨⟨rec, hr, he, hv⟩, hc⟩
  | taken _ _ => exact ⟨⟨rec, hr, he, hv⟩, hc⟩
  | evicted hr' he' =>
    -- the evicted quote is past its grace, so it is another one
    have hne : id ≠ req.quoteID := by
      rintro rfl
      obtain rfl := Option.some.inj (hr.symm.trans hr')
      rw [he] at he'; cases he'
    exact ⟨⟨rec, by rw [lookup_erase_ne hne, hr], he, hv⟩,
      by rw [lookup_erase_ne hne, hc]⟩
  | free _ hc' =>
    have hne : id ≠ req.quoteID := by
      rintro rfl
      rw [hc] at hc'; cases hc'
    exact ⟨⟨rec, hr, he, hv⟩, by rw [lookup_insert_ne hne, hc]⟩

lemma held_of_ok {req : ConsumeRequest}
    (h : (m.markConsumed now req).2.status = .ok) :
    Held now (m.markConsumed now req).1 req.quoteID req.consumerID := by
  have ho := m.markConsumed_outcome now req
  generalize m.markConsumed now req = x at ho h ⊢
  cases ho with
  | free hr hc => exact ⟨⟨_, hr⟩, lookup_insert _⟩
  | _ => cases h

lemma Held.markConsumedMany {id : QuoteID} :
    ∀ (reqs : List ConsumeRequest) {m : MemoryRegistry}, Held now m id c →
      Held now (MemoryRegistry.markConsumedMany now m reqs).1 id c
  | [], _, h => h
  | req :: reqs, _, h => Held.markConsumedMany reqs (h.markConsumed req)

lemma markConsumedMany_marks (now : ℤ) : ∀ (reqs : List ConsumeRequest) (m : MemoryRegistry),
    List.Forall₂ (fun req res => res.status = .ok → Held now
      (MemoryRegistry.markConsumedMany now m reqs).1 req.quoteID req.consumerID)
      reqs (MemoryRegistry.markConsumedMany now m reqs).2
  | [], _ => .nil
  | req :: reqs, m => by
    refine .cons ?_ (markConsumedMany_marks now reqs (m.markConsumed now req).1)
    exact fun h => (held_of_ok h).markConsumedMany reqs

theorem memory_lawful : Lawful memoryObject memoryMarker where
  marks now m reqs rs h := by
    obtain rfl : (MemoryRegistry.markConsumedMany now m reqs).2 = rs := Except.ok.inj h
    exact (markConsumedMany_marks now reqs m).imp fun _ _ hm hok => (hm hok).2

variable {r : RedisRegistry} {e : RedisEnv}

lemma send_keeps {db : DB} {v : Value} (req : ConsumeRequest) (d : Delivery)
    (h : db.get now c = some v) : (r.send db now req d).1.get now c = some v := by
  rcases r.send_cases db now req d with hm | ⟨hdb, -⟩
  · have hne : c ≠ r.consumedKey req.quoteID := by
      rintro rfl
      rw [hm.unmarked] at h; cases h
    rw [hm.eq]
    unfold TtlStore.get at h ⊢
    rwa [TtlStore.set_ne _ hne]
  · rwa [hdb]

lemma marker_of_ok {db : DB} {item : ConsumeRequest × Delivery}
    (h : (r.markItem db now item).2.status = .ok) :
    (r.markItem db now item).1.get now (r.consumedKey item.1.quoteID) =
      some (.text item.1.consumerID) := by
  rcases r.send_cases db now item.1 item.2 with hm | ⟨-, hcode⟩
  · show (r.send db now item.1 item.2).1.get now _ = _
    rw [hm.eq]
    have hT := r.markerTTL_pos
    exact TtlStore.get_of_entry (TtlStore.set_self ..) (by omega)
  · rcases harr : (r.send db now item.1 item.2).2 with _ | arr
    · simp only [RedisRegistry.markItem, harr] at h; cases h
    · simp only [RedisRegistry.markItem, harr] at h
      exact absurd (RedisRegistry.decodeConsumeItem_ok h) (hcode arr harr)

lemma pipeline_keeps {v : Value} :
    ∀ (items : List (ConsumeRequest × Delivery)) {db : DB}, db.get now c = some v →
      (r.markConsumedMany now db items).1.get now c = some v
  | [], _, h => h
  | item :: items, _, h => pipeline_keeps items (send_keeps item.1 item.2 h)

lemma pipeline_marks (now : ℤ) : ∀ (items : List (ConsumeRequest × Delivery)) (db : DB),
    List.Forall₂ (fun item res => res.status = .ok →
      (r.markConsumedMany now db items).1.get now (r.consumedKey item.1.quoteID) =
        some (.text item.1.consumerID)) items (r.markConsumedMany now db items).2
  | [], _ => .nil
  | item :: items, db => by
    refine .cons ?_ (pipeline_marks now items (r.markItem db now item).1)
    exact fun h => pipeline_keeps items (marker_of_ok h)

lemma redis_lawful (r : RedisRegistry) : Lawful (redisObject r) (redisMarker r) where
  marks e db reqs rs h := by
    obtain rfl : (r.markConsumedMany e.now db (e.pipeline reqs)).2 = rs := Except.ok.inj h
    have hp := pipeline_marks (r := r) e.now (e.pipeline reqs) db
    have hreqs : reqs = (e.pipeline reqs).map Prod.fst := by
      simp [RedisEnv.pipeline, Function.comp_def]
    conv => arg 2; rw [hreqs]
    rw [List.forall₂_map_left_iff]
    refine hp.imp fun item res hm hok => ?_
    show (match TtlStore.get (r.markConsumedMany e.now db (e.pipeline reqs)).1 e.now
      (r.consumedKey item.1.quoteID) with | some (.text s) => some s | _ => none) = _
    rw [hm hok]

end Wtg.QuoteId.Interface
