import Wtg.Lib.Rounding
import Wtg.Lib.Runs
import Wtg.Lib.TtlStore
import Wtg.QuoteId.Registry

/-! # The Redis registry

`RedisRegistry` of `pkg/quoteid/redis.go`, over a Redis whose commands and scripts are atomic and
whose keys vanish exactly when their TTL elapses (`TtlStore`). -/

namespace Wtg.QuoteId.Redis

open Lib Lib.Rounding Lib.Runs QuoteId.Registry List

inductive Value
  | record (rec : Record)
  | swap (rec : SwapRecord)
  | text (s : String)
deriving DecidableEq, Repr

def Value.validUntil : Value → Option ℤ
  | .record rec => some rec.validUntil
  | .swap rec => some rec.validUntil
  | .text _ => none

abbrev DB := TtlStore String Value

inductive LuaVal
  | int (n : ℤ)
  | str (v : Value)
deriving DecidableEq, Repr

/-- `tonumber`: a Lua number is a binary64. -/
def luaNumber (n : ℤ) : ℤ := roundInt 53 n

lemma luaNumber_mono {a b : ℤ} (h : a ≤ b) : luaNumber a ≤ luaNumber b :=
  roundInt_mono (by norm_num) h

def markConsumedScript (db : DB) (now : ℤ) (q c : String) (consumer : String) (nowNano ttlSec : ℤ) :
    DB × List LuaVal :=
  match db.get now q with
  | none => (db, [.int 3])
  | some rec =>
    match rec.validUntil with
    | none => (db, [.int 4, .str rec])
    | some validUntil =>
      if luaNumber validUntil ≤ luaNumber nowNano then (db, [.int 4, .str rec])
      else
        match db.setNX now c (.text consumer) (some (now + ttlSec * second)) with
        | (db', true) => (db', [.int 1, .str rec])
        | (db', false) => (db', [.int 2, .str rec, .str ((db'.get now c).getD (.text ""))])

def lookupScript (db : DB) (now : ℤ) (q c : String) : List LuaVal :=
  match db.get now q, db.get now c with
  | none, none => [.int 0]
  | none, some v => [.int 3, .str (.text ""), .str v]
  | some rec, none => [.int 1, .str rec]
  | some rec, some v => [.int 2, .str rec, .str v]

structure RedisRegistry where
  pfx : String
  grace : ℤ

def decodeRecordFromLua (arr : List LuaVal) (idx : ℕ) : Option Record :=
  match arr[idx]? with
  | some (.str (.record rec)) => some rec
  | _ => none

def decodeConsumer (arr : List LuaVal) : String :=
  match arr with
  | _ :: _ :: .str (.text s) :: _ => s
  | _ => ""

def decodeCode : List LuaVal → ℤ
  | .int n :: _ => n
  | _ => 0

def decodeConsume (arr : List LuaVal) : Option ConsumeResult :=
  if arr = [] then none
  else
    match decodeCode arr with
    | 1 => (decodeRecordFromLua arr 1).map fun rec => { status := .ok, record := rec }
    | 2 => (decodeRecordFromLua arr 1).map fun rec =>
        { status := .alreadyDone, record := rec, consumedBy := decodeConsumer arr }
    | 3 => some { status := .notFound }
    | 4 => (decodeRecordFromLua arr 1).map fun rec => { status := .expired, record := rec }
    | _ => none

def decodeConsumeItem (arr : List LuaVal) : ConsumeResult :=
  if decodeCode arr = 4 then { status := .expired, record := (decodeRecordFromLua arr 1).getD .zero }
  else (decodeConsume arr).getD { status := .unknown }

def decodeLookup (arr : List LuaVal) : Option LookupResult :=
  if arr = [] then none
  else
    match decodeCode arr with
    | 0 => some {}
    | 1 => (decodeRecordFromLua arr 1).map fun rec => { found := true, record := rec }
    | 2 => (decodeRecordFromLua arr 1).map fun rec =>
        { found := true, record := rec, consumed := true, consumedBy := decodeConsumer arr }
    | 3 => some { found := false, consumed := true, consumedBy := decodeConsumer arr }
    | _ => none

inductive Delivery
  | answered
  | lost
  | answerLost
deriving DecidableEq, Repr

namespace RedisRegistry

variable (r : RedisRegistry)

def key (id : QuoteID) : String := r.pfx ++ ":\x7b" ++ id ++ "\x7d:q"

def consumedKey (id : QuoteID) : String := r.pfx ++ ":\x7b" ++ id ++ "\x7d:c"

/-- The lifetime of a marker in seconds, as `MarkConsumed` and `MarkConsumedMany` compute it. -/
def ttlSec : ℤ :=
  let ttl := if r.grace + second ≤ 0 then second else r.grace + second
  if ttl.tdiv second < 1 then 1 else ttl.tdiv second

/-- `Put`: a record whose TTL is not positive is accepted and not stored. -/
def put (db : DB) (now : ℤ) (rec : Record) : DB × Except Err Unit :=
  if rec.validUntil ≤ rec.issuedAt then (db, .error .invalidRecord)
  else if rec.quoteID = "" then (db, .error .invalidRecord)
  else
    let remaining := rec.validUntil - now + r.grace
    if remaining ≤ 0 then (db, .ok ())
    else (db.set (r.key rec.quoteID) (.record rec) (some (now + remaining)), .ok ())

def get (db : DB) (now : ℤ) (id : QuoteID) : Except Err Record :=
  match db.get now (r.key id) with
  | some (.record rec) => .ok rec
  | _ => .error .notFound

def mark (db : DB) (now : ℤ) (req : ConsumeRequest) : DB × List LuaVal :=
  markConsumedScript db now (r.key req.quoteID) (r.consumedKey req.quoteID) req.consumerID now r.ttlSec

def send (db : DB) (now : ℤ) (req : ConsumeRequest) : Delivery → DB × Option (List LuaVal)
  | .answered => ((r.mark db now req).1, some (r.mark db now req).2)
  | .lost => (db, none)
  | .answerLost => ((r.mark db now req).1, none)

def markConsumed (db : DB) (now : ℤ) (req : ConsumeRequest) (d : Delivery) :
    DB × Option ConsumeResult :=
  ((r.send db now req d).1, (r.send db now req d).2.bind decodeConsume)

def markItem (db : DB) (now : ℤ) (item : ConsumeRequest × Delivery) : DB × ConsumeResult :=
  ((r.send db now item.1 item.2).1,
    match (r.send db now item.1 item.2).2 with
    | some arr => decodeConsumeItem arr
    | none => { status := .unknown })

def markConsumedMany (now : ℤ) : DB → List (ConsumeRequest × Delivery) → DB × List ConsumeResult
  | db, [] => (db, [])
  | db, item :: items =>
    let (db₁, res) := r.markItem db now item
    let (db₂, rs) := markConsumedMany now db₁ items
    (db₂, res :: rs)

def lookup (db : DB) (now : ℤ) (id : QuoteID) : Option LookupResult :=
  decodeLookup (lookupScript db now (r.key id) (r.consumedKey id))

def lookupMany (db : DB) (now : ℤ) (ids : List QuoteID) : List LookupResult :=
  ids.map fun id => (r.lookup db now id).getD {}

def consumed (db : DB) (now : ℤ) (id : QuoteID) : String × Bool :=
  match db.get now (r.consumedKey id) with
  | some (.text s) => (s, true)
  | _ => ("", false)

def delete (db : DB) (id : QuoteID) : DB :=
  if id = "" then db else (db.del (r.key id)).del (r.consumedKey id)

def swapKey (swapID : String) : String := r.pfx ++ ":sw:\x7b" ++ swapID ++ "\x7d"

def putSwap (db : DB) (now : ℤ) (rec : SwapRecord) : DB × Except Err Unit :=
  if rec.validUntil ≤ rec.issuedAt then (db, .error .invalidRecord)
  else if rec.swapID = "" ∨ rec.nearID = "" ∨ rec.farID = "" then (db, .error .invalidRecord)
  else
    let remaining := rec.validUntil - now + r.grace
    if remaining ≤ 0 then (db, .ok ())
    else (db.set (r.swapKey rec.swapID) (.swap rec) (some (now + remaining)), .ok ())

def getSwap (db : DB) (now : ℤ) (swapID : String) : Option (Except Err SwapRecord) :=
  match db.get now (r.swapKey swapID) with
  | none => some (.error .swapNotFound)
  | some (.swap rec) => some (.ok rec)
  | some _ => none

def deleteSwap (db : DB) (swapID : String) : DB :=
  if swapID = "" then db else db.del (r.swapKey swapID)

def markerTTL : ℤ := r.ttlSec * second

lemma markerTTL_pos : 0 < markerTTL r := by
  have h : 1 ≤ r.ttlSec := by
    unfold ttlSec
    simp only
    split_ifs <;> omega
  unfold markerTTL second
  omega

lemma key_inj {id id' : QuoteID} (h : r.key id = r.key id') : id = id' := by
  simpa [key] using h

lemma consumedKey_inj {id id' : QuoteID} (h : r.consumedKey id = r.consumedKey id') :
    id = id' := by
  simpa [consumedKey] using h

lemma key_ne_consumedKey (id id' : QuoteID) : r.key id ≠ r.consumedKey id' := by
  intro h
  have h := congrArg (fun s : String => s.toList.reverse.head?) h
  simp [key, consumedKey] at h

/-- `db'` is `db` with a marker set by a script that ran at `now` for `req`. -/
structure Marks (db : DB) (now : ℤ) (req : ConsumeRequest) (db' : DB) : Prop where
  valid : ∃ v validUntil, db.get now (r.key req.quoteID) = some v ∧
    v.validUntil = some validUntil ∧ luaNumber now < luaNumber validUntil
  unmarked : db.get now (r.consumedKey req.quoteID) = none
  eq : db' = db.set (r.consumedKey req.quoteID) (.text req.consumerID) (some (now + markerTTL r))

variable (db : DB)

lemma mark_cases (now : ℤ) (req : ConsumeRequest) :
    Marks r db now req (r.mark db now req).1 ∨
      ((r.mark db now req).1 = db ∧ decodeCode (r.mark db now req).2 ≠ 1) := by
  unfold mark markConsumedScript
  rcases hq : db.get now (r.key req.quoteID) with _ | v
  · exact .inr ⟨rfl, by simp [decodeCode]⟩
  simp only
  rcases hv : v.validUntil with _ | validUntil
  · exact .inr ⟨rfl, by simp [decodeCode]⟩
  simp only
  split_ifs with hle
  · exact .inr ⟨rfl, by simp [decodeCode]⟩
  unfold TtlStore.setNX
  rcases hc : db.get now (r.consumedKey req.quoteID) with _ | c
  · exact .inl ⟨⟨v, validUntil, hq, hv, not_le.mp hle⟩, hc, rfl⟩
  · exact .inr ⟨rfl, by simp [decodeCode]⟩

lemma decodeConsume_ok {arr : List LuaVal} {x : ConsumeResult} (h : decodeConsume arr = some x)
    (hx : x.status = .ok) : decodeCode arr = 1 := by
  unfold decodeConsume at h
  split_ifs at h
  split at h
  · assumption
  · obtain ⟨rec, -, rfl⟩ := Option.map_eq_some_iff.mp h; cases hx
  · cases h; cases hx
  · obtain ⟨rec, -, rfl⟩ := Option.map_eq_some_iff.mp h; cases hx
  · cases h

lemma decodeConsumeItem_ok {arr : List LuaVal} (h : (decodeConsumeItem arr).status = .ok) :
    decodeCode arr = 1 := by
  unfold decodeConsumeItem at h
  split_ifs at h
  rcases hd : decodeConsume arr with _ | x
  · rw [hd] at h; cases h
  · rw [hd] at h; exact decodeConsume_ok hd h

lemma send_cases (now : ℤ) (req : ConsumeRequest) (d : Delivery) :
    Marks r db now req (r.send db now req d).1 ∨
      ((r.send db now req d).1 = db ∧
        ∀ arr, (r.send db now req d).2 = some arr → decodeCode arr ≠ 1) := by
  have hm := mark_cases r db now req
  cases d with
  | answered =>
    refine hm.imp_right fun h => ⟨h.1, fun arr harr => ?_⟩
    rw [← Option.some.inj harr]; exact h.2
  | lost => exact .inr ⟨rfl, by simp [send]⟩
  | answerLost => exact hm.imp_right fun h => ⟨h.1, by simp [send]⟩

/-- The calls on a quote. -/
inductive Op
  | put (rec : Record)
  | get (id : QuoteID)
  | lookup (id : QuoteID)
  | lookupMany (ids : List QuoteID)
  | markConsumed (req : ConsumeRequest) (d : Delivery)
  | markConsumedMany (items : List (ConsumeRequest × Delivery))
  | consumed (id : QuoteID)
  | delete (id : QuoteID)

abbrev Results := List (ConsumeRequest × ConsumeResult)

def step (db : DB) : ℤ × Op → DB × Results
  | (now, .put rec) => ((r.put db now rec).1, [])
  | (now, .markConsumed req d) =>
    ((r.markConsumed db now req d).1, ((r.markConsumed db now req d).2.map fun x => (req, x)).toList)
  | (now, .markConsumedMany items) =>
    ((r.markConsumedMany now db items).1,
      (items.map Prod.fst).zip (r.markConsumedMany now db items).2)
  | (_, .delete id) => (r.delete db id, [])
  | _ => (db, [])

def events : (ℤ × Op) × Results → List ConsumeEvent
  | ((now, _), rs) => rs.map fun x => ⟨now, x.1, x.2⟩

def history (ops : List (ℤ × Op)) : List ConsumeEvent :=
  (log r.step TtlStore.empty ops).flatMap events

def putsOf (id : QuoteID) (ops : List (ℤ × Op)) : List (ℤ × Record) :=
  ops.filterMap fun
    | (now, .put rec) => if rec.quoteID = id then some (now, rec) else none
    | _ => none

def items : ℤ × Op → List (ℤ × Op)
  | (now, .markConsumedMany its) => its.map fun it => (now, .markConsumedMany [it])
  | call => [call]

lemma markConsumedMany_items (now : ℤ) : ∀ (its : List (ConsumeRequest × Delivery)) (db : DB),
    (r.markConsumedMany now db its).1 =
        final r.step db (its.map fun it => (now, Op.markConsumedMany [it])) ∧
      events ((now, Op.markConsumedMany its),
          (its.map Prod.fst).zip (r.markConsumedMany now db its).2) =
        (log r.step db (its.map fun it => (now, Op.markConsumedMany [it]))).flatMap events
  | [], db => ⟨rfl, rfl⟩
  | it :: its, db => by
    obtain ⟨h1, h2⟩ := markConsumedMany_items now its (r.markItem db now it).1
    constructor
    · simpa [markConsumedMany, step] using h1
    · simpa [markConsumedMany, step, events] using h2

lemma step_items (call : ℤ × Op) : (r.step db call).1 = final r.step db (items call) := by
  obtain ⟨now, op⟩ := call
  cases op with
  | markConsumedMany its => exact (r.markConsumedMany_items now its db).1
  | _ => rfl

lemma events_items (call : ℤ × Op) :
    events (call, (r.step db call).2) = (log r.step db (items call)).flatMap events := by
  obtain ⟨now, op⟩ := call
  cases op with
  | markConsumedMany its => exact (r.markConsumedMany_items now its db).2
  | _ => simp [items]

lemma history_items (ops : List (ℤ × Op)) : r.history (ops.flatMap items) = r.history ops :=
  (log_flatMap items events events r.step_items r.events_items _ ops).symm

lemma putsOf_items (id : QuoteID) (ops : List (ℤ × Op)) :
    putsOf id (ops.flatMap items) = putsOf id ops := by
  unfold putsOf
  induction ops with
  | nil => rfl
  | cons call ops ih =>
    obtain ⟨now, op⟩ := call
    rw [flatMap_cons, filterMap_append, ih, ← singleton_append,
      filterMap_append]
    congr 1
    cases op <;> simp [items]

lemma time_items {call i : ℤ × Op} (h : i ∈ items call) : i.1 = call.1 := by
  obtain ⟨now, op⟩ := call
  cases op with
  | markConsumedMany its =>
    obtain ⟨it, -, rfl⟩ := mem_map.mp h
    rfl
  | _ => rw [mem_singleton.mp h]

lemma chronological_items {ops : List (ℤ × Op)} (h : Chronological ops) :
    Chronological (ops.flatMap items) := by
  induction ops with
  | nil => exact List.Pairwise.nil
  | cons call ops ih =>
    obtain ⟨h1, h2⟩ := pairwise_cons.mp h
    refine pairwise_append.mpr ⟨?_, ih h2, ?_⟩
    · exact List.Pairwise.imp_of_mem (R := fun _ _ => True)
        (fun ha hb _ => by rw [time_items ha, time_items hb])
        (pairwise_of_forall fun _ _ => trivial)
    · intro a ha b hb
      obtain ⟨call', hc, hb⟩ := mem_flatMap.mp hb
      rw [time_items ha, time_items hb]
      exact h1 call' hc

end RedisRegistry

end Wtg.QuoteId.Redis
