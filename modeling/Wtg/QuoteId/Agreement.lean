import Wtg.QuoteId.Memory
import Wtg.QuoteId.Redis

/-! # When the two registries agree

The in-memory registry compares times explicitly, the Redis registry leaves expiry to the keys: the
record key vanishes at `ValidUntil + grace`, where the comparison in memory still finds the record;
the marker key vanishes a fixed time after the consumption, while in memory a marker stays until a
consumption past the grace collects it; and the script compares `ValidUntil` only, as a binary64
number, where `ValidAt` also asks for `IssuedAt`. -/

namespace Wtg.QuoteId.Agreement

open Lib Lib.Runs QuoteId.Registry QuoteId.Memory QuoteId.Redis List Function TtlStore

inductive Call
  | put (rec : Record)
  | markConsumed (req : ConsumeRequest)
  | lookup (id : QuoteID)

inductive Seen
  | stored (r : Except Err Unit)
  | status (s : Option ConsumeStatus)
  | found (r : Option (Bool × Bool × String))

def view (r : LookupResult) : Bool × Bool × String := (r.found, r.consumed, r.consumedBy)

def memoryStep (m : MemoryRegistry) : ℤ × Call → MemoryRegistry × Seen
  | (_, .put rec) => ((m.put rec).1, .stored (m.put rec).2)
  | (now, .markConsumed req) =>
    ((m.markConsumed now req).1, .status (some (m.markConsumed now req).2.status))
  | (now, .lookup id) => (m, .found (some (view (m.lookup now id))))

def redisStep (r : RedisRegistry) (db : DB) : ℤ × Call → DB × Seen
  | (now, .put rec) => ((r.put db now rec).1, .stored (r.put db now rec).2)
  | (now, .markConsumed req) =>
    ((r.markConsumed db now req .answered).1,
      .status ((r.markConsumed db now req .answered).2.map ConsumeResult.status))
  | (now, .lookup id) => (db, .found ((r.lookup db now id).map view))

def puts (calls : List (ℤ × Call)) : List QuoteID :=
  calls.filterMap fun
    | (_, .put rec) => some rec.quoteID
    | _ => none

structure Life where
  quote : Record
  consumed : Option (ℤ × String) := none
  collected : Bool := false

abbrev Ledger := QuoteID → Option Life

def note (grace : ℤ) (l : Ledger) : ℤ × Call → Ledger
  | (_, .put rec) =>
    if rec.wellFormed then Function.update l rec.quoteID (some { quote := rec }) else l
  | (now, .markConsumed req) =>
    match l req.quoteID with
    | none => l
    | some life =>
      if life.quote.validUntil + grace < now then
        Function.update l req.quoteID (some { life with collected := true })
      else if life.quote.validAt now = true ∧ life.consumed = none then
        Function.update l req.quoteID (some { life with consumed := some (now, req.consumerID) })
      else l
  | (_, .lookup _) => l

def Life.marked (ttl now : ℤ) (life : Life) : Bool :=
  life.consumed.any fun c => decide (now < c.1 + ttl)

lemma Life.consumed_of_marked {ttl now : ℤ} {life : Life} (h : life.marked ttl now = true) :
    ∃ c, life.consumed = some c := by
  rcases hc : life.consumed with _ | c
  · simp [Life.marked, hc] at h
  · exact ⟨c, rfl⟩

def TimelyMark (r : RedisRegistry) (now : ℤ) (life : Life) : Prop :=
  now ≠ life.quote.validUntil + r.grace ∧
    (now < life.quote.validUntil + r.grace →
      (life.quote.validAt now = true ↔ luaNumber now < luaNumber life.quote.validUntil) ∧
        (life.quote.validAt now = true → life.consumed.isSome = true →
          life.marked r.markerTTL now = true))

def TimelyLookup (r : RedisRegistry) (now : ℤ) (life : Life) : Prop :=
  now ≠ life.quote.validUntil + r.grace ∧
    (life.consumed.isSome = true → life.marked r.markerTTL now = !life.collected)

/-- **A timely call.** -/
def Timely (r : RedisRegistry) (l : Ledger) : ℤ × Call → Prop
  | (_, .put _) => True
  | (now, .markConsumed req) => ∀ life ∈ l req.quoteID, TimelyMark r now life
  | (now, .lookup id) => ∀ life ∈ l id, TimelyLookup r now life

instance (r : RedisRegistry) (now : ℤ) (life : Life) : Decidable (TimelyMark r now life) :=
  inferInstanceAs (Decidable (_ ∧ _))

instance (r : RedisRegistry) (now : ℤ) (life : Life) : Decidable (TimelyLookup r now life) :=
  inferInstanceAs (Decidable (_ ∧ _))

instance (r : RedisRegistry) (l : Ledger) : ∀ call, Decidable (Timely r l call)
  | (_, .put _) => .isTrue trivial
  | (_, .markConsumed _) => inferInstanceAs (Decidable (∀ _ ∈ _, _))
  | (_, .lookup _) => inferInstanceAs (Decidable (∀ _ ∈ _, _))

structure Untouched (r : RedisRegistry) (m : MemoryRegistry) (db : DB) (id : QuoteID) : Prop where
  record : m.records.lookup id = none
  marker : m.consumed.lookup id = none
  key : db (r.key id) = none
  consumedKey : db (r.consumedKey id) = none

structure Tracked (r : RedisRegistry) (T : ℤ) (m : MemoryRegistry) (db : DB) (id : QuoteID)
    (life : Life) : Prop where
  record : m.records.lookup id = if life.collected then none else some life.quote
  marker : m.consumed.lookup id = if life.collected then none else life.consumed.map Prod.snd
  key : db (r.key id) = some (.record life.quote, some (life.quote.validUntil + r.grace)) ∨
    db (r.key id) = none ∧ life.quote.validUntil + r.grace ≤ T
  consumedKey : db (r.consumedKey id) =
    life.consumed.map fun c => (.text c.2, some (c.1 + r.markerTTL))
  collected : life.collected = true → life.quote.validUntil + r.grace < T

/-- The state of a quote in both registries is what the ledger says. -/
def Follows (r : RedisRegistry) (T : ℤ) (m : MemoryRegistry) (db : DB) (id : QuoteID) :
    Option Life → Prop
  | none => Untouched r m db id
  | some life => Tracked r T m db id life

variable {r : RedisRegistry} {T now : ℤ} {m : MemoryRegistry} {db : DB} {id : QuoteID} {life : Life}

lemma Tracked.later (h : Tracked r T m db id life) (hT : T ≤ now) :
    Tracked r now m db id life where
  record := h.record
  marker := h.marker
  key := h.key.imp_right fun hk => ⟨hk.1, hk.2.trans hT⟩
  consumedKey := h.consumedKey
  collected hc := (h.collected hc).trans_le hT

lemma Tracked.get_key (h : Tracked r T m db id life) (hT : T ≤ now) :
    db.get now (r.key id) =
      if now < life.quote.validUntil + r.grace then some (.record life.quote) else none := by
  rcases h.key with hk | ⟨hk, hlate⟩
  · split_ifs with hlt
    · exact get_of_entry hk hlt
    · exact get_of_expired hk (not_lt.mp hlt)
  · rw [if_neg (by omega)]
    exact get_of_none hk

lemma Tracked.get_consumedKey (h : Tracked r T m db id life) (now : ℤ) :
    db.get now (r.consumedKey id) =
      if life.marked r.markerTTL now then life.consumed.map fun c => .text c.2 else none := by
  have hk := h.consumedKey
  rcases hc : life.consumed with _ | ⟨c, who⟩
  · rw [hc] at hk
    rw [get_of_none hk]
    simp
  · rw [hc] at hk
    by_cases hlt : now < c + r.markerTTL
    · rw [get_of_entry hk hlt]
      simp [Life.marked, hc, hlt]
    · rw [get_of_expired hk (not_lt.mp hlt)]
      simp [Life.marked, hc, hlt]

variable {req : ConsumeRequest}

/-! ## The answers of both registries -/

section

variable (hg : m.grace = r.grace) (h : Tracked r T m db id life) (hT : T ≤ now)
include h hT

include hg in
lemma Tracked.memory_mark (hid : req.quoteID = id) :
    m.markConsumed now req =
      if life.quote.validUntil + r.grace < now then
        (if life.collected then m
          else { m with records := m.records.erase id
                        consumed := m.consumed.erase id }, { status := .notFound })
      else if life.quote.validAt now then
        if life.consumed.isSome then
          (m, { status := .alreadyDone, record := life.quote
                consumedBy := (life.consumed.map Prod.snd).getD "" })
        else ({ m with consumed := m.consumed.insert id req.consumerID },
          { status := .ok, record := life.quote })
      else (m, { status := .expired, record := life.quote }) := by
  subst hid
  have hr := h.record
  have hm := h.marker
  cases hc : life.collected with
  | true =>
    have hlate := (h.collected hc).trans_le hT
    simp only [hc, if_true] at hr
    simp [MemoryRegistry.markConsumed, hr, hlate]
  | false =>
    simp only [hc, Bool.false_eq_true, if_false] at hr hm
    by_cases hlate : life.quote.validUntil + r.grace < now
    · simp [MemoryRegistry.markConsumed, MemoryRegistry.expired, hr, hg, hlate]
    · cases hv : life.quote.validAt now with
      | false => simp [MemoryRegistry.markConsumed, MemoryRegistry.expired, hr, hg, hlate, hv]
      | true =>
        cases hcons : life.consumed with
        | none | some c =>
          rw [hcons] at hm
          simp [MemoryRegistry.markConsumed, MemoryRegistry.expired, hr, hg, hlate, hv, hm]

include hg in
lemma Tracked.memory_lookup :
    view (m.lookup now id) =
      (decide (now ≤ life.quote.validUntil + r.grace),
        !life.collected && life.consumed.isSome,
        if life.collected then "" else (life.consumed.map Prod.snd).getD "") := by
  have hr := h.record
  have hm := h.marker
  cases hc : life.collected with
  | true =>
    have hlate := (h.collected hc).trans_le hT
    have hnot : ¬ now ≤ life.quote.validUntil + r.grace := not_le.mpr hlate
    simp only [hc, if_true] at hr hm
    simp [MemoryRegistry.lookup, hr, hm, view, hnot]
  | false =>
    simp only [hc, Bool.false_eq_true, if_false] at hr hm
    by_cases hlate : life.quote.validUntil + r.grace < now
    · have hnot : ¬ now ≤ life.quote.validUntil + r.grace := not_le.mpr hlate
      simp [MemoryRegistry.lookup, MemoryRegistry.expired, hr, hm, hg, view, hnot, hlate]
    · have hle : now ≤ life.quote.validUntil + r.grace := not_lt.mp hlate
      simp [MemoryRegistry.lookup, MemoryRegistry.expired, hr, hm, hg, view, hlate, hle]

lemma Tracked.redis_mark (hid : req.quoteID = id) :
    r.markConsumed db now req .answered =
      if now < life.quote.validUntil + r.grace then
        if luaNumber life.quote.validUntil ≤ luaNumber now then
          (db, some { status := .expired, record := life.quote })
        else if life.marked r.markerTTL now then
          (db, some { status := .alreadyDone, record := life.quote
                      consumedBy := (life.consumed.map Prod.snd).getD "" })
        else (db.set (r.consumedKey id) (.text req.consumerID) (some (now + r.markerTTL)),
          some { status := .ok, record := life.quote })
      else (db, some { status := .notFound }) := by
  subst hid
  have hq := h.get_key hT
  have hc := h.get_consumedKey now
  unfold RedisRegistry.markConsumed RedisRegistry.send RedisRegistry.mark markConsumedScript
  by_cases hlt : now < life.quote.validUntil + r.grace
  · rw [if_pos hlt] at hq ⊢
    simp only [hq, Value.validUntil]
    by_cases hexp : luaNumber life.quote.validUntil ≤ luaNumber now
    · simp [hexp, decodeConsume, decodeCode, decodeRecordFromLua]
    · simp only [hexp, if_false]
      unfold setNX
      by_cases hm : life.marked r.markerTTL now = true
      · obtain ⟨c, hcons⟩ := Life.consumed_of_marked hm
        rw [if_pos hm, hcons] at hc
        simp [hc, hm, hcons, decodeConsume, decodeCode, decodeRecordFromLua, decodeConsumer]
      · rw [if_neg hm] at hc
        rw [if_neg hm]
        simp [hc, decodeConsume, decodeCode, decodeRecordFromLua, RedisRegistry.markerTTL]
  · rw [if_neg hlt] at hq ⊢
    simp [hq, decodeConsume, decodeCode]

lemma Tracked.redis_lookup :
    (r.lookup db now id).map view =
      some (decide (now < life.quote.validUntil + r.grace), life.marked r.markerTTL now,
        if life.marked r.markerTTL now then (life.consumed.map Prod.snd).getD "" else "") := by
  have hq := h.get_key hT
  have hc := h.get_consumedKey now
  unfold RedisRegistry.lookup lookupScript
  by_cases hm : life.marked r.markerTTL now = true
  · obtain ⟨c, hcons⟩ := Life.consumed_of_marked hm
    rw [if_pos hm, hcons] at hc
    by_cases hlt : now < life.quote.validUntil + r.grace
    · rw [if_pos hlt] at hq
      simp [hq, hc, hm, hlt, hcons, decodeLookup, decodeCode, decodeRecordFromLua, decodeConsumer, view]
    · rw [if_neg hlt] at hq
      simp [hq, hc, hm, hlt, hcons, decodeLookup, decodeCode, decodeConsumer, view]
  · rw [if_neg hm] at hc
    by_cases hlt : now < life.quote.validUntil + r.grace
    · rw [if_pos hlt] at hq
      simp [hq, hc, hm, hlt, decodeLookup, decodeCode, decodeRecordFromLua, view]
    · rw [if_neg hlt] at hq
      simp [hq, hc, hm, hlt, decodeLookup, decodeCode, view]

include hg

lemma Tracked.status_eq_iff (hid : req.quoteID = id) :
    some (m.markConsumed now req).2.status =
        (r.markConsumed db now req .answered).2.map ConsumeResult.status ↔
      TimelyMark r now life := by
  rw [h.memory_mark hg hT hid, h.redis_mark hT hid, TimelyMark]
  rcases lt_trichotomy now (life.quote.validUntil + r.grace) with hlt | heq | hgt
  · rw [if_neg (by omega), if_pos hlt]
    have hne : now ≠ life.quote.validUntil + r.grace := hlt.ne
    by_cases hlua : luaNumber life.quote.validUntil ≤ luaNumber now
    · have hlua' := not_lt.mpr hlua
      cases hv : life.quote.validAt now <;> cases hc : life.consumed.isSome <;>
        simp [hlua, hlua', hlt, hne]
    · have hlua' := not_le.mp hlua
      cases hv : life.quote.validAt now <;> cases hc : life.consumed.isSome <;>
        cases hm : life.marked r.markerTTL now <;> simp [hlua, hlua', hlt, hne]
      obtain ⟨c, hcons⟩ := Life.consumed_of_marked hm
      simp [hcons] at hc
  · rw [if_neg heq.le.not_gt, if_neg heq.ge.not_gt]
    cases hv : life.quote.validAt now <;> cases hc : life.consumed.isSome <;> simp [heq]
  · rw [if_pos hgt, if_neg hgt.le.not_gt]
    simp [hgt.ne', hgt.le]

lemma Tracked.lookup_eq_iff :
    some (view (m.lookup now id)) = (r.lookup db now id).map view ↔ TimelyLookup r now life := by
  rw [h.memory_lookup hg hT, h.redis_lookup hT, TimelyLookup, Option.some.injEq, Prod.mk.injEq,
    Prod.mk.injEq, decide_eq_decide]
  have hend : (now ≤ life.quote.validUntil + r.grace ↔ now < life.quote.validUntil + r.grace) ↔
      now ≠ life.quote.validUntil + r.grace := by omega
  rw [hend, and_congr_right_iff]
  intro _
  cases hm : life.marked r.markerTTL now with
  | false =>
    cases hc : life.collected <;> cases hs : life.consumed <;> simp
  | true =>
    obtain ⟨c, hcons⟩ := Life.consumed_of_marked hm
    cases hc : life.collected <;> simp [hcons]

end

lemma Follows.frame {m' : MemoryRegistry} {db' : DB} {T' : ℤ} {o : Option Life}
    (h : Follows r T m db id o) (hT : T ≤ T') (hr : m'.records.lookup id = m.records.lookup id)
    (hm : m'.consumed.lookup id = m.consumed.lookup id) (hk : db' (r.key id) = db (r.key id))
    (hc : db' (r.consumedKey id) = db (r.consumedKey id)) : Follows r T' m' db' id o := by
  cases o with
  | none =>
    have h : Untouched r m db id := h
    exact ⟨hr.trans h.record, hm.trans h.marker, hk.trans h.key, hc.trans h.consumedKey⟩
  | some life =>
    have h := Tracked.later (show Tracked r T m db id life from h) hT
    exact ⟨hr.trans h.record, hm.trans h.marker, by rw [hk]; exact h.key, hc.trans h.consumedKey,
      h.collected⟩

lemma redis_mark_of_ne (now : ℤ) {key : String} (hne : key ≠ r.consumedKey req.quoteID) :
    (r.markConsumed db now req .answered).1 key = db key := by
  rcases r.send_cases db now req .answered with hm | ⟨hdb, -⟩
  · show (r.send db now req .answered).1 key = db key
    rw [hm.eq, set_ne _ hne]
  · show (r.send db now req .answered).1 key = db key
    rw [hdb]

variable {l : Ledger}

lemma Tracked.mark (hg : m.grace = r.grace) (hl : l req.quoteID = some life)
    (h : Tracked r T m db req.quoteID life) (hT : T ≤ now) (htimely : TimelyMark r now life) :
    Follows r now (m.markConsumed now req).1 (r.markConsumed db now req .answered).1 req.quoteID
      (note r.grace l (now, .markConsumed req) req.quoteID) := by
  obtain ⟨hne, hwithin⟩ := htimely
  have hlater := h.later hT
  simp only [note, hl]
  rw [h.memory_mark hg hT rfl, h.redis_mark hT rfl]
  by_cases hlate : life.quote.validUntil + r.grace < now
  · rw [if_pos hlate, if_pos hlate, if_neg hlate.le.not_gt, update_self]
    refine ⟨?_, ?_, hlater.key, hlater.consumedKey, fun _ => hlate⟩
    · cases hc : life.collected with
      | true => simpa [hc] using h.record
      | false => simp
    · cases hc : life.collected with
      | true => simpa [hc] using h.marker
      | false => simp
  · have hlt : now < life.quote.validUntil + r.grace := by omega
    have hopen : life.collected = false := by
      by_contra hc
      exact hlate ((h.collected (by simpa using hc)).trans_le hT)
    obtain ⟨hlua, hmarked⟩ := hwithin hlt
    rw [if_neg hlate, if_neg hlate, if_pos hlt]
    cases hv : life.quote.validAt now with
    | false =>
      have hexp : luaNumber life.quote.validUntil ≤ luaNumber now := by
        rw [← not_lt, ← hlua, hv]; simp
      rw [if_pos hexp]
      simpa [Follows, hl] using hlater
    | true =>
      have hvalid : ¬ luaNumber life.quote.validUntil ≤ luaNumber now := not_le.mpr (hlua.mp hv)
      rw [if_neg hvalid]
      cases hcons : life.consumed with
      | some c =>
        rw [if_pos (hmarked hv (by rw [hcons]; rfl))]
        simpa [Follows, hl] using hlater
      | none =>
        -- the quote is free: both set the marker
        have hnot : ¬ life.marked r.markerTTL now = true := by simp [Life.marked, hcons]
        rw [if_neg hnot]
        simp only [Option.isSome_none, Bool.false_eq_true, if_false, and_self, if_true,
          update_self]
        refine ⟨?_, ?_, ?_, ?_, fun hc => ?_⟩
        · simpa [hopen] using h.record
        · simp [hopen]
        · rw [set_ne _ (r.key_ne_consumedKey _ _)]
          exact hlater.key
        · simp
        · simp [hopen] at hc

lemma redis_put_eq (now : ℤ) (rec : Record) : (r.put db now rec).1 =
    if rec.wellFormed = true ∧ now < rec.validUntil + r.grace then
      db.set (r.key rec.quoteID) (.record rec) (some (rec.validUntil + r.grace))
    else db := by
  fun_cases RedisRegistry.put r db now rec
  case case1 ht => rw [if_neg fun hw => (wellFormed_iff.mp hw.1).1 ht]
  case case2 _ hid => rw [if_neg fun hw => (wellFormed_iff.mp hw.1).2 hid]
  case case3 remaining hlate => rw [if_neg (by omega)]
  case case4 ht hid remaining hlate =>
    have hend : now + remaining = rec.validUntil + r.grace := by omega
    rw [if_pos ⟨wellFormed_iff.mpr ⟨ht, hid⟩, by omega⟩, hend]

variable {rec : Record}

lemma Untouched.put (hl : l rec.quoteID = none) (h : Untouched r m db rec.quoteID) (now : ℤ) :
    Follows r now (m.put rec).1 (r.put db now rec).1 rec.quoteID
      (note r.grace l (now, .put rec) rec.quoteID) := by
  simp only [note, put_eq, redis_put_eq]
  cases hw : rec.wellFormed with
  | false => simpa [Follows, hl] using h
  | true =>
    simp only [if_true, true_and, update_self]
    refine ⟨by simp, by simpa using h.marker, ?_, ?_, by simp⟩
    · split_ifs with hlt
      · exact .inl (set_self ..)
      · exact .inr ⟨h.key, not_lt.mp hlt⟩
    · split_ifs
      · exact (set_ne _ (r.key_ne_consumedKey _ _).symm _ _).trans h.consumedKey
      · exact h.consumedKey

lemma put_of_ne (hne : id ≠ rec.quoteID) (now : ℤ) :
    (m.put rec).1.records.lookup id = m.records.lookup id ∧
      (m.put rec).1.consumed = m.consumed ∧ (r.put db now rec).1 (r.key id) = db (r.key id) ∧
      (r.put db now rec).1 (r.consumedKey id) = db (r.consumedKey id) := by
  rw [put_eq, redis_put_eq]
  constructor
  · split_ifs
    · exact AList.lookup_insert_ne hne
    · rfl
  · split_ifs
    all_goals first
      | exact ⟨rfl, set_ne _ (fun hk => hne (r.key_inj hk)) _ _,
          set_ne _ (r.key_ne_consumedKey _ _).symm _ _⟩
      | exact ⟨rfl, rfl, rfl⟩

lemma put_answers (now : ℤ) (rec : Record) : (m.put rec).2 = (r.put db now rec).2 := by
  unfold MemoryRegistry.put RedisRegistry.put
  split_ifs
  · rfl
  · rfl
  · simp only
    split_ifs <;> rfl

lemma put_grace (rec : Record) : (m.put rec).1.grace = m.grace := by
  rw [put_eq]
  split_ifs <;> rfl

structure Agrees (r : RedisRegistry) (l : Ledger) (calls : List (ℤ × Call)) (m : MemoryRegistry)
    (db : DB) : Prop where
  grace : m.grace = r.grace
  follows : ∃ T, (∀ id, Follows r T m db id (l id)) ∧ ∀ c ∈ calls, T ≤ c.1
  chronological : Chronological calls
  once : (puts calls).Nodup
  fresh : ∀ id ∈ puts calls, l id = none

variable {call : ℤ × Call} {calls : List (ℤ × Call)}

lemma Agrees.answer_iff (h : Agrees r l (call :: calls) m db) :
    (memoryStep m call).2 = (redisStep r db call).2 ↔ Timely r l call := by
  obtain ⟨T, hf, hT⟩ := h.follows
  have hnow := hT call mem_cons_self
  obtain ⟨now, op⟩ := call
  cases op with
  | put rec => exact iff_of_true (congrArg Seen.stored (put_answers now rec)) trivial
  | markConsumed req =>
    have hid := hf req.quoteID
    show Seen.status _ = Seen.status _ ↔ ∀ life ∈ l req.quoteID, TimelyMark r now life
    rw [Seen.status.injEq]
    rcases hl : l req.quoteID with _ | life
    · rw [hl] at hid
      have hid : Untouched r m db req.quoteID := hid
      refine iff_of_true ?_ (by simp)
      have hget : db.get now (r.key req.quoteID) = none := get_of_none hid.key
      simp [MemoryRegistry.markConsumed, hid.record, RedisRegistry.markConsumed, RedisRegistry.send,
        RedisRegistry.mark, markConsumedScript, hget, decodeConsume, decodeCode]
    · rw [hl] at hid
      rw [Tracked.status_eq_iff h.grace (show Tracked r T m db _ life from hid) hnow rfl]
      simp
  | lookup id =>
    have hid := hf id
    show Seen.found _ = Seen.found _ ↔ ∀ life ∈ l id, TimelyLookup r now life
    rw [Seen.found.injEq]
    rcases hl : l id with _ | life
    · rw [hl] at hid
      have hid : Untouched r m db id := hid
      refine iff_of_true ?_ (by simp)
      have hq : db.get now (r.key id) = none := get_of_none hid.key
      have hc : db.get now (r.consumedKey id) = none := get_of_none hid.consumedKey
      simp [MemoryRegistry.lookup, hid.record, hid.marker, RedisRegistry.lookup, lookupScript, hq, hc,
        decodeLookup, decodeCode, view]
    · rw [hl] at hid
      rw [Tracked.lookup_eq_iff h.grace (show Tracked r T m db id life from hid) hnow]
      simp

lemma note_put_of_ne (hne : id ≠ rec.quoteID) (grace now : ℤ) :
    note grace l (now, .put rec) id = l id := by
  simp only [note]
  split_ifs
  · exact update_of_ne hne ..
  · rfl

lemma note_mark_of_ne (hne : id ≠ req.quoteID) (grace now : ℤ) :
    note grace l (now, .markConsumed req) id = l id := by
  simp only [note]
  rcases l req.quoteID with _ | life
  · rfl
  simp only
  split_ifs
  · exact update_of_ne hne ..
  · exact update_of_ne hne ..
  · rfl

lemma follows_step (hg : m.grace = r.grace) (hf : ∀ id, Follows r T m db id (l id))
    (hT : T ≤ call.1) (hnew : ∀ rec, call.2 = .put rec → l rec.quoteID = none)
    (htimely : Timely r l call) (id : QuoteID) :
    Follows r call.1 (memoryStep m call).1 (redisStep r db call).1 id (note r.grace l call id) := by
  obtain ⟨now, op⟩ := call
  cases op with
  | put rec =>
    by_cases hid : id = rec.quoteID
    · subst hid
      have hl := hnew rec rfl
      have h := hf rec.quoteID
      rw [hl] at h
      exact Untouched.put hl h now
    · obtain ⟨hr, hm, hk, hc⟩ := put_of_ne hid now
      rw [note_put_of_ne hid]
      exact (hf id).frame hT hr (by rw [← hm]; rfl) hk hc
  | markConsumed req =>
    by_cases hid : id = req.quoteID
    · subst hid
      have h := hf req.quoteID
      rcases hl : l req.quoteID with _ | life
      · -- an unknown quote is found by neither, and nothing changes
        rw [hl] at h
        have h : Untouched r m db req.quoteID := h
        have hget : db.get now (r.key req.quoteID) = none := get_of_none h.key
        simp only [memoryStep, redisStep, note, hl, MemoryRegistry.markConsumed, h.record,
          RedisRegistry.markConsumed, RedisRegistry.send, RedisRegistry.mark, markConsumedScript, hget]
        exact h
      · rw [hl] at h
        exact Tracked.mark hg hl h hT (htimely life hl)
    · obtain ⟨hr, hm⟩ := (m.markConsumed_outcome now req).elsewhere.2 id hid
      rw [note_mark_of_ne hid]
      refine (hf id).frame hT hr hm ?_ ?_
      · exact redis_mark_of_ne now (r.key_ne_consumedKey _ _)
      · exact redis_mark_of_ne now fun hk => hid (r.consumedKey_inj hk)
  | lookup _ => exact (hf id).frame hT rfl rfl rfl rfl

lemma memoryStep_grace (m : MemoryRegistry) (call : ℤ × Call) :
    (memoryStep m call).1.grace = m.grace := by
  obtain ⟨now, op⟩ := call
  cases op with
  | put rec => exact put_grace rec
  | markConsumed req => exact (m.markConsumed_outcome now req).elsewhere.1
  | lookup id => rfl

lemma Agrees.step (h : Agrees r l (call :: calls) m db) (htimely : Timely r l call) :
    Agrees r (note r.grace l call) calls (memoryStep m call).1 (redisStep r db call).1 := by
  obtain ⟨T, hf, hT⟩ := h.follows
  obtain ⟨hlater, hchron⟩ := pairwise_cons.mp h.chronological
  have hnew : ∀ rec, call.2 = .put rec → l rec.quoteID = none := by
    intro rec hput
    refine h.fresh rec.quoteID ?_
    obtain ⟨now, op⟩ := call
    obtain rfl : op = .put rec := hput
    exact mem_cons_self
  refine ⟨(memoryStep_grace m call).trans h.grace, ⟨call.1, ?_, hlater⟩, hchron, ?_, ?_⟩
  · exact follows_step h.grace hf (hT call mem_cons_self) hnew htimely
  · obtain ⟨now, op⟩ := call
    cases op with
    | put rec => exact (nodup_cons.mp h.once).2
    | markConsumed req => exact h.once
    | lookup id => exact h.once
  · intro id hid
    obtain ⟨now, op⟩ := call
    cases op with
    | put rec =>
      have hne : id ≠ rec.quoteID := by
        rintro rfl
        exact (nodup_cons.mp h.once).1 hid
      rw [note_put_of_ne hne]
      exact h.fresh id (mem_cons_of_mem _ hid)
    | markConsumed req =>
      have hl := h.fresh id hid
      by_cases hreq : id = req.quoteID
      · subst hreq
        simp [note, hl]
      · rw [note_mark_of_ne hreq, hl]
    | lookup _ => exact h.fresh id hid

/-- **The registries agree exactly along timely calls**, in every run at non-decreasing times that
puts every quote once. -/
theorem registries_agree_iff (pfx : String) (grace : ℤ) (calls : List (ℤ × Call))
    (hchron : Chronological calls) (honce : (puts calls).Nodup) :
    log memoryStep (newMemoryRegistry grace) calls =
        log (redisStep ⟨pfx, grace⟩) TtlStore.empty calls ↔
      Throughout (note grace) (Timely ⟨pfx, grace⟩) (fun _ => none) calls := by
  refine log_eq_log_iff (Agrees ⟨pfx, grace⟩)
    (fun g i is s t h => h.answer_iff) (fun g i is s t h hok => h.step hok) calls (fun _ => none)
    (newMemoryRegistry grace) empty ⟨rfl, ?_, hchron, honce, fun _ _ => rfl⟩
  have hempty : ∀ T id, Follows ⟨pfx, grace⟩ T (newMemoryRegistry grace) empty id none :=
    fun T id => ⟨rfl, rfl, rfl, rfl⟩
  cases calls with
  | nil => exact ⟨0, hempty 0, by simp⟩
  | cons c cs =>
    refine ⟨c.1, hempty c.1, ?_⟩
    intro c' hc'
    rcases mem_cons.mp hc' with rfl | hc'
    · exact le_rfl
    · exact (pairwise_cons.mp hchron).1 c' hc'

def timelyCalls : List (ℤ × Call) :=
  [(0, .put sampleQuote), (1 * second, .markConsumed ⟨"q1", "order-1"⟩), (2 * second, .lookup "q1"),
    (3 * second, .markConsumed ⟨"q1", "order-2"⟩), (11 * second, .lookup "q1")]

theorem timelyCalls_agree :
    log memoryStep (newMemoryRegistry (10 * second)) timelyCalls =
      log (redisStep ⟨"wtg", 10 * second⟩) TtlStore.empty timelyCalls := by
  refine (registries_agree_iff "wtg" (10 * second) timelyCalls (by decide) (by decide)).mpr ?_
  decide +kernel

def markerGone : List (ℤ × Call) :=
  [(0, .put sampleQuote), (1 * second, .markConsumed ⟨"q1", "order-1"⟩), (3 * second, .lookup "q1")]

theorem markerGone_disagree :
    Chronological markerGone ∧ (puts markerGone).Nodup ∧
      ((log memoryStep (newMemoryRegistry 0) markerGone).map Prod.snd)[2]? =
        some (.found (some (true, true, "order-1"))) ∧
      ((log (redisStep ⟨"wtg", 0⟩) TtlStore.empty markerGone).map Prod.snd)[2]? =
        some (.found (some (true, false, ""))) := by
  refine ⟨by decide, by decide, ?_, ?_⟩
  · rfl
  · rfl

end Wtg.QuoteId.Agreement
