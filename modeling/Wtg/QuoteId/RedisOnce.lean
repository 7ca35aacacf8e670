import Wtg.QuoteId.Redis

/-! # When a quote in Redis is used only once

The script that consumes a quote is atomic, so while the marker of a consumption is there no second
one succeeds. -/

namespace Wtg.QuoteId.RedisOnce

open Lib Lib.Runs QuoteId.Registry QuoteId.Redis QuoteId.Redis.RedisRegistry List Option TtlStore
  RedisRegistry

variable (r : RedisRegistry)

def Single : ℤ × Op → Prop
  | (_, .markConsumedMany its) => ∃ it, its = [it]
  | _ => True

lemma single_items (call : ℤ × Op) : ∀ i ∈ items call, Single i := by
  obtain ⟨now, op⟩ := call
  intro i hi
  cases op with
  | markConsumedMany its =>
    obtain ⟨it, -, rfl⟩ := mem_map.mp hi
    exact ⟨it, rfl⟩
  | _ =>
    obtain rfl := mem_singleton.mp hi
    trivial

inductive Effect (db : DB) : ℤ × Op → DB → Results → Prop
  | put (now : ℤ) (rec : Record) : Effect db (now, .put rec)
      (db.set (r.key rec.quoteID) (.record rec) (some (rec.validUntil + r.grace))) []
  | marks {call : ℤ × Op} {db' : DB} {rs : Results} (req : ConsumeRequest)
      (hm : Marks r db call.1 req db') (hput : ∀ id, putsOf id [call] = [])
      (hrs : rs = [] ∨ ∃ x, rs = [(req, x)]) : Effect db call db' rs
  | deletes (now : ℤ) (id : QuoteID) : Effect db (now, .delete id)
      ((db.del (r.key id)).del (r.consumedKey id)) []
  | none {call : ℤ × Op} {rs : Results} (hrs : ∀ x ∈ rs, x.2.status ≠ .ok) : Effect db call db rs

lemma effect_put (db : DB) (now : ℤ) (rec : Record) :
    Effect r db (now, .put rec) (r.put db now rec).1 [] := by
  unfold put
  split_ifs
  · exact .none (by simp)
  · exact .none (by simp)
  · simp only
    split_ifs
    · exact .none (by simp)
    · have h : now + (rec.validUntil - now + r.grace) = rec.validUntil + r.grace := by omega
      rw [h]
      exact .put now rec

lemma effect_markConsumed (db : DB) (now : ℤ) (req : ConsumeRequest) (d : Delivery) :
    Effect r db (now, .markConsumed req d) (r.step db (now, .markConsumed req d)).1
      (r.step db (now, .markConsumed req d)).2 := by
  rcases send_cases r db now req d with hm | ⟨h1, h2⟩
  · refine .marks req hm (fun id => rfl) ?_
    simp only [step]
    rcases (r.markConsumed db now req d).2 with _ | x
    · exact .inl rfl
    · exact .inr ⟨x, rfl⟩
  · have hdb : (r.step db (now, .markConsumed req d)).1 = db := h1
    rw [hdb]
    refine .none fun x hx hok => ?_
    simp only [step, markConsumed, mem_toList,
      map_eq_some_iff] at hx
    obtain ⟨y, hy, rfl⟩ := hx
    obtain ⟨arr, harr, hdec⟩ := bind_eq_some_iff.mp hy
    exact h2 arr harr (decodeConsume_ok hdec hok)

lemma effect_markItem (db : DB) (now : ℤ) (it : ConsumeRequest × Delivery) :
    Effect r db (now, .markConsumedMany [it]) (r.step db (now, .markConsumedMany [it])).1
      (r.step db (now, .markConsumedMany [it])).2 := by
  rcases send_cases r db now it.1 it.2 with hm | ⟨h1, h2⟩
  · exact .marks it.1 hm (fun id => rfl) (.inr ⟨_, rfl⟩)
  · have hdb : (r.step db (now, .markConsumedMany [it])).1 = db := h1
    rw [hdb]
    refine .none fun x hx hok => ?_
    have hx : x = (it.1, (r.markItem db now it).2) := mem_singleton.mp hx
    subst hx
    rcases harr : (r.send db now it.1 it.2).2 with _ | arr
    · simp only [markItem, harr] at hok; cases hok
    · simp only [markItem, harr] at hok
      exact h2 arr harr (decodeConsumeItem_ok hok)

lemma effect_step {call : ℤ × Op} (hs : Single call) (db : DB) :
    Effect r db call (r.step db call).1 (r.step db call).2 := by
  obtain ⟨now, op⟩ := call
  cases op with
  | put rec => exact effect_put r db now rec
  | markConsumed req d => exact effect_markConsumed r db now req d
  | markConsumedMany its =>
    obtain ⟨it, rfl⟩ := hs
    exact effect_markItem r db now it
  | delete id =>
    simp only [step, delete]
    split_ifs
    · exact .none (by simp)
    · exact .deletes now id
  | get id => exact .none (by simp [step])
  | lookup id => exact .none (by simp [step])
  | lookupMany ids => exact .none (by simp [step])
  | consumed id => exact .none (by simp [step])

variable {r} {p : ℤ} {rec : Record} {h : List ((ℤ × Op) × Results)} {db db' : DB}
variable {call : ℤ × Op} {rs : Results}

def Put (p : ℤ) (rec : Record) (h : List ((ℤ × Op) × Results)) : Prop :=
  putsOf rec.quoteID (h.map Prod.fst) = [(p, rec)]

/-- The calls so far, the new one included, put nothing under the id but `rec` at `p`. -/
def Allowed (p : ℤ) (rec : Record) (calls : List (ℤ × Op)) : Prop :=
  putsOf rec.quoteID calls <+: [(p, rec)]

lemma putsOf_append (id : QuoteID) (a b : List (ℤ × Op)) :
    putsOf id (a ++ b) = putsOf id a ++ putsOf id b := filterMap_append

lemma Put.extend (hp : Put p rec h) (ha : Allowed p rec (h.map Prod.fst ++ [call])) :
    Put p rec (h ++ [(call, rs)]) := by
  have hpre : putsOf rec.quoteID (h.map Prod.fst) <+:
      putsOf rec.quoteID (h.map Prod.fst ++ [call]) := by
    rw [putsOf_append]; exact prefix_append _ _
  unfold Put at hp ⊢
  rw [hp] at hpre
  rw [map_append]
  exact (ha.eq_of_length (le_antisymm ha.length_le hpre.length_le))

lemma Put.le (hp : Put p rec h) (hc : Chronological (h.map Prod.fst ++ [call])) : p ≤ call.1 := by
  have hmem : (p, rec) ∈ putsOf rec.quoteID (h.map Prod.fst) := by rw [hp]; simp
  obtain ⟨⟨now, op⟩, hin, hop⟩ := mem_filterMap.mp hmem
  have hle := hc.le_last hin
  cases op with
  | put rec' =>
    simp only [ite_none_right_eq_some, some.injEq, Prod.mk.injEq] at hop
    rw [← hop.2.1]; exact hle
  | _ => cases hop

def Shows (r : RedisRegistry) (id : QuoteID) (db : DB) (e : ConsumeEvent) : Prop :=
  db (r.key id) = none ∨ ∃ v, db (r.consumedKey id) = some (v, some (e.time + markerTTL r))

structure Ledger (r : RedisRegistry) (p : ℤ) (rec : Record) (h : List ((ℤ × Op) × Results))
    (db : DB) : Prop where
  record : ∀ v e, db (r.key rec.quoteID) = some (v, e) → v = .record rec ∧ Put p rec h
  shown : ∀ e ∈ h.flatMap events, e.IsOk rec.quoteID →
    Put p rec h ∧ p ≤ e.time ∧ Shows r rec.quoteID db e
  once : UsedOnce rec.quoteID (h.flatMap events)

lemma Ledger.init : Ledger r p rec [] empty where
  record := by simp [empty]
  shown := by simp
  once := .nil

lemma usedOnce_append {id : QuoteID} {a b : List ConsumeEvent} (ha : UsedOnce id a)
    (hb : UsedOnce id b) (hab : (∀ e ∈ a, ¬ e.IsOk id) ∨ ∀ e ∈ b, ¬ e.IsOk id) :
    UsedOnce id (a ++ b) := by
  refine pairwise_append.mpr ⟨ha, hb, fun e he e' he' hee => ?_⟩
  rcases hab with hab | hab
  · exact hab e he hee.1
  · exact hab e' he' hee.2

lemma usedOnce_of_none {id : QuoteID} {a : List ConsumeEvent} (ha : ∀ e ∈ a, ¬ e.IsOk id) :
    UsedOnce id a :=
  List.Pairwise.imp_of_mem (R := fun _ _ => True) (fun he _ _ hee => ha _ he hee.1)
    (pairwise_of_forall fun _ _ => trivial)

section

variable (L : Ledger r p rec h db)
include L

lemma Ledger.frame (ha : Allowed p rec (h.map Prod.fst ++ [call]))
    (hdb : db' (r.key rec.quoteID) = none ∨ (db' (r.key rec.quoteID) = db (r.key rec.quoteID) ∧
      db' (r.consumedKey rec.quoteID) = db (r.consumedKey rec.quoteID)))
    (hev : ∀ e ∈ events (call, rs), ¬ e.IsOk rec.quoteID) :
    Ledger r p rec (h ++ [(call, rs)]) db' where
  record v e hv := by
    rcases hdb with hdb | ⟨hdb, -⟩
    · rw [hdb] at hv; cases hv
    · obtain ⟨h1, h2⟩ := L.record v e (hdb ▸ hv)
      exact ⟨h1, h2.extend ha⟩
  shown e he hok := by
    rw [flatMap_append, flatMap_singleton] at he
    rcases mem_append.mp he with he | he
    swap
    · exact absurd hok (hev e he)
    obtain ⟨h1, h2, h3⟩ := L.shown e he hok
    refine ⟨h1.extend ha, h2, ?_⟩
    rcases hdb with hdb | ⟨hk, hc⟩
    · exact .inl hdb
    · unfold Shows; rwa [hk, hc]
  once := by
    rw [flatMap_append, flatMap_singleton]
    exact usedOnce_append L.once (usedOnce_of_none hev) (.inr hev)

lemma Ledger.store {now : ℤ} {rec' : Record} {v : ℤ} (hid : rec'.quoteID = rec.quoteID)
    (ha : Allowed p rec (h.map Prod.fst ++ [(now, .put rec')])) :
    Ledger r p rec (h ++ [((now, .put rec'), [])])
      (db.set (r.key rec'.quoteID) (.record rec') (some v)) := by
  -- the calls so far have not put the quote, so none of them consumed it
  have hcalls : putsOf rec.quoteID (h.map Prod.fst) = [] ∧ (now, rec') = (p, rec) := by
    have hone : putsOf rec.quoteID [(now, Op.put rec')] = [(now, rec')] := by simp [putsOf, hid]
    unfold Allowed at ha
    rw [putsOf_append, hone] at ha
    have hlen := ha.length_le
    simp only [length_append, length_singleton] at hlen
    have hnil : putsOf rec.quoteID (h.map Prod.fst) = [] :=
      eq_nil_of_length_eq_zero (by omega)
    rw [hnil, nil_append] at ha
    exact ⟨hnil, by simpa using ha⟩
  obtain ⟨hnil, hpr⟩ := hcalls
  obtain ⟨rfl, rfl⟩ := Prod.mk.inj hpr
  have hput : Put now rec' (h ++ [((now, .put rec'), [])]) := by
    unfold Put
    rw [map_append, putsOf_append, hnil]
    simp [putsOf]
  have hnone : ∀ e ∈ h.flatMap events, ¬ e.IsOk rec'.quoteID := by
    intro e he hok
    have h1 := (L.shown e he hok).1
    unfold Put at h1
    rw [hnil] at h1; cases h1
  refine ⟨fun w e hw => ?_, fun e he hok => ?_, ?_⟩
  · rw [set_self] at hw
    cases hw
    exact ⟨rfl, hput⟩
  · rw [flatMap_append] at he
    rcases mem_append.mp he with he | he
    · exact absurd hok (hnone e he)
    · simp [events] at he
  · rw [flatMap_append]
    refine usedOnce_append L.once (usedOnce_of_none ?_) (.inl hnone)
    simp [events]

lemma Ledger.fresh {req : ConsumeRequest}
    (hle : luaNumber rec.validUntil ≤ luaNumber (p + markerTTL r))
    (hm : Marks r db call.1 req db') (hid : req.quoteID = rec.quoteID) :
    Put p rec h ∧ ∀ e ∈ h.flatMap events, ¬ e.IsOk rec.quoteID := by
  obtain ⟨⟨v, validUntil, hv, hval, hlt⟩, hun, -⟩ := hm
  rw [hid] at hv hun
  obtain ⟨x, hx, -⟩ := get_eq_some.mp hv
  obtain ⟨rfl, hput⟩ := L.record v x hx
  obtain rfl : rec.validUntil = validUntil := some.inj hval
  refine ⟨hput, fun e he hok => ?_⟩
  obtain ⟨-, hpe, hshow⟩ := L.shown e he hok
  rcases hshow with hshow | ⟨w, hw⟩
  · rw [hx] at hshow; cases hshow
  · have hexp : e.time + markerTTL r ≤ call.1 := by
      by_contra hlt'
      rw [get_of_entry hw (by omega)] at hun
      cases hun
    have h1 : luaNumber (p + markerTTL r) ≤ luaNumber call.1 := luaNumber_mono (by omega)
    omega

lemma Ledger.consume {req : ConsumeRequest} (ha : Allowed p rec (h.map Prod.fst ++ [call]))
    (hc : Chronological (h.map Prod.fst ++ [call]))
    (hle : luaNumber rec.validUntil ≤ luaNumber (p + markerTTL r))
    (hm : Marks r db call.1 req db') (hid : req.quoteID = rec.quoteID)
    (hrs : rs = [] ∨ ∃ x, rs = [(req, x)]) : Ledger r p rec (h ++ [(call, rs)]) db' := by
  obtain ⟨hput, hnone⟩ := L.fresh hle hm hid
  have hev : ∀ e ∈ events (call, rs), e.time = call.1 := by
    intro e he
    obtain ⟨x, -, rfl⟩ := mem_map.mp he
    rfl
  refine ⟨fun v e hv => ?_, fun e he hok => ?_, ?_⟩
  · rw [hm.eq, set_ne _ (key_ne_consumedKey r _ _)] at hv
    exact ⟨(L.record v e hv).1, hput.extend ha⟩
  · rw [flatMap_append, flatMap_singleton] at he
    rcases mem_append.mp he with he | he
    · exact absurd hok (hnone e he)
    · refine ⟨hput.extend ha, hev e he ▸ hput.le hc, .inr ⟨.text req.consumerID, ?_⟩⟩
      rw [hm.eq, hid, set_self, hev e he]
  · rw [flatMap_append, flatMap_singleton]
    refine usedOnce_append L.once ?_ (.inl hnone)
    rcases hrs with rfl | ⟨x, rfl⟩
    · exact .nil
    · exact pairwise_singleton _ _

lemma Ledger.step (hs : Single call)
    (hle : luaNumber rec.validUntil ≤ luaNumber (p + markerTTL r))
    (ha : Allowed p rec (h.map Prod.fst ++ [call]))
    (hc : Chronological (h.map Prod.fst ++ [call])) :
    Ledger r p rec (h ++ [(call, (r.step db call).2)]) (r.step db call).1 := by
  generalize hdb : (r.step db call).1 = db'
  generalize hrs : (r.step db call).2 = rs
  have heff : Effect r db call db' rs := hdb ▸ hrs ▸ effect_step r hs db
  cases heff with
  | put now rec' =>
    by_cases hid : rec'.quoteID = rec.quoteID
    · exact L.store hid ha
    · refine L.frame ha (.inr ⟨set_ne _ ?_ .., set_ne _ ?_ ..⟩) (by simp [events])
      · exact fun hk => hid (key_inj r hk).symm
      · exact (key_ne_consumedKey r _ _).symm
  | marks req hm hput hx =>
    by_cases hid : req.quoteID = rec.quoteID
    · exact L.consume ha hc hle hm hid hx
    · refine L.frame ha (.inr ⟨?_, ?_⟩) ?_
      · rw [hm.eq, set_ne _ (key_ne_consumedKey r _ _)]
      · rw [hm.eq, set_ne _ fun hk => hid (consumedKey_inj r hk).symm]
      · rintro e he ⟨hok, -⟩
        rcases hx with rfl | ⟨x, rfl⟩
        · simp [events] at he
        · obtain rfl := mem_singleton.mp he
          exact hid hok
  | deletes now id =>
    refine L.frame ha ?_ (by simp [events])
    by_cases hid : id = rec.quoteID
    · left
      rw [del_ne _ (key_ne_consumedKey r _ _), hid, del_self]
    · right
      have hk : r.key rec.quoteID ≠ r.key id := fun hk => hid (key_inj r hk).symm
      have hc : r.consumedKey rec.quoteID ≠ r.consumedKey id :=
        fun hk => hid (consumedKey_inj r hk).symm
      rw [del_ne _ (key_ne_consumedKey r _ _), del_ne _ hk, del_ne _ hc,
        del_ne _ (key_ne_consumedKey r _ _).symm]
      exact ⟨rfl, rfl⟩
  | none hx =>
    refine L.frame ha (.inr ⟨rfl, rfl⟩) ?_
    rintro e he ⟨-, hok⟩
    obtain ⟨x, hmem, rfl⟩ := mem_map.mp he
    exact hx x hmem hok

end

lemma ledger_run (hle : luaNumber rec.validUntil ≤ luaNumber (p + markerTTL r))
    (ops : List (ℤ × Op)) (hs : ∀ i ∈ ops, Single i) (hc : Chronological ops)
    (ha : Allowed p rec ops) :
    Ledger r p rec (log r.step empty ops) (final r.step empty ops) := by
  refine run_history (fun h db => Ledger r p rec h db)
    (fun calls => (∀ i ∈ calls, Single i) ∧ Chronological calls ∧ Allowed p rec calls)
    Ledger.init ?_ ops ?_
  · intro h db i L hg
    exact L.step (hg.1 i (by simp)) hle hg.2.2 hg.2.1
  · intro q hq
    refine ⟨fun i hi => hs i (hq.subset hi), hc.of_isPrefix hq, ?_⟩
    obtain ⟨q', rfl⟩ := hq
    unfold Allowed at ha
    rw [putsOf_append] at ha
    exact (prefix_append _ _).trans ha

lemma used_once_of_marker (hle : luaNumber rec.validUntil ≤ luaNumber (p + markerTTL r))
    {ops : List (ℤ × Op)} (hc : Chronological ops) (hp : putsOf rec.quoteID ops = [(p, rec)]) :
    UsedOnce rec.quoteID (r.history ops) := by
  have ha : Allowed p rec (ops.flatMap items) := by
    unfold Allowed
    rw [putsOf_items, hp]
  have L := ledger_run hle (ops.flatMap items)
    (fun i hi => by
      obtain ⟨call, -, hi⟩ := mem_flatMap.mp hi
      exact single_items call i hi)
    (chronological_items hc) ha
  rw [← history_items]
  exact L.once

def twice (r : RedisRegistry) (p : ℤ) (rec : Record) : List (ℤ × Op) :=
  [(p, .put rec), (p, .markConsumed ⟨rec.quoteID, "c1"⟩ .answered),
    (p + markerTTL r, .markConsumed ⟨rec.quoteID, "c2"⟩ .answered)]

lemma markConsumed_ok {now e : ℤ} (consumer : String)
    (hq : db (r.key rec.quoteID) = some (.record rec, some e)) (he : now < e)
    (hv : luaNumber now < luaNumber rec.validUntil)
    (hc : db.get now (r.consumedKey rec.quoteID) = none) :
    r.step db (now, .markConsumed ⟨rec.quoteID, consumer⟩ .answered) =
      (db.set (r.consumedKey rec.quoteID) (.text consumer) (some (now + markerTTL r)),
        [(⟨rec.quoteID, consumer⟩, { status := .ok, record := rec })]) := by
  have hm : r.mark db now ⟨rec.quoteID, consumer⟩ =
      (db.set (r.consumedKey rec.quoteID) (.text consumer) (some (now + markerTTL r)),
        [.int 1, .str (.record rec)]) := by
    simp only [mark, markConsumedScript, get_of_entry hq he, Value.validUntil,
      if_neg (not_le.mpr hv), setNX, hc]
    rfl
  simp only [step, markConsumed, send, hm]
  rfl

lemma twice_ok (hg : 0 ≤ r.grace) (hw : rec.issuedAt < rec.validUntil) (hid : rec.quoteID ≠ "")
    (hlt : luaNumber (p + markerTTL r) < luaNumber rec.validUntil) :
    ¬ UsedOnce rec.quoteID (r.history (twice r p rec)) := by
  have hT := markerTTL_pos r
  have hvu : p + markerTTL r < rec.validUntil := by
    by_contra hge
    have := luaNumber_mono (not_lt.mp hge)
    omega
  have hlt0 : luaNumber p < luaNumber rec.validUntil :=
    lt_of_le_of_lt (luaNumber_mono (by omega)) hlt
  obtain ⟨db₁, hdb₁⟩ : ∃ db₁ : DB, db₁ = empty.set (r.key rec.quoteID) (.record rec)
    (some (p + (rec.validUntil - p + r.grace))) := ⟨_, rfl⟩
  have hput : r.step empty (p, .put rec) = (db₁, []) := by
    simp only [step, put, if_neg (not_le.mpr hw), if_neg hid, hdb₁]
    rw [if_neg (by omega)]
  have hrec₁ : db₁ (r.key rec.quoteID) =
      some (.record rec, some (p + (rec.validUntil - p + r.grace))) := by
    rw [hdb₁, set_self]
  have hunmarked : db₁.get p (r.consumedKey rec.quoteID) = none := by
    refine get_of_none ?_
    rw [hdb₁, set_ne _ (key_ne_consumedKey r _ _).symm]
    rfl
  have h1 := markConsumed_ok "c1" hrec₁ (by omega) hlt0 hunmarked
  obtain ⟨db₂, hdb₂⟩ : ∃ db₂ : DB, db₂ = db₁.set (r.consumedKey rec.quoteID) (.text "c1")
    (some (p + markerTTL r)) := ⟨_, rfl⟩
  have hrec₂ : db₂ (r.key rec.quoteID) =
      some (.record rec, some (p + (rec.validUntil - p + r.grace))) := by
    rw [hdb₂, set_ne _ (key_ne_consumedKey r _ _), hrec₁]
  have hexpired : db₂.get (p + markerTTL r) (r.consumedKey rec.quoteID) = none :=
    get_of_expired (by rw [hdb₂, set_self]) le_rfl
  have h2 := markConsumed_ok "c2" hrec₂ (by omega) hlt hexpired
  rw [← hdb₂] at h1
  simp [UsedOnce, history, twice, hput, h1, h2, events, ConsumeEvent.IsOk]

/-- **Use only once, on Redis**: exactly if the marker of a consumption at `p` lives, as the script
compares times, until the quote is no longer valid. -/
theorem redis_used_once_iff (r : RedisRegistry) (rec : Record) (p : ℤ) (hg : 0 ≤ r.grace)
    (hw : rec.issuedAt < rec.validUntil) (hid : rec.quoteID ≠ "") :
    (∀ ops, Chronological ops → putsOf rec.quoteID ops = [(p, rec)] →
      UsedOnce rec.quoteID (r.history ops)) ↔
    luaNumber rec.validUntil ≤ luaNumber (p + r.ttlSec * second) := by
  rw [← markerTTL]
  constructor
  · intro hall
    by_contra hlt
    refine twice_ok hg hw hid (not_le.mp hlt) (hall _ ?_ ?_)
    · have hT := markerTTL_pos r
      simp only [Chronological, twice, pairwise_cons, mem_cons, not_mem_nil,
        or_false, forall_eq_or_imp, forall_eq]
      exact ⟨⟨le_rfl, by omega⟩, by omega, by simp, .nil⟩
    · simp [twice, putsOf]
  · exact fun hle ops hc hp => used_once_of_marker hle hc hp

theorem redis_used_once_grace :
    RedisRegistry.ttlSec ⟨"quote", 10 * second⟩ = 11 ∧
      ∀ ops, Chronological ops → putsOf "q1" ops = [(0, sampleQuote)] →
        UsedOnce "q1" (RedisRegistry.history ⟨"quote", 10 * second⟩ ops) :=
  ⟨by decide, (redis_used_once_iff ⟨"quote", 10 * second⟩ sampleQuote 0 (by decide) (by decide)
    (by decide)).mpr (by decide)⟩

theorem redis_used_twice :
    Chronological (twice ⟨"quote", 0⟩ 0 sampleQuote) ∧
      putsOf "q1" (twice ⟨"quote", 0⟩ 0 sampleQuote) = [(0, sampleQuote)] ∧
      (RedisRegistry.history ⟨"quote", 0⟩ (twice ⟨"quote", 0⟩ 0 sampleQuote)).map
        (fun e => (e.time, e.request.consumerID, e.result.status)) =
        [(0, "c1", .ok), (second, "c2", .ok)] := by
  decide

end Wtg.QuoteId.RedisOnce
