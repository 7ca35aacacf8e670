import Mathlib.Algebra.Order.Field.Rat
import Wtg.Lib.Runs
import Wtg.Price.Best

/-! # What the best quote promises

The loop of `recomputeLocked` keeps the highest bid and the lowest ask of the sources it has met,
with the sizes of the sources they came from, and the source heard last (`Scanned`). -/

namespace Wtg.Price.BestSound

open Lib Lib.Runs Quote.Envelope Price.Best List Option AList BestConsumer

variable {R : Type*} [LinearOrder R] [Zero R]

structure Scanned (l : List (SourceQuote R)) (s : Scan R) : Prop where
  first : s.first = true ↔ l = []
  srcCount : s.srcCount = l.length
  bid_mem : l ≠ [] → ∃ p ∈ l, p.bid = s.bid ∧ p.bidSize = s.bidSize
  le_bid : ∀ p ∈ l, p.bid ≤ s.bid
  ask_mem : l ≠ [] → ∃ p ∈ l, p.ask = s.ask ∧ p.askSize = s.askSize
  ask_le : ∀ p ∈ l, s.ask ≤ p.ask
  newest_none : s.newest = none ↔ l = []
  newest : ∀ n, s.newest = some n → n ∈ l ∧ ∀ p ∈ l, p.ts ≤ n.ts

lemma scanned_start : Scanned [] (Scan.start : Scan R) where
  first := by simp [Scan.start]
  srcCount := rfl
  bid_mem := fun h => absurd rfl h
  le_bid := by simp
  ask_mem := fun h => absurd rfl h
  ask_le := by simp
  newest_none := by simp [Scan.start]
  newest := by simp [Scan.start]

lemma prices_first (s : Scan R) (sq : SourceQuote R) : (s.prices sq).first = false := by
  by_cases hf : s.first = true <;> by_cases hb : s.bid < sq.bid <;> by_cases ha : sq.ask < s.ask <;>
    simp [Scan.prices, hf, hb, ha]

lemma newer_spec (o : Option (SourceQuote R)) (sq : SourceQuote R) :
    (newer o sq = sq ∨ o = some (newer o sq)) ∧ sq.ts ≤ (newer o sq).ts ∧
      ∀ n, o = some n → n.ts ≤ (newer o sq).ts := by
  rcases o with _ | n
  · exact ⟨.inl rfl, le_refl _, fun _ h => absurd h (by simp)⟩
  · by_cases h : n.ts < sq.ts
    · rw [newer, if_pos h]
      refine ⟨.inl rfl, le_refl _, fun n' hn' => ?_⟩
      obtain rfl := some.inj hn'
      omega
    · rw [newer, if_neg h]
      refine ⟨.inr rfl, by omega, fun n' hn' => ?_⟩
      obtain rfl := some.inj hn'
      exact le_refl _

lemma best_concat {α β γ : Type*} [LinearOrder β] {l : List α} {f : α → β} {g : α → γ} {x : α}
    {b b' : β} {c c' : γ} (hmem : l ≠ [] → ∃ p ∈ l, f p = b ∧ g p = c) (hle : ∀ p ∈ l, f p ≤ b)
    (hnew : (b', c') = if l = [] ∨ b < f x then (f x, g x) else (b, c)) :
    (∃ p ∈ l ++ [x], f p = b' ∧ g p = c') ∧ ∀ p ∈ l ++ [x], f p ≤ b' := by
  split_ifs at hnew with htake
  · cases hnew
    refine ⟨⟨x, by simp, rfl, rfl⟩, fun p hp => ?_⟩
    rcases mem_append.mp hp with hp | hp
    · rcases htake with rfl | hlt
      · exact absurd hp not_mem_nil
      · exact (hle p hp).trans hlt.le
    · exact le_of_eq (by rw [mem_singleton.mp hp])
  · obtain ⟨hne, hlt⟩ := not_or.mp htake
    cases hnew
    obtain ⟨p, hp, heq⟩ := hmem hne
    refine ⟨⟨p, mem_append_left _ hp, heq⟩, fun p hp => ?_⟩
    rcases mem_append.mp hp with hp | hp
    · exact hle p hp
    · rw [mem_singleton.mp hp]
      exact not_lt.mp hlt

variable {l : List (SourceQuote R)}

lemma Scanned.prices {s : Scan R} (h : Scanned l s) (sq : SourceQuote R) :
    ((s.prices sq).bid, (s.prices sq).bidSize) =
        (if l = [] ∨ s.bid < sq.bid then (sq.bid, sq.bidSize) else (s.bid, s.bidSize)) ∧
      ((s.prices sq).ask, (s.prices sq).askSize) =
        if l = [] ∨ sq.ask < s.ask then (sq.ask, sq.askSize) else (s.ask, s.askSize) := by
  simp only [← h.first]
  by_cases hf : s.first = true
  · simp [Scan.prices, hf]
  · by_cases hb : s.bid < sq.bid <;> by_cases ha : sq.ask < s.ask <;>
      simp [Scan.prices, hf, hb, ha]

lemma Scanned.take {s : Scan R} (h : Scanned l s) (sq : SourceQuote R) :
    Scanned (l ++ [sq]) (s.take sq) := by
  have hbid := best_concat h.bid_mem h.le_bid (h.prices sq).1
  -- the lowest ask is the highest in the reversed order
  have hask := best_concat (β := Rᵒᵈ) (f := fun p : SourceQuote R => .toDual p.ask) h.ask_mem
    h.ask_le (h.prices sq).2
  refine ⟨by simp [Scan.take, prices_first], by simp [Scan.take, h.srcCount], fun _ => hbid.1,
    hbid.2, fun _ => hask.1, hask.2, by simp [Scan.take], fun n hn => ?_⟩
  obtain rfl : newer s.newest sq = n := some.inj hn
  obtain ⟨hmem, hsq, hold⟩ := newer_spec s.newest sq
  constructor
  · rcases hmem with hmem | hmem
    · rw [hmem]; simp
    · exact mem_append_left _ (h.newest _ hmem).1
  · intro p hp
    rcases mem_append.mp hp with hp | hp
    · rcases hs : s.newest with _ | n
      · exact absurd hp (by simp [h.newest_none.mp hs])
      · have hpn := (h.newest n hs).2 p hp
        have hnn := hold n hs
        rw [hs] at hnn
        omega
    · rw [mem_singleton.mp hp]
      exact hsq

lemma scanned_foldl (l : List (SourceQuote R)) : Scanned l (l.foldl Scan.take .start) := by
  induction l using reverseRecOn with
  | nil => exact scanned_start
  | append_singleton l sq ih =>
    rw [foldl_append, foldl_cons, foldl_nil]
    exact ih.take sq

variable (maxStaleness now : ℤ) (sqs : List (SourceQuote R))

lemma scan_eq :
    scan maxStaleness now sqs =
      (sqs.filter (·.active maxStaleness now)).foldl Scan.take .start := by
  rw [scan, foldl_filter]

structure Extremes (l : List (SourceQuote R)) (best : BestQuote R) : Prop where
  bid_mem : ∃ p ∈ l, p.bid = best.bid ∧ p.bidSize = best.bidSize
  le_bid : ∀ p ∈ l, p.bid ≤ best.bid
  ask_mem : ∃ p ∈ l, p.ask = best.ask ∧ p.askSize = best.askSize
  ask_le : ∀ p ∈ l, best.ask ≤ p.ask

structure Newest (l : List (SourceQuote R)) (best : BestQuote R) (n : SourceQuote R) : Prop where
  mem : n ∈ l
  last : ∀ p ∈ l, p.ts ≤ n.ts
  bid : best.bid = n.bid
  ask : best.ask = n.ask
  bidSize : best.bidSize = n.bidSize
  askSize : best.askSize = n.askSize

def Crossed (l : List (SourceQuote R)) : Prop := ∃ p ∈ l, ∃ q ∈ l, q.ask < p.bid

lemma recompute_cases :
    let l := sqs.filter (·.active maxStaleness now)
    let best := recompute maxStaleness now sqs
    (l = [] ∧ best = ⟨0, 0, 0, 0, 0⟩) ∨
      (l ≠ [] ∧ best.srcCount ≠ 0 ∧ ¬ Crossed l ∧ Extremes l best) ∨
      (l ≠ [] ∧ best.srcCount ≠ 0 ∧ Crossed l ∧ ∃ n, Newest l best n) := by
  intro l best
  have hscan : scan maxStaleness now sqs = l.foldl Scan.take .start := scan_eq maxStaleness now sqs
  have h := scanned_foldl l
  by_cases hl : l = []
  · refine .inl ⟨hl, ?_⟩
    rw [hl] at hscan
    simp [best, recompute, hscan, Scan.start]
  obtain ⟨n, hn⟩ := ne_none_iff_exists'.mp fun hnone => hl (h.newest_none.mp hnone)
  obtain ⟨pb, hpb, hbid, hbs⟩ := h.bid_mem hl
  obtain ⟨pa, hpa, hask, has⟩ := h.ask_mem hl
  have hpos : 0 < l.length := length_pos_of_ne_nil hl
  have hcount := h.srcCount
  generalize l.foldl Scan.take .start = s at *
  by_cases hc : 1 < s.srcCount ∧ s.ask < s.bid
  · have hbest : best = ⟨n.bid, n.ask, n.bidSize, n.askSize, -s.srcCount⟩ := by
      simp only [best, recompute, hscan, hn, if_pos hc]
    obtain ⟨hmem, hlast⟩ := h.newest n hn
    refine .inr (.inr ⟨hl, ?_, ⟨pb, hpb, pa, hpa, by rw [hbid, hask]; exact hc.2⟩, n, ?_⟩)
    · rw [hbest]
      show -s.srcCount ≠ 0
      omega
    · rw [hbest]
      exact ⟨hmem, hlast, rfl, rfl, rfl, rfl⟩
  · have hbest : best = ⟨s.bid, s.ask, s.bidSize, s.askSize, s.srcCount⟩ := by
      simp only [best, recompute, hscan, hn, if_neg hc]
    refine .inr (.inl ⟨hl, ?_, ?_, ?_⟩)
    · rw [hbest]
      show s.srcCount ≠ 0
      omega
    · rintro ⟨p, hp, q, hq, hlt⟩
      have hcross : s.ask < s.bid := (h.ask_le q hq).trans_lt (hlt.trans_le (h.le_bid p hp))
      -- a single quote does not cross itself
      have htwo : 1 < l.length := by
        by_contra hone
        have hlen : l.length = 1 := by omega
        obtain ⟨x, hx⟩ := length_eq_one_iff.mp hlen
        rw [hx, mem_singleton] at hp hq
        rw [hp, hq] at hlt
        exact absurd x.le (not_le.mpr hlt)
      exact hc ⟨by omega, hcross⟩
    · rw [hbest]
      exact ⟨⟨pb, hpb, hbid, hbs⟩, h.le_bid, ⟨pa, hpa, hask, has⟩, h.ask_le⟩


/-! ## Whole runs -/

section

variable (wire : Wire R)

def quoteOf (i : Input R) : Option (SourceQuote R) :=
  (accept wire i.tick).map fun env => toSourceQuote env i.clock.cached

def latest (is : List (Input R)) (symbol source : String) : Option (SourceQuote R) :=
  ((is.filter fun i => i.tick.symbol = symbol ∧ i.tick.source = source).filterMap
    (quoteOf wire)).getLast?

/-- A source of a symbol with its last accepted quote, if that is not too old at `now`. -/
def Active (maxStaleness now : ℤ) (is : List (Input R)) (symbol source : String)
    (p : SourceQuote R) : Prop :=
  latest wire is symbol source = some p ∧ p.active maxStaleness now = true

def DistinctReceipts (is : List (Input R)) : Prop :=
  ((is.filter fun i => (accept wire i.tick).isSome).map fun i => i.clock.cached).Nodup

/-- **What an emitted best quote promises** about the active sources. -/
structure Sound (active : String → SourceQuote R → Prop) (env : JSONEnvelope R) : Prop where
  pos : 0 < env.bid
  le : env.bid ≤ env.ask
  uncrossed : (∀ s p t q, active s p → active t q → p.bid ≤ q.ask) →
    IsGreatest {x | ∃ s p, active s p ∧ p.bid = x} env.bid ∧
      (∃ s p, active s p ∧ p.bid = env.bid ∧ p.bidSize = env.bidSize) ∧
      IsLeast {x | ∃ s p, active s p ∧ p.ask = x} env.ask ∧
      ∃ s p, active s p ∧ p.ask = env.ask ∧ p.askSize = env.askSize
  crossed : (∃ s p t q, active s p ∧ active t q ∧ q.ask < p.bid) →
    ∃ s n, active s n ∧ (∀ t q, active t q → t ≠ s → q.ts < n.ts) ∧ env.bid = n.bid ∧
      env.ask = n.ask ∧ env.bidSize = n.bidSize ∧ env.askSize = n.askSize

variable {wire}

lemma latest_append (is : List (Input R)) (i : Input R) (symbol source : String) :
    latest wire (is ++ [i]) symbol source =
      if i.tick.symbol = symbol ∧ i.tick.source = source then
        (quoteOf wire i).or (latest wire is symbol source)
      else latest wire is symbol source := by
  unfold latest
  by_cases h : i.tick.symbol = symbol ∧ i.tick.source = source
  · rw [if_pos h]
    rcases hq : quoteOf wire i with _ | sq
    · simp [filter_append, h, hq]
    · simp [filter_append, h, hq]
  · rw [if_neg h]
    simp [filter_append, h]

variable {is : List (Input R)}

lemma exists_of_latest {symbol source : String} {p : SourceQuote R}
    (h : latest wire is symbol source = some p) :
    ∃ i ∈ is.filter fun i => (accept wire i.tick).isSome,
      i.tick.source = source ∧ i.clock.cached = p.ts := by
  obtain ⟨i, hi, hq⟩ := mem_filterMap.mp (mem_of_getLast? h)
  obtain ⟨hmem, hkey⟩ := mem_filter.mp hi
  obtain ⟨env, henv, rfl⟩ := map_eq_some_iff.mp hq
  have hkey' : i.tick.symbol = symbol ∧ i.tick.source = source := by simpa using hkey
  exact ⟨i, mem_filter.mpr ⟨hmem, by simp [henv]⟩, hkey'.2, rfl⟩

lemma ts_ne (hd : DistinctReceipts wire is) {symbol s t : String}
    {p q : SourceQuote R} (hp : latest wire is symbol s = some p)
    (hq : latest wire is symbol t = some q) (hst : s ≠ t) : p.ts ≠ q.ts := by
  obtain ⟨i, hi, his, hip⟩ := exists_of_latest hp
  obtain ⟨j, hj, hjt, hjq⟩ := exists_of_latest hq
  intro heq
  have hij : i = j := inj_on_of_nodup_map hd hi hj (hip.trans (heq.trans hjq.symm))
  exact hst (his.symm.trans (hij ▸ hjt))

lemma sound_recompute {maxStaleness now : ℤ} {sqs : List (SourceQuote R)}
    {active : String → SourceQuote R → Prop} {env : JSONEnvelope R}
    (hmem : ∀ p, p ∈ sqs.filter (·.active maxStaleness now) ↔ ∃ s, active s p)
    (hne : ∀ s p t q, active s p → active t q → s ≠ t → p.ts ≠ q.ts)
    (hcount : (recompute maxStaleness now sqs).srcCount ≠ 0)
    (hbest : recompute maxStaleness now sqs = ⟨env.bid, env.ask, env.bidSize, env.askSize,
      (recompute maxStaleness now sqs).srcCount⟩) : Sound active env := by
  have hcases := recompute_cases maxStaleness now sqs
  generalize sqs.filter (·.active maxStaleness now) = l at hmem hcases
  have hin : ∀ {s p}, active s p → p ∈ l := fun h => (hmem _).mpr ⟨_, h⟩
  rw [hbest] at hcases
  rcases hcases with ⟨-, hzero⟩ | ⟨-, -, huncrossed, hext⟩ | ⟨-, -, hcrossed, n, hn⟩
  · exact absurd (congrArg BestQuote.srcCount hzero) hcount
  · obtain ⟨pb, hpb, hbid, hbs⟩ := hext.bid_mem
    obtain ⟨pa, hpa, hask, has⟩ := hext.ask_mem
    obtain ⟨sb, hsb⟩ := (hmem pb).mp hpb
    obtain ⟨sa, hsa⟩ := (hmem pa).mp hpa
    have hbid : pb.bid = env.bid := hbid
    have hask : pa.ask = env.ask := hask
    have hle : pb.bid ≤ pa.ask := not_lt.mp fun hlt => huncrossed ⟨pb, hpb, pa, hpa, hlt⟩
    refine ⟨hbid ▸ pb.pos, hbid ▸ hask ▸ hle, fun _ => ⟨⟨⟨sb, pb, hsb, hbid⟩, ?_⟩,
      ⟨sb, pb, hsb, hbid, hbs⟩, ⟨⟨sa, pa, hsa, hask⟩, ?_⟩, sa, pa, hsa, hask, has⟩, ?_⟩
    · rintro _ ⟨s, p, hp, rfl⟩
      exact hext.le_bid p (hin hp)
    · rintro _ ⟨s, p, hp, rfl⟩
      exact hext.ask_le p (hin hp)
    · rintro ⟨s, p, t, q, hp, hq, hlt⟩
      exact absurd ⟨p, hin hp, q, hin hq, hlt⟩ huncrossed
  · obtain ⟨s, hs⟩ := (hmem n).mp hn.mem
    have hbid : env.bid = n.bid := hn.bid
    have hask : env.ask = n.ask := hn.ask
    refine ⟨hbid ▸ n.pos, hbid ▸ hask ▸ n.le, fun hno => ?_, fun _ => ⟨s, n, hs, ?_, hbid, hask,
      hn.bidSize, hn.askSize⟩⟩
    · obtain ⟨p, hp, q, hq, hlt⟩ := hcrossed
      obtain ⟨sp, hsp⟩ := (hmem p).mp hp
      obtain ⟨sq, hsq⟩ := (hmem q).mp hq
      exact absurd (hno sp p sq q hsp hsq) (not_le.mpr hlt)
    · intro t q hq hts
      have hle := hn.last q (hin hq)
      have hne := hne t q s n hq hs hts
      omega

omit [LinearOrder R] [Zero R] in
lemma env_of_emission {t : Tick} {clock : Clock} {best : BestQuote R} {trade : TradeVal R}
    {e : Emission R} (h : emission wire t clock best trade = some e) :
    best = ⟨e.env.bid, e.env.ask, e.env.bidSize, e.env.askSize, best.srcCount⟩ := by
  simp only [emission] at h
  split at h
  · exact absurd h (by simp)
  · obtain rfl := some.inj h
    rfl

variable [Sub R] [Mul R] [OfScientific R] (b : BestConsumer R)

lemma bySource_onTick (i : Input R) (symbol source : String) :
    ((b.onTick wire i).1.bySource symbol).lookup source =
      if i.tick.symbol = symbol ∧ i.tick.source = source then
        (quoteOf wire i).or ((b.bySource symbol).lookup source)
      else (b.bySource symbol).lookup source := by
  rcases henv : accept wire i.tick with _ | env
  · simp [onTick, henv, quoteOf]
  · have hquote : quoteOf wire i = some (toSourceQuote env i.clock.cached) := by
      simp [quoteOf, henv]
    have hstep : (b.onTick wire i).1.bySource symbol =
        if i.tick.symbol = symbol then
          (b.bySource symbol).insert i.tick.source (toSourceQuote env i.clock.cached)
        else b.bySource symbol := by
      rw [onTick, henv]
      show ((b.cache.insert i.tick.symbol _).lookup symbol).getD ∅ = _
      by_cases hsym : i.tick.symbol = symbol
      · subst hsym
        rw [lookup_insert, if_pos rfl, Option.getD, cached]
      · rw [lookup_insert_ne (Ne.symm hsym), if_neg hsym]
        rfl
    rw [hstep, hquote]
    by_cases hsym : i.tick.symbol = symbol
    · by_cases hsrc : i.tick.source = source
      · subst hsrc
        rw [if_pos hsym, if_pos ⟨hsym, rfl⟩, lookup_insert, Option.some_or]
      · rw [if_pos hsym, if_neg fun h => hsrc h.2, lookup_insert_ne (Ne.symm hsrc)]
    · rw [if_neg hsym, if_neg fun h => hsym h.1]

lemma maxStaleness_onTick (i : Input R) :
    (b.onTick wire i).1.maxStaleness = b.maxStaleness := by
  unfold onTick
  rcases accept wire i.tick with _ | env <;> rfl

def after (wire : Wire R) (maxStaleness : ℤ) (dedup : DedupOptions R) (is : List (Input R)) :
    BestConsumer R :=
  final (BestConsumer.onTick wire) (newBestConsumer maxStaleness dedup) is

lemma cache_eq_latest (wire : Wire R) (maxStaleness : ℤ) (dedup : DedupOptions R)
    (is : List (Input R)) :
    (∀ symbol source, ((after wire maxStaleness dedup is).bySource symbol).lookup source =
        latest wire is symbol source) ∧
      (after wire maxStaleness dedup is).maxStaleness =
        (newBestConsumer maxStaleness dedup).maxStaleness := by
  induction is using reverseRecOn with
  | nil => exact ⟨fun _ _ => rfl, rfl⟩
  | append_singleton is i ih =>
    obtain ⟨hcache, hstale⟩ := ih
    have hstep : after wire maxStaleness dedup (is ++ [i]) =
        ((after wire maxStaleness dedup is).onTick wire i).1 := final_append _ _ _
    rw [hstep]
    refine ⟨fun symbol source => ?_, (maxStaleness_onTick _ i).trans hstale⟩
    rw [bySource_onTick, latest_append, hcache]

lemma onTick_emits {b : BestConsumer R} {i : Input R} {e : Emission R}
    (h : (b.onTick wire i).2 = some e) :
    ∃ sqs, (∀ p, p ∈ sqs ↔ ∃ source,
        ((b.onTick wire i).1.bySource i.tick.symbol).lookup source = some p) ∧
      (recompute b.maxStaleness i.clock.scanned sqs).srcCount ≠ 0 ∧
      recompute b.maxStaleness i.clock.scanned sqs = ⟨e.env.bid, e.env.ask, e.env.bidSize,
        e.env.askSize, (recompute b.maxStaleness i.clock.scanned sqs).srcCount⟩ := by
  rcases henv : accept wire i.tick with _ | env
  · simp [onTick, henv] at h
  · have hcache : (b.onTick wire i).1.bySource i.tick.symbol = b.cached i env := by
      rw [onTick, henv]
      show ((b.cache.insert i.tick.symbol _).lookup i.tick.symbol).getD ∅ = _
      rw [lookup_insert, Option.getD]
    rw [hcache]
    rw [onTick, henv] at h
    simp only [update] at h
    refine ⟨i.order.list ((b.cached i env).entries.map Sigma.snd),
      GoMap.mem_range_values i.order (b.cached i env), ?_⟩
    change (b.recomputed i env).srcCount ≠ 0 ∧ b.recomputed i env =
      ⟨_, _, _, _, (b.recomputed i env).srcCount⟩
    split at h
    · exact absurd h (by simp)
    · rename_i hskip
      rw [not_or] at hskip
      exact ⟨hskip.2, env_of_emission h⟩

/-- **Every emitted best quote is sound** for the sources as the ticks so far have left them. -/
theorem emitted_sound (wire : Wire R) (maxStaleness : ℤ) (dedup : DedupOptions R)
    (is : List (Input R)) (i : Input R) (hdistinct : DistinctReceipts wire (is ++ [i]))
    (e : Emission R) (h : ((after wire maxStaleness dedup is).onTick wire i).2 = some e) :
    Sound (Active wire (newBestConsumer maxStaleness dedup).maxStaleness i.clock.scanned
      (is ++ [i]) i.tick.symbol) e.env := by
  obtain ⟨sqs, hsqs, hcount, hbest⟩ := onTick_emits h
  have hstale := (cache_eq_latest wire maxStaleness dedup is).2
  rw [hstale] at hcount hbest
  refine sound_recompute (fun p => ?_) (fun s p t q hp hq hst => ?_) hcount hbest
  · have hcache := (cache_eq_latest wire maxStaleness dedup (is ++ [i])).1 i.tick.symbol
    have hstep : after wire maxStaleness dedup (is ++ [i]) =
        ((after wire maxStaleness dedup is).onTick wire i).1 := final_append _ _ _
    rw [hstep] at hcache
    rw [mem_filter, hsqs]
    simp only [hcache, Active, exists_and_right]
  · exact ts_ne hdistinct hp.1 hq.1 hst

end

def sampleWire : Wire ℚ where
  trimSpace := id
  unmarshal
    | 1 :: _ => .ok ⟨"USDKRW", 1380, 1382, 0, "SMB", 1, 0, 0, 5, 6⟩
    | 2 :: _ => .ok ⟨"USDKRW", 1381, 1383, 0, "KMB", 1, 0, 0, 7, 8⟩
    | _ => .error "unexpected end of JSON input"
  marshal _ := .ok []

def sampleInput (quote : UInt8) (source : String) (now : ℤ) : Input ℚ where
  tick := ⟨0, "USDKRW", 0, 0, 0, 0, [quote], now, source⟩
  clock := ⟨now, now, now, now⟩
  order := .same _

def noDedup : DedupOptions ℚ := ⟨false, 0, ∅⟩

theorem emitted_sound_twoFeeds :
    ∃ e, ((after sampleWire 0 noDedup [sampleInput 1 "SMB" 1]).onTick sampleWire
        (sampleInput 2 "KMB" 2)).2 = some e ∧
      Sound (Active sampleWire (newBestConsumer 0 noDedup).maxStaleness 2
        [sampleInput 1 "SMB" 1, sampleInput 2 "KMB" 2] "USDKRW") e.env := by
  have hsome : ((after sampleWire 0 noDedup [sampleInput 1 "SMB" 1]).onTick sampleWire
      (sampleInput 2 "KMB" 2)).2.isSome := by decide +kernel
  obtain ⟨e, he⟩ := isSome_iff_exists.mp hsome
  have hdistinct : DistinctReceipts sampleWire
      ([sampleInput 1 "SMB" 1] ++ [sampleInput 2 "KMB" 2]) := by
    unfold DistinctReceipts
    decide +kernel
  exact ⟨e, he, emitted_sound sampleWire 0 noDedup [sampleInput 1 "SMB" 1] (sampleInput 2 "KMB" 2)
    hdistinct e he⟩

end Wtg.Price.BestSound
