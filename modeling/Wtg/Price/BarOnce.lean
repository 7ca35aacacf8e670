import Wtg.Price.BarAggregator

/-! # One bar per bucket

A bucket of a pair and a timeframe is handed to `onClose` once if nothing opens it again. -/

namespace Wtg.Price.BarOnce

open Lib Pricing.Engine Quote.Bars Price.BarAggregator List Option
open Price.Best (Tick)

variable {R : Type*}

def bucketOf (b : Bar R) : BarKey × ℤ := (⟨b.pair, b.tf⟩, b.openedAt)

def handed (a : Aggregator R) : List (BarKey × ℤ) := a.closed.map bucketOf

def bucketAt (q : Quote R) (tf : Timeframe) : BarKey × ℤ :=
  (⟨q.pair, tf⟩, tf.bucketStart q.ts.nanos)

def received : Input R → Option ℤ
  | .onTick _ t => t.map Tick.received
  | .sweep _ _ => none

def sweptAt : Input R → Option ℤ
  | .onTick _ _ => none
  | .sweep now _ => some now

/-- `OnTick` is called with non-decreasing times of receipt, and `Sweep` with non-decreasing times;
the two need not agree. -/
def Ordered (inputs : List (Input R)) : Prop :=
  (inputs.filterMap received).Pairwise (· ≤ ·) ∧ (inputs.filterMap sweptAt).Pairwise (· ≤ ·)

instance (inputs : List (Input R)) : Decidable (Ordered inputs) :=
  inferInstanceAs (Decidable (_ ∧ _))

variable {inputs more : List (Input R)}

lemma Ordered.of_append (h : Ordered (inputs ++ more)) : Ordered inputs := by
  rw [Ordered, filterMap_append, filterMap_append] at h
  exact ⟨(pairwise_append.mp h.1).1, (pairwise_append.mp h.2).1⟩

/-! ## Conditions on the inputs -/

section

variable [Zero R] (decoder : Option (CookerBodyDecoder R))

def Swept (past : List (Input R)) (bucket : BarKey × ℤ) : Prop :=
  ∃ before now order after, past = before ++ .sweep now order :: after ∧
    bucket.1.tf.bucketEnd bucket.2 ≤ now ∧
    ∃ q ∈ accepted decoder before, bucketAt q bucket.1.tf = bucket

/-- **No tick comes late**: none is accepted in a bucket that was swept. -/
def Punctual (inputs : List (Input R)) : Prop :=
  ∀ past i rest, inputs = past ++ i :: rest → ∀ q ∈ quoteOf decoder i,
    ∀ tf, ¬ Swept decoder past (bucketAt q tf)

lemma Swept.append {past : List (Input R)} {bucket : BarKey × ℤ} (h : Swept decoder past bucket)
    (more : List (Input R)) : Swept decoder (past ++ more) bucket := by
  obtain ⟨before, now, order, after, rfl, hend, hq⟩ := h
  exact ⟨before, now, order, after ++ more, by simp, hend, hq⟩

lemma Punctual.of_append (h : Punctual decoder (inputs ++ more)) : Punctual decoder inputs := by
  intro past i rest heq
  exact h past i (rest ++ more) (by simp [heq])

end

def Rooted (qs : List (Quote R)) (a : Aggregator R) : Prop :=
  ∀ key b, a.bars.lookup key = some b →
    (bucketOf b).1 = key ∧ ∃ q ∈ qs, bucketAt q key.tf = bucketOf b

lemma rooted_new : Rooted [] (newAggregator : Aggregator R) := by
  intro key b h
  exact absurd h (by simp [newAggregator])

variable {a : Aggregator R} {qs qs' : List (Quote R)}

lemma Rooted.mono (h : Rooted qs a) (hsub : qs ⊆ qs') :
    Rooted qs' a := by
  intro key b hb
  obtain ⟨hkey, q, hq, hat⟩ := h key b hb
  exact ⟨hkey, q, hsub hq, hat⟩

variable {qs : List (Quote R)} {key : BarKey}

lemma Rooted.put (h : Rooted qs a) {b : Bar R} (hkey : (bucketOf b).1 = key)
    (hb : ∃ q ∈ qs, bucketAt q key.tf = bucketOf b) : Rooted qs (put a key b) := by
  intro j c hc
  rcases put_lookup_cases hc with ⟨rfl, rfl⟩ | ⟨-, hc⟩
  · exact ⟨hkey, hb⟩
  · exact h j c hc

lemma Rooted.shut (h : Rooted qs a) (key : BarKey) (b : Bar R) : Rooted qs (shut a key b) := by
  intro j c hc
  exact h j c (shut_lookup_some hc).2

variable {q : Quote R} {tf : Timeframe}

lemma Rooted.bucketAt_of_contains (h : Rooted qs a) {cur : Bar R}
    (hcur : a.bars.lookup ⟨q.pair, tf⟩ = some cur) (hin : cur.contains q.ts.nanos = true) :
    bucketAt q tf = bucketOf cur := by
  obtain ⟨hkey, p, -, hat⟩ := h _ cur hcur
  have htf : cur.tf = tf := congrArg BarKey.tf hkey
  have hstart : tf.bucketStart p.ts.nanos = cur.openedAt := congrArg Prod.snd hat
  obtain ⟨hle, hlt⟩ := (cur.contains_iff _).mp hin
  rw [htf] at hlt
  have heq : tf.bucketStart q.ts.nanos = tf.bucketStart p.ts.nanos :=
    Timeframe.bucketStart_eq_of_mem (hstart ▸ hle) (by rw [hstart]; exact hlt)
  refine Prod.ext hkey.symm ?_
  exact heq.trans hstart

lemma Rooted.putNew (h : Rooted qs a) (hq : q ∈ qs) (tf : Timeframe) :
    Rooted qs (BarAggregator.put a ⟨q.pair, tf⟩ (newBar tf q)) :=
  h.put rfl ⟨q, hq, rfl⟩

/-! ## What a tick keeps -/

section

variable [LinearOrder R]

lemma Rooted.update (h : Rooted qs a) {cur : Bar R} (hcur : a.bars.lookup key = some cur)
    (q : Quote R) : Rooted qs (BarAggregator.put a key (cur.update q)) := by
  obtain ⟨hkey, hroot⟩ := h key cur hcur
  exact h.put hkey hroot

lemma Rooted.applyTo (h : Rooted qs a) (tf : Timeframe) (hq : q ∈ qs) :
    Rooted qs (applyTo a tf q) := by
  rcases applyTo_cases a tf q with ⟨-, heq⟩ | ⟨cur, hcur, -, heq⟩ | ⟨cur, hcur, -, heq⟩
  · rw [heq]; exact h.putNew hq tf
  · rw [heq]; exact h.update hcur q
  · rw [heq]; exact (h.shut _ cur).putNew hq tf

lemma Rooted.lookup_applyTo (h : Rooted qs a) (tf : Timeframe) (q : Quote R) :
    ∃ b, (BarAggregator.applyTo a tf q).bars.lookup ⟨q.pair, tf⟩ = some b ∧
      bucketOf b = bucketAt q tf := by
  rcases applyTo_cases a tf q with ⟨-, heq⟩ | ⟨cur, hcur, hin, heq⟩ | ⟨cur, -, -, heq⟩
  · exact ⟨newBar tf q, by rw [heq, put_lookup_self], rfl⟩
  · exact ⟨cur.update q, by rw [heq, put_lookup_self], (h.bucketAt_of_contains hcur hin).symm⟩
  · exact ⟨newBar tf q, by rw [heq, put_lookup_self], rfl⟩

end

structure Once (qs : List (Quote R)) (swept : BarKey × ℤ → Prop) (a : Aggregator R) : Prop where
  rooted : Rooted qs a
  behind : ∀ c ∈ a.closed,
    (∃ q ∈ qs, c.tf.bucketEnd c.openedAt ≤ q.ts.nanos) ∨ swept (bucketOf c)
  fresh : ∀ key b, a.bars.lookup key = some b → bucketOf b ∉ handed a
  nodup : (handed a).Nodup

lemma once_new (swept : BarKey × ℤ → Prop) : Once [] swept (newAggregator : Aggregator R) where
  rooted := rooted_new
  behind := by simp [newAggregator]
  fresh := by simp [newAggregator, handed]
  nodup := nodup_nil

lemma Once.mono {swept swept' : BarKey × ℤ → Prop}
    (h : Once qs swept a) (hsub : qs ⊆ qs') (hswept : ∀ k, swept k → swept' k) :
    Once qs' swept' a where
  rooted := h.rooted.mono hsub
  behind := by
    intro c hc
    rcases h.behind c hc with ⟨q, hq, hle⟩ | hs
    · exact .inl ⟨q, hsub hq, hle⟩
    · exact .inr (hswept _ hs)
  fresh := h.fresh
  nodup := h.nodup

/-! ## Each bar once -/

section

variable {qs : List (Quote R)} {swept : BarKey × ℤ → Prop} {a : Aggregator R}

lemma handed_shut (a : Aggregator R) (key : BarKey) (b : Bar R) :
    handed (shut a key b) = handed a ++ [bucketOf b] := by
  rw [handed, shut_closed, map_append]
  rfl

lemma Once.put (h : Once qs swept a) {b : Bar R}
    (hrooted : Rooted qs (BarAggregator.put a key b)) (hb : bucketOf b ∉ handed a) :
    Once qs swept (BarAggregator.put a key b) where
  rooted := hrooted
  behind := h.behind
  fresh := by
    intro j c hc
    rcases put_lookup_cases hc with ⟨-, rfl⟩ | ⟨-, hc⟩
    · exact hb
    · exact h.fresh j c hc
  nodup := h.nodup

lemma Once.shut (h : Once qs swept a) {b : Bar R} (hb : a.bars.lookup key = some b)
    (hover : (∃ q ∈ qs, b.tf.bucketEnd b.openedAt ≤ q.ts.nanos) ∨ swept (bucketOf b)) :
    Once qs swept (BarAggregator.shut a key b) where
  rooted := h.rooted.shut key b
  behind := by
    intro c hc
    rw [shut_closed, mem_append, mem_singleton] at hc
    rcases hc with hc | rfl
    · exact h.behind c hc
    · exact hover
  fresh := by
    intro j c hc
    obtain ⟨hj, hc⟩ := shut_lookup_some hc
    -- an open bar of another key is of another bucket
    have hne : bucketOf c ≠ bucketOf b := by
      intro heq
      have hcj := (h.rooted j c hc).1
      have hbk := (h.rooted key b hb).1
      exact hj (hcj.symm.trans ((congrArg Prod.fst heq).trans hbk))
    rw [handed_shut, mem_append, mem_singleton, not_or]
    exact ⟨h.fresh j c hc, hne⟩
  nodup := by
    rw [handed_shut]
    exact nodup_append.mpr ⟨h.nodup, nodup_singleton _, by
      intro x hx y hy
      rw [mem_singleton.mp hy]
      rintro rfl
      exact h.fresh key b hb hx⟩

lemma Once.bucketAt_notMem (h : Once qs swept a) (hlast : ∀ p ∈ qs, p.ts.nanos ≤ q.ts.nanos)
    (hpunct : ¬ swept (bucketAt q tf)) : bucketAt q tf ∉ handed a := by
  intro hmem
  obtain ⟨c, hc, hcq⟩ := mem_map.mp hmem
  rcases h.behind c hc with ⟨p, hp, hle⟩ | hs
  · have htf : c.tf = tf := congrArg (fun k => k.1.tf) hcq
    have hstart : c.openedAt = tf.bucketStart q.ts.nanos := congrArg Prod.snd hcq
    have hlt := tf.lt_bucketEnd q.ts.nanos
    have hlast' := hlast p hp
    rw [htf, hstart] at hle
    omega
  · exact hpunct (hcq ▸ hs)

variable [LinearOrder R]

lemma Once.applyTo (h : Once qs swept a) (hq : q ∈ qs)
    (hlast : ∀ p ∈ qs, p.ts.nanos ≤ q.ts.nanos) (hpunct : ¬ swept (bucketAt q tf)) :
    Once qs swept (applyTo a tf q) := by
  rcases applyTo_cases a tf q with ⟨-, heq⟩ | ⟨cur, hcur, -, heq⟩ | ⟨cur, hcur, hout, heq⟩
  · rw [heq]
    exact h.put (h.rooted.putNew hq tf) (h.bucketAt_notMem hlast hpunct)
  · rw [heq]
    exact h.put (h.rooted.update hcur q) (h.fresh _ cur hcur)
  · -- the tick is outside the open bar, and not before it
    have hover : cur.tf.bucketEnd cur.openedAt ≤ q.ts.nanos := by
      obtain ⟨hkey, p, hp, hat⟩ := h.rooted _ cur hcur
      have hstart : tf.bucketStart p.ts.nanos = cur.openedAt := congrArg Prod.snd hat
      have hle := tf.bucketStart_le p.ts.nanos
      have hlast' := hlast p hp
      have hnot : ¬ (cur.openedAt ≤ q.ts.nanos ∧
          q.ts.nanos < cur.openedAt + cur.tf.duration) := by
        rw [← cur.contains_iff, hout]
        simp
      rw [Timeframe.bucketEnd]
      omega
    have hshut := h.shut hcur (.inl ⟨q, hq, hover⟩)
    rw [heq]
    exact hshut.put (hshut.rooted.putNew hq tf) (hshut.bucketAt_notMem hlast hpunct)

lemma once_applyAll (hq : q ∈ qs) (hlast : ∀ p ∈ qs, p.ts.nanos ≤ q.ts.nanos)
    (hpunct : ∀ tf, ¬ swept (bucketAt q tf)) :
    ∀ (tfs : List Timeframe) {a : Aggregator R}, Once qs swept a →
      Once qs swept (applyAll a tfs q)
  | [], _, h => h
  | tf :: tfs, _, h =>
    once_applyAll hq hlast hpunct tfs (h.applyTo hq hlast (hpunct tf))

end

/-! ## Whole runs -/

variable [Zero R] (decoder : Option (CookerBodyDecoder R))

lemma received_of_quoteOf {i : Input R} (h : quoteOf decoder i = some q) :
    received i = some q.ts.nanos := by
  rcases i with ⟨symbols, t⟩ | ⟨now, order⟩
  · simp only [quoteOf, accept] at h
    split at h
    · split at h
      · exact absurd h (by simp)
      · split at h
        · exact absurd h (by simp)
        · split at h
          · exact absurd h (by simp)
          · rw [some.injEq] at h
            subst h
            rfl
    · exact absurd h (by simp)
  · exact absurd h (by simp [quoteOf])

lemma Ordered.le_last {inputs : List (Input R)} {i : Input R} {p q : Quote R}
    (h : Ordered (inputs ++ [i])) (hp : p ∈ accepted decoder inputs)
    (hq : quoteOf decoder i = some q) : p.ts.nanos ≤ q.ts.nanos := by
  obtain ⟨j, hj, hjp⟩ := mem_filterMap.mp hp
  have hrp : p.ts.nanos ∈ inputs.filterMap received :=
    mem_filterMap.mpr ⟨j, hj, received_of_quoteOf decoder hjp⟩
  have hrq : q.ts.nanos ∈ [i].filterMap received :=
    mem_filterMap.mpr ⟨i, mem_singleton_self i, received_of_quoteOf decoder hq⟩
  rw [Ordered, filterMap_append] at h
  exact (pairwise_append.mp h.1).2.2 _ hrp _ hrq

lemma once_sweep {past : List (Input R)}
    (h : Once (accepted decoder past) (Swept decoder past) a) (now : ℤ)
    (order : RangeOrder (Sigma fun _ : BarKey => Bar R)) :
    Once (accepted decoder past) (Swept decoder (past ++ [.sweep now order])) (sweep a now order) := by
  have h' := h.mono (List.Subset.refl _) fun _ hs => Swept.append decoder hs [.sweep now order]
  refine sweep_induct _ ?_ order h'
  intro a' key b ha' hb hend
  -- a bar that is shut now is of the bucket of an earlier tick
  obtain ⟨hkey, q, hq, hat⟩ := ha'.rooted key b hb
  refine ha'.shut hb (.inr ⟨past, now, order, [], rfl, hend, q, hq, ?_⟩)
  rw [hkey]
  exact hat

variable [LinearOrder R]

lemma once_run (inputs : List (Input R)) (hord : Ordered inputs)
    (hpunct : Punctual decoder inputs) :
    Once (accepted decoder inputs) (Swept decoder inputs) (run decoder inputs) := by
  induction inputs using reverseRecOn with
  | nil => exact once_new _
  | append_singleton inputs i ih =>
    have h := ih hord.of_append (Punctual.of_append decoder hpunct)
    rw [run_append, accepted_append]
    rcases step_cases decoder (run decoder inputs) i with
      ⟨q, hq, hstep⟩ | ⟨hq, hstep | ⟨now, order, rfl, hstep⟩⟩
    · rw [hstep, hq, toList_some]
      have hlast : ∀ p ∈ accepted decoder inputs ++ [q], p.ts.nanos ≤ q.ts.nanos := by
        intro p hp
        rcases mem_append.mp hp with hp | hp
        · exact hord.le_last decoder hp hq
        · rw [mem_singleton.mp hp]
      have hgood : ∀ tf, ¬ Swept decoder inputs (bucketAt q tf) := hpunct inputs i [] rfl q hq
      have hbefore := h.mono (subset_append_left _ [q]) fun _ hs => hs
      have hafter := once_applyAll (by simp) hlast hgood allTimeframes hbefore
      exact hafter.mono (List.Subset.refl _) fun _ hs => Swept.append decoder hs [i]
    · rw [hstep, hq, toList_none, append_nil]
      exact h.mono (List.Subset.refl _) fun _ hs => Swept.append decoder hs [i]
    · rw [hstep, hq, toList_none, append_nil]
      exact once_sweep decoder h now order

end Wtg.Price.BarOnce
