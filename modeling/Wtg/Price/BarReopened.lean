import Mathlib.Algebra.Ring.Int.Defs
import Mathlib.Data.Finset.Dedup
import Mathlib.Data.Finset.Order
import Wtg.Price.BarOnce

/-! # Buckets opened again

The other half of one bar per bucket: a tick accepted in a bucket that was swept does open it again,
and the next sweep past its end hands it over a second time. -/

namespace Wtg.Price.BarReopened

open Lib Pricing.Engine Quote.Bars Price.BarAggregator Price.BarOnce List

variable {R : Type*}

def openIn (a : Aggregator R) (k : BarKey × ℤ) : Bool :=
  (a.bars.lookup k.1).any fun b => decide (bucketOf b = k)

def credit (a : Aggregator R) (k : BarKey × ℤ) : ℕ :=
  (handed a).count k + if openIn a k then 1 else 0

structure Later (a a' : Aggregator R) : Prop where
  closed : a.closed <+: a'.closed
  credit : ∀ k, credit a k ≤ credit a' k

variable (a : Aggregator R)

lemma Later.refl : Later a a := ⟨prefix_rfl, fun _ => le_rfl⟩

lemma Later.trans {a b c : Aggregator R} (h : Later a b) (h' : Later b c) : Later a c :=
  ⟨h.closed.trans h'.closed, fun k => (h.credit k).trans (h'.credit k)⟩

lemma Later.count_le {a a' : Aggregator R} (h : Later a a') (k : BarKey × ℤ) :
    (handed a).count k ≤ (handed a').count k :=
  List.Sublist.count_le k (h.closed.map bucketOf).sublist

lemma later_put {a : Aggregator R} {key : BarKey} {b : Bar R}
    (hold : ∀ cur, a.bars.lookup key = some cur → bucketOf cur = bucketOf b) :
    Later a (put a key b) where
  closed := prefix_rfl
  credit := by
    intro k
    have hopen : openIn a k = true → openIn (put a key b) k = true := by
      intro h
      simp only [openIn, Option.any_eq_true, decide_eq_true_eq] at h ⊢
      obtain ⟨cur, hcur, hk⟩ := h
      by_cases hkey : k.1 = key
      · rw [hkey] at hcur ⊢
        exact ⟨b, put_lookup_self a key b, (hold cur hcur).symm.trans hk⟩
      · exact ⟨cur, (put_lookup_of_ne a b hkey).trans hcur, hk⟩
    have hhanded : handed (put a key b) = handed a := rfl
    rw [credit, credit, hhanded]
    by_cases h : openIn a k = true
    · rw [if_pos h, if_pos (hopen h)]
    · rw [if_neg h]
      omega

lemma later_shut {a : Aggregator R} {key : BarKey} {b : Bar R} (hb : a.bars.lookup key = some b) :
    Later a (shut a key b) where
  closed := prefix_append _ _
  credit := by
    intro k
    rw [credit, credit, handed_shut, count_append, count_singleton]
    by_cases hk : k.1 = key
    · have hbefore : openIn a k = decide (bucketOf b = k) := by
        rw [openIn, hk, hb]
        rfl
      have hif : (if openIn a k = true then 1 else 0) = if bucketOf b == k then 1 else 0 := by
        rw [hbefore]
        simp
      omega
    · have hsame : openIn (shut a key b) k = openIn a k := by
        rw [openIn, openIn, shut_lookup_of_ne a b hk]
      rw [hsame]
      omega

lemma later_sweep (now : ℤ)
    (order : RangeOrder (Sigma fun _ : BarKey => Bar R)) : Later a (sweep a now order) := by
  refine sweep_induct (fun a' => Later a a') ?_ order (.refl a)
  intro a' key b hlater hb _
  exact hlater.trans (later_shut hb)

lemma credit_le_count_sweep {k : BarKey × ℤ} {now : ℤ}
    (hend : k.1.tf.bucketEnd k.2 ≤ now) (order : RangeOrder (Sigma fun _ : BarKey => Bar R)) :
    credit a k ≤ (handed (sweep a now order)).count k := by
  have hle := (later_sweep a now order).credit k
  have hshut : openIn (sweep a now order) k = false := by
    rw [openIn, Option.any_eq_false]
    intro b hb
    have hlt := lt_of_lookup_sweep hb
    rw [decide_eq_false_iff_not]
    rintro rfl
    exact absurd hend (not_le.mpr hlt)
  have hcredit : credit (sweep a now order) k = (handed (sweep a now order)).count k := by
    simp [credit, hshut]
  omega

/-! ## Bars that open again -/

section

variable [LinearOrder R]

lemma later_applyTo (a : Aggregator R) (tf : Timeframe) (q : Quote R) :
    Later a (applyTo a tf q) := by
  rcases applyTo_cases a tf q with ⟨hnone, heq⟩ | ⟨cur, hcur, -, heq⟩ | ⟨cur, hcur, -, heq⟩
  · rw [heq]
    refine later_put ?_
    intro c hc
    rw [hnone] at hc
    exact absurd hc (by simp)
  · rw [heq]
    refine later_put ?_
    intro c hc
    rw [hcur, Option.some.injEq] at hc
    rw [← hc]
    rfl
  · rw [heq]
    refine (later_shut hcur).trans (later_put ?_)
    intro c hc
    exact absurd hc (by simp)

lemma later_applyAll (q : Quote R) :
    ∀ (tfs : List Timeframe) (a : Aggregator R), Later a (applyAll a tfs q)
  | [], a => .refl a
  | tf :: tfs, a => (later_applyTo a tf q).trans (later_applyAll q tfs (applyTo a tf q))

variable {q : Quote R} {qs : List (Quote R)}

lemma rooted_applyAll (hq : q ∈ qs) :
    ∀ (tfs : List Timeframe) {a : Aggregator R}, Rooted qs a → Rooted qs (applyAll a tfs q)
  | [], _, h => h
  | tf :: tfs, _, h => rooted_applyAll hq tfs (h.applyTo tf hq)

lemma openIn_applyAll (hq : q ∈ qs) {tf : Timeframe} :
    ∀ (tfs : List Timeframe) {a : Aggregator R}, Rooted qs a →
      tf ∈ tfs ∨ openIn a (bucketAt q tf) = true →
      openIn (applyAll a tfs q) (bucketAt q tf) = true
  | [], _, _, htf => htf.resolve_left (by simp)
  | t :: tfs, a, h, htf => by
    have hopen : t = tf ∨ openIn a (bucketAt q tf) = true →
        openIn (applyTo a t q) (bucketAt q tf) = true := by
      intro ht
      by_cases heq : t = tf
      · subst heq
        obtain ⟨b, hb, hat⟩ := h.lookup_applyTo t q
        rw [openIn, show (bucketAt q t).1 = ⟨q.pair, t⟩ from rfl, hb]
        simpa using hat
      · have hne : (bucketAt q tf).1 ≠ ⟨q.pair, t⟩ :=
          fun hkey => heq (congrArg BarKey.tf hkey).symm
        rw [openIn, applyTo_lookup_of_ne a hne]
        exact ht.resolve_left heq
    refine openIn_applyAll hq tfs (h.applyTo t hq) ?_
    rcases htf with htf | htf
    · rcases mem_cons.mp htf with rfl | htf
      · exact .inr (hopen (.inl rfl))
      · exact .inl htf
    · exact .inr (hopen (.inr htf))

variable [Zero R] (decoder : Option (CookerBodyDecoder R))

lemma later_step (a : Aggregator R) (i : Input R) : Later a (step decoder a i) := by
  rcases step_cases decoder a i with ⟨q, -, hstep⟩ | ⟨-, hstep | ⟨now, order, -, hstep⟩⟩
  · rw [hstep]; exact later_applyAll q _ a
  · rw [hstep]; exact .refl a
  · rw [hstep]; exact later_sweep a now order

lemma later_run (inputs more : List (Input R)) :
    Later (run decoder inputs) (run decoder (inputs ++ more)) := by
  induction more using reverseRecOn with
  | nil => rw [append_nil]; exact .refl _
  | append_singleton more i ih =>
    rw [← append_assoc, run_append]
    exact ih.trans (later_step decoder _ i)

variable (inputs : List (Input R))

lemma rooted_run :
    Rooted (accepted decoder inputs) (run decoder inputs) := by
  induction inputs using reverseRecOn with
  | nil => exact rooted_new
  | append_singleton inputs i ih =>
    rw [run_append, accepted_append]
    have h := ih.mono (subset_append_left _ (quoteOf decoder i).toList)
    rcases step_cases decoder (run decoder inputs) i with
      ⟨q, hq, hstep⟩ | ⟨-, hstep | ⟨now, order, -, hstep⟩⟩
    · rw [hstep]
      exact rooted_applyAll (by simp [hq]) _ h
    · rw [hstep]
      exact h
    · rw [hstep]
      exact sweep_induct _ (fun a' key b ha' _ _ => ha'.shut key b) order h

lemma openIn_run {i : Input R} (hq : quoteOf decoder i = some q)
    (tf : Timeframe) : openIn (run decoder (inputs ++ [i])) (bucketAt q tf) = true := by
  have h := (rooted_run decoder inputs).mono (subset_append_left _ [q])
  rcases step_cases decoder (run decoder inputs) i with ⟨p, hp, hstep⟩ | ⟨hnone, -⟩
  · rw [hq, Option.some.injEq] at hp
    subst hp
    rw [run_append, hstep]
    exact openIn_applyAll (by simp) allTimeframes h (.inl (by cases tf <;> decide))
  · rw [hq] at hnone
    exact absurd hnone (by simp)

variable {inputs : List (Input R)}

lemma one_le_credit (tf : Timeframe) (hq : q ∈ accepted decoder inputs) :
    1 ≤ credit (run decoder inputs) (bucketAt q tf) := by
  obtain ⟨i, hi, hiq⟩ := mem_filterMap.mp hq
  obtain ⟨past, rest, rfl⟩ := append_of_mem hi
  have hopen := openIn_run decoder past hiq tf
  have hlater := (later_run decoder (past ++ [i]) rest).credit (bucketAt q tf)
  rw [append_assoc, singleton_append] at hlater
  rw [credit, if_pos hopen] at hlater
  omega

variable {past : List (Input R)}

lemma one_le_count_of_swept {k : BarKey × ℤ} (h : Swept decoder past k) :
    1 ≤ (handed (run decoder past)).count k := by
  obtain ⟨before, now, order, after, rfl, hend, q, hq, hat⟩ := h
  have hcredit := one_le_credit decoder k.1.tf hq
  have hsweep := credit_le_count_sweep (run decoder before) hend order
  have hlater := (later_run decoder (before ++ [.sweep now order]) after).count_le k
  rw [run_append, append_assoc, singleton_append] at hlater
  rw [hat] at hcredit
  exact hcredit.trans (hsweep.trans hlater)

lemma two_le_credit_of_late {i : Input R} {tf : Timeframe}
    (hq : quoteOf decoder i = some q) (h : Swept decoder past (bucketAt q tf)) :
    2 ≤ credit (run decoder (past ++ [i])) (bucketAt q tf) := by
  have hopen := openIn_run decoder past hq tf
  have hone := one_le_count_of_swept decoder h
  have hcount := (later_run decoder past [i]).count_le (bucketAt q tf)
  rw [credit, if_pos hopen]
  omega

def sweeps (l : List (ℤ × RangeOrder (Sigma fun _ : BarKey => Bar R))) : List (Input R) :=
  l.map fun s => .sweep s.1 s.2

omit [LinearOrder R] in
lemma punctual_sweeps (h : Punctual decoder inputs)
    (l : List (ℤ × RangeOrder (Sigma fun _ : BarKey => Bar R))) :
    Punctual decoder (inputs ++ sweeps l) := by
  have hnone : ∀ i ∈ sweeps l, quoteOf decoder i = none := by
    intro i hi
    obtain ⟨s, -, rfl⟩ := mem_map.mp hi
    rfl
  intro past i rest heq q hq
  -- a tick is none of the sweeps, so it is one of the inputs
  rcases append_eq_append_iff.mp heq with ⟨mid, -, hrest⟩ | ⟨mid, hinputs, hrest⟩
  · have hi := hnone i (hrest ▸ mem_append_right mid mem_cons_self)
    rw [hi] at hq
    exact absurd hq (by simp)
  · rcases mid with _ | ⟨j, mid⟩
    · have hi := hnone i (by rw [← nil_append (sweeps l), ← hrest]; exact mem_cons_self)
      rw [hi] at hq
      exact absurd hq (by simp)
    · obtain ⟨rfl, -⟩ := cons.inj hrest
      exact h past i mid hinputs q hq

omit [LinearOrder R] [Zero R] in
lemma exists_ordered_sweep (h : Ordered inputs) (least : ℤ)
    (order : RangeOrder (Sigma fun _ : BarKey => Bar R)) :
    ∃ now, least ≤ now ∧ Ordered (inputs ++ sweeps [(now, order)]) := by
  obtain ⟨now, hnow⟩ := (least :: inputs.filterMap sweptAt).toFinset.exists_le
  refine ⟨now, hnow least (by simp), ?_⟩
  have hreceived : (sweeps [(now, order)]).filterMap received = [] := rfl
  have hswept : (sweeps [(now, order)]).filterMap sweptAt = [now] := rfl
  rw [Ordered, filterMap_append, filterMap_append, hreceived, hswept, append_nil]
  refine ⟨h.1, pairwise_append.mpr ⟨h.2, pairwise_singleton _ _, ?_⟩⟩
  intro t ht s hs
  rw [mem_singleton.mp hs]
  exact hnow t (by simp [ht])

/-- **One bar per bucket, exactly without late ticks**: no tick was accepted in a bucket that had
been swept. -/
theorem handed_once_iff_punctual (inputs : List (Input R)) (hord : Ordered inputs) :
    Punctual decoder inputs ↔ ∀ l, Ordered (inputs ++ sweeps l) →
      (handed (run decoder (inputs ++ sweeps l))).Nodup := by
  constructor
  · intro hpunct l hordl
    exact (once_run decoder _ hordl (punctual_sweeps decoder hpunct l)).nodup
  · intro honce past i rest heq q hq tf hswept
    -- the bucket opened again is handed over by a sweep after its end
    obtain ⟨now, hend, hordnow⟩ :=
      exists_ordered_sweep hord (tf.bucketEnd (tf.bucketStart q.ts.nanos)) (.same _)
    have htwo := two_le_credit_of_late decoder hq hswept
    have hlater := (later_run decoder (past ++ [i]) rest).credit (bucketAt q tf)
    rw [append_assoc, singleton_append, ← heq] at hlater
    have hsweep := credit_le_count_sweep (k := bucketAt q tf) (run decoder inputs) hend (.same _)
    have hnodup := honce [(now, .same _)] hordnow
    have hrun : run decoder (inputs ++ sweeps [(now, .same _)]) =
        sweep (run decoder inputs) now (.same _) := run_append decoder inputs _
    rw [hrun, nodup_iff_count_le_one] at hnodup
    have hone := hnodup (bucketAt q tf)
    omega

end

def someDecoder : Option (CookerBodyDecoder ℤ) := some fun _ => some (1, 2, 0, 0)

def tickAt (received : ℤ) : Input ℤ :=
  .onTick (fun _ => some ("USD/KRW", true)) (some ⟨0, "USDKRW", 0, 0, 0, 0, [], received, ""⟩)

def lateTick : List (Input ℤ) :=
  [tickAt 100, .sweep second (.same _), tickAt 200, .sweep (2 * second) (.same _)]

theorem handed_twice : Ordered lateTick ∧ ¬ (handed (run someDecoder lateTick)).Nodup := by
  decide +kernel

theorem lateTick_not_punctual : Ordered lateTick ∧ ¬ Punctual someDecoder lateTick := by
  refine ⟨by decide, fun hpunct => ?_⟩
  have honce := (handed_once_iff_punctual someDecoder lateTick (by decide)).mp hpunct [] (by decide)
  exact absurd honce (by decide +kernel)

end Wtg.Price.BarReopened
