import Mathlib.Algebra.Order.Field.Basic
import Mathlib.Tactic.Linarith
import Mathlib.Tactic.Ring
import Wtg.Lib.Runs

/-! # Token buckets

A bucket holds at most `burst` tokens and gains `rate` tokens a unit of time; a call that finds a
token takes it and is granted. `level` is what the bucket holds at a time. -/

namespace Wtg.Lib.TokenBucket

open Lib.Runs List

variable {K : Type*} [Field K] [LinearOrder K]

/-- The tokens of a bucket at the time of its last use. -/
structure Bucket (K : Type*) where
  tokens : K
  last : K

def Bucket.level (rate burst : K) (b : Bucket K) (t : K) : K :=
  min burst (b.tokens + rate * (t - b.last))

/-- A call at the time `t`: whether it is granted, and the bucket afterwards. -/
def Bucket.take (rate burst : K) (b : Bucket K) (t : K) : Bucket K × Bool :=
  let tokens := b.level rate burst t
  if 1 ≤ tokens then (⟨tokens - 1, t⟩, true) else (⟨tokens, t⟩, false)

/-! ## One bucket -/

section

variable {rate burst : K} {b : Bucket K} {t t' : K}

lemma Bucket.level_le : b.level rate burst t ≤ burst := min_le_left _ _

lemma Bucket.level_at {x : K} (hx : x ≤ burst) : (Bucket.mk x t).level rate burst t = x := by
  simp only [level, sub_self, mul_zero, add_zero]
  exact min_eq_right hx

lemma Bucket.take_of_le (h : 1 ≤ b.level rate burst t) :
    b.take rate burst t = (⟨b.level rate burst t - 1, t⟩, true) := if_pos h

lemma Bucket.take_of_not_le (h : ¬ 1 ≤ b.level rate burst t) :
    b.take rate burst t = (⟨b.level rate burst t, t⟩, false) := if_neg h

variable [IsStrictOrderedRing K]

lemma Bucket.level_nonneg (hrate : 0 ≤ rate) (hburst : 0 ≤ burst) (htokens : 0 ≤ b.tokens)
    (ht : b.last ≤ t) : 0 ≤ b.level rate burst t :=
  le_min hburst (add_nonneg htokens (mul_nonneg hrate (sub_nonneg.mpr ht)))

lemma Bucket.level_rise (hrate : 0 ≤ rate) (h : t ≤ t') :
    b.level rate burst t' ≤ b.level rate burst t + rate * (t' - t) := by
  have hgain : 0 ≤ rate * (t' - t) := mul_nonneg hrate (sub_nonneg.mpr h)
  rw [level, level, ← min_add_add_right]
  refine le_min ((min_le_left _ _).trans (by linarith)) ((min_le_right _ _).trans (le_of_eq ?_))
  ring

lemma Bucket.take_spec (hlevel : 0 ≤ b.level rate burst t) :
    0 ≤ (b.take rate burst t).1.tokens ∧ (b.take rate burst t).1.last = t ∧
      (b.take rate burst t).1.level rate burst t =
        b.level rate burst t - if (b.take rate burst t).2 then 1 else 0 := by
  have hle : b.level rate burst t ≤ burst := Bucket.level_le
  by_cases hone : 1 ≤ b.level rate burst t
  · rw [take_of_le hone]
    refine ⟨sub_nonneg.mpr hone, rfl, ?_⟩
    rw [level_at (by linarith)]
    rfl
  · rw [take_of_not_le hone]
    refine ⟨hlevel, rfl, ?_⟩
    rw [level_at hle]
    simp

end

/-! ## Runs of a metered machine -/

variable {σ ε : Type*} {rate burst : K} {time : ε → K} {mine : ε → Bool}
  {step : σ → ε → σ × Bool} {level : σ → K → K} {Inv : σ → K → Prop}

variable (rate burst time mine step level Inv) in
/-- The machine has a level that pays for the granted calls of one kind, `mine`. -/
structure Metered : Prop where
  later : ∀ {s now t}, Inv s now → now ≤ t → Inv s t
  nonneg : ∀ {s now}, Inv s now → 0 ≤ level s now
  le_burst : ∀ {s now}, Inv s now → level s now ≤ burst
  rise : ∀ {s now t}, Inv s now → now ≤ t → level s t ≤ level s now + rate * (t - now)
  inv : ∀ {s e}, Inv s (time e) → Inv (step s e).1 (time e)
  pays : ∀ {s e}, Inv s (time e) →
    level (step s e).1 (time e) + (if (step s e).2 ∧ mine e then 1 else 0) ≤ level s (time e)

variable (time mine) in
def granted (a b : K) (calls : List (ε × Bool)) : ℕ :=
  calls.countP fun c => c.2 ∧ mine c.1 ∧ a ≤ time c.1 ∧ time c.1 ≤ b

omit [Field K] in
lemma granted_cons (a b : K) (c : ε × Bool) (calls : List (ε × Bool)) :
    granted time mine a b (c :: calls) = granted time mine a b calls +
      if c.2 ∧ mine c.1 ∧ a ≤ time c.1 ∧ time c.1 ≤ b then 1 else 0 := by
  rw [granted, countP_cons]
  simp [granted]

omit [Field K] in
lemma granted_append (a b : K) (calls more : List (ε × Bool)) :
    granted time mine a b (calls ++ more) =
      granted time mine a b calls + granted time mine a b more :=
  countP_append

omit [Field K] in
lemma granted_log_eq_zero {a b : K} {s : σ} {events : List ε} (h : ∀ e ∈ events, b < time e) :
    granted time mine a b (log step s events) = 0 := by
  refine countP_eq_zero.mpr fun c hc => ?_
  have hmem : c.1 ∈ events := map_fst_log s events ▸ mem_map_of_mem hc
  simpa using fun _ _ _ => h c.1 hmem

variable [IsStrictOrderedRing K]

lemma Metered.granted_le (hM : Metered rate burst time mine step level Inv) (hrate : 0 ≤ rate)
    {a b : K} : ∀ {events : List ε} {s : σ} {now : K}, Inv s now → now ≤ b →
      (∀ e ∈ events, now ≤ time e) → events.Pairwise (fun e e' => time e ≤ time e') →
      (granted time mine a b (log step s events) : K) ≤ level s now + rate * (b - now)
  | [], s, now, hs, hnow, _, _ => by
    have hgain : 0 ≤ rate * (b - now) := mul_nonneg hrate (sub_nonneg.mpr hnow)
    simpa [granted] using add_nonneg (hM.nonneg hs) hgain
  | e :: events, s, now, hs, hnow, hlow, hsorted => by
    obtain ⟨hfirst, hrest⟩ := pairwise_cons.mp hsorted
    have he : now ≤ time e := hlow e mem_cons_self
    have hat : Inv s (time e) := hM.later hs he
    have hgain : 0 ≤ rate * (b - now) := mul_nonneg hrate (sub_nonneg.mpr hnow)
    by_cases hb : time e ≤ b
    · have ih := hM.granted_le hrate (a := a) (hM.inv hat) hb hfirst hrest
      have hpays := hM.pays hat
      have hrise := hM.rise hs he
      have hcount : ((if (step s e).2 ∧ mine e ∧ a ≤ time e ∧ time e ≤ b then 1 else 0 : ℕ) : K) ≤
          if (step s e).2 ∧ mine e then 1 else 0 := by
        split_ifs with hall hgranted hgranted
        · simp
        · exact absurd ⟨hall.1, hall.2.1⟩ hgranted
        · simp
        · simp
      have hsplit : rate * (b - now) = rate * (time e - now) + rate * (b - time e) := by ring
      rw [log_cons, granted_cons, Nat.cast_add]
      linarith
    · have hafter : ∀ e' ∈ e :: events, b < time e' :=
        forall_mem_cons.mpr ⟨not_le.mp hb, fun e' he' => (not_le.mp hb).trans_le (hfirst e' he')⟩
      rw [granted_log_eq_zero hafter]
      simpa using add_nonneg (hM.nonneg hs) hgain

lemma Metered.window_le (hM : Metered rate burst time mine step level Inv) (hrate : 0 ≤ rate)
    (hburst : 0 ≤ burst) {a T : K} (hT : 0 ≤ T) : ∀ {events : List ε} {s : σ},
      (∀ e ∈ events, Inv s (time e)) → events.Pairwise (fun e e' => time e ≤ time e') →
      (granted time mine a (a + T) (log step s events) : K) ≤ burst + rate * T
  | [], s, _, _ => by
    simpa [granted] using add_nonneg hburst (mul_nonneg hrate hT)
  | e :: events, s, hs, hsorted => by
    obtain ⟨hfirst, hrest⟩ := pairwise_cons.mp hsorted
    have hat : Inv s (time e) := hs e mem_cons_self
    have hlater : ∀ e' ∈ e :: events, time e ≤ time e' := forall_mem_cons.mpr ⟨le_rfl, hfirst⟩
    by_cases ha : time e < a
    · -- A call before the interval does not count.
      have ih := hM.window_le hrate hburst hT (a := a)
        (fun e' he' => hM.later (hM.inv hat) (hfirst e' he')) hrest
      rw [log_cons, granted_cons, if_neg fun h => absurd h.2.2.1 (not_le.mpr ha)]
      simpa using ih
    · have hstart : a ≤ time e := not_lt.mp ha
      by_cases hb : time e ≤ a + T
      · have hbudget : rate * (a + T - time e) ≤ rate * T :=
          mul_le_mul_of_nonneg_left (by linarith) hrate
        have hall := hM.granted_le hrate (a := a) hat hb hlater hsorted
        have hlevel := hM.le_burst hat
        linarith
      · rw [granted_log_eq_zero fun e' he' => lt_of_lt_of_le (not_le.mp hb) (hlater e' he')]
        simpa using add_nonneg hburst (mul_nonneg hrate hT)

variable (level Inv) in
lemma granted_replicate {e : ε} {a b : K} (hmine : mine e) (ha : a ≤ time e) (hb : time e ≤ b)
    (hinv : ∀ {s}, Inv s (time e) → Inv (step s e).1 (time e))
    (hstep : ∀ {s}, Inv s (time e) → 1 ≤ level s (time e) →
      (step s e).2 = true ∧ level s (time e) - 1 ≤ level (step s e).1 (time e)) :
    ∀ {n : ℕ} {s : σ}, Inv s (time e) → (n : K) ≤ level s (time e) →
      granted time mine a b (log step s (replicate n e)) = n
  | 0, _, _, _ => rfl
  | n + 1, s, hs, hn => by
    rw [Nat.cast_add, Nat.cast_one] at hn
    have hnonneg : (0 : K) ≤ n := Nat.cast_nonneg n
    obtain ⟨hgranted, hlevel⟩ := hstep hs (by linarith)
    have ih := granted_replicate hmine ha hb hinv hstep (n := n) (hinv hs) (by linarith)
    rw [replicate_succ, log_cons, granted_cons, ih, if_pos ⟨hgranted, hmine, ha, hb⟩]

end Wtg.Lib.TokenBucket
