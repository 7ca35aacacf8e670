import Wtg.Ratelimit.Redis

/-! # Clocks that disagree

Several gateways share a `RedisLimiter` and pass the times of their own clocks, so the time of a
call may be smaller than that of the call before it. -/

namespace Wtg.Ratelimit.Skew

open Lib Lib.Runs Ratelimit.Redis List

variable {K : Type*} [Field K] [LinearOrder K]

abbrev Shared (K : Type*) := String → Option (Data K)

def step (rate : K) (burst : ℕ) (db : Shared K) (call : String × K) : Shared K × Bool :=
  let run := luaTokenBucket rate burst (db call.1) call.2
  (Function.update db call.1 (some run.1), run.2)

def total (key : String) (calls : List ((String × K) × Bool)) : ℕ :=
  calls.countP fun c => c.2 ∧ c.1.1 = key

def readings (key : String) (calls : List (String × K)) : List K :=
  (calls.filter fun c => c.1 = key).map Prod.snd

def totalRise : List K → K
  | [] => 0
  | [_] => 0
  | t :: t' :: ts => max (t' - t) 0 + totalRise (t' :: ts)

def allowedOn (rate burst : K) : Option (Data K) → List K → ℕ
  | _, [] => 0
  | data, t :: ts =>
    allowedOn rate burst (some (luaTokenBucket rate burst data t).1) ts +
      if (luaTokenBucket rate burst data t).2 then 1 else 0

omit [Field K] [LinearOrder K] in
lemma total_cons (key : String) (call : String × K) (ok : Bool)
    (calls : List ((String × K) × Bool)) :
    total key ((call, ok) :: calls) = total key calls + if ok ∧ call.1 = key then 1 else 0 := by
  simp [total, countP_cons]

lemma total_log (rate : K) (burst : ℕ) (key : String) : ∀ (db : Shared K)
    (calls : List (String × K)), total key (log (step rate burst) db calls) =
      allowedOn rate burst (db key) (readings key calls)
  | _, [] => rfl
  | db, (k, t) :: calls => by
    rw [log_cons, total_cons, total_log rate burst key]
    by_cases hk : k = key
    · subst hk
      simp [readings, step, allowedOn]
    · simp [readings, step, hk, Function.update_of_ne (Ne.symm hk)]

variable {rate burst : K} {ts : List K} {data : Option (Data K)}

lemma allowedOn_of_le {t : K} (h : 1 ≤ refill rate burst data t) :
    allowedOn rate burst data (t :: ts) =
      allowedOn rate burst (some (refill rate burst data t - 1, t)) ts + 1 := by
  simp [allowedOn, luaTokenBucket, h]

lemma allowedOn_of_not_le {t : K} (h : ¬ 1 ≤ refill rate burst data t) :
    allowedOn rate burst data (t :: ts) =
      allowedOn rate burst (some (refill rate burst data t, t)) ts := by
  simp [allowedOn, luaTokenBucket, h]

lemma refill_some (rate : K) {tokens : K} (hburst : tokens ≤ burst) (ts t : K) :
    refill rate burst (some (tokens, ts)) t = min burst (tokens + rate * max (t - ts) 0) := by
  simp only [refill, Option.getD_some]
  split_ifs with h
  · rw [max_eq_left h.le, mul_comm]
  · rw [max_eq_right (not_lt.mp h), mul_zero, add_zero, min_eq_right hburst]

lemma allowedOn_none (t : K) (ts : List K) :
    allowedOn rate burst none (t :: ts) = allowedOn rate burst (some (burst, t)) (t :: ts) := by
  have hrefill : refill rate burst none t = refill rate burst (some (burst, t)) t := by
    simp [refill]
  rw [allowedOn, allowedOn, luaTokenBucket, luaTokenBucket, hrefill]

/-! ## Calls in order of time -/

section

variable [IsStrictOrderedRing K]

lemma allowedOn_le (hrate : 0 ≤ rate) (hburst : 0 ≤ burst) : ∀ (readings : List K)
    {tokens : K} (ts : K), 0 ≤ tokens → tokens ≤ burst →
      (allowedOn rate burst (some (tokens, ts)) readings : K) ≤
        tokens + rate * totalRise (ts :: readings)
  | [], tokens, ts, htokens, _ => by simpa [allowedOn, totalRise] using htokens
  | t :: readings, tokens, ts, htokens, hle => by
    have hgain : 0 ≤ rate * max (t - ts) 0 := mul_nonneg hrate (le_max_right _ _)
    have hfound := refill_some rate hle ts t
    have hcap : refill rate burst (some (tokens, ts)) t ≤ burst := hfound ▸ min_le_left _ _
    have hcredit : refill rate burst (some (tokens, ts)) t ≤ tokens + rate * max (t - ts) 0 :=
      hfound ▸ min_le_right _ _
    have hpos : 0 ≤ refill rate burst (some (tokens, ts)) t :=
      hfound ▸ le_min hburst (add_nonneg htokens hgain)
    have hsplit : rate * totalRise (ts :: t :: readings) =
        rate * max (t - ts) 0 + rate * totalRise (t :: readings) := by
      rw [totalRise, mul_add]
    rw [hsplit]
    by_cases hone : 1 ≤ refill rate burst (some (tokens, ts)) t
    · have ih := allowedOn_le hrate hburst readings t (sub_nonneg.mpr hone) (by linarith)
      rw [allowedOn_of_le hone, Nat.cast_add, Nat.cast_one]
      linarith
    · have ih := allowedOn_le hrate hburst readings t hpos hcap
      rw [allowedOn_of_not_le hone]
      linarith

lemma one_le_allowedOn (hrate : 0 ≤ rate) : ∀ {readings : List K} {tokens ts : K}, tokens < 1 →
    1 ≤ tokens + rate * totalRise (ts :: readings) →
      1 ≤ allowedOn rate 1 (some (tokens, ts)) readings
  | [], tokens, ts, hlt, hle => by
    simp only [totalRise, mul_zero, add_zero] at hle
    exact absurd hle (not_le.mpr hlt)
  | t :: readings, tokens, ts, hlt, hle => by
    have hfound := refill_some rate hlt.le ts t
    by_cases hone : 1 ≤ refill rate 1 (some (tokens, ts)) t
    · rw [allowedOn_of_le hone]
      omega
    · rw [allowedOn_of_not_le hone]
      have hshort : tokens + rate * max (t - ts) 0 < 1 := by
        by_contra hfull
        rw [hfound, min_eq_left (not_lt.mp hfull)] at hone
        exact hone le_rfl
      rw [min_eq_right hshort.le] at hfound
      refine one_le_allowedOn hrate (by rwa [hfound]) ?_
      rw [totalRise, mul_add] at hle
      rw [hfound]
      linarith

/-- **The limit of the whole run, exactly:** it holds at every rate and burst if and only if the
rises of the readings add up to no more than the distance of the largest and the smallest. -/
theorem total_le_iff {calls : List (String × K)} {key : String} {lo hi : K}
    (hlo : IsLeast {t | t ∈ readings key calls} lo)
    (hhi : IsGreatest {t | t ∈ readings key calls} hi) :
    (∀ rate : K, 0 ≤ rate → ∀ burst : ℕ,
      (total key (log (step rate burst) (fun _ => none) calls) : K) ≤ burst + rate * (hi - lo)) ↔
      totalRise (readings key calls) ≤ hi - lo := by
  obtain ⟨t, ts, hreadings⟩ : ∃ t ts, readings key calls = t :: ts :=
    exists_cons_of_ne_nil (ne_nil_of_mem hlo.1)
  simp only [total_log, hreadings]
  rw [hreadings] at hlo hhi
  have hspan : 0 ≤ hi - lo := sub_nonneg.mpr (hlo.2 hhi.1)
  constructor
  · intro hlimit
    by_contra hrise
    have hpos : 0 < totalRise (t :: ts) := lt_of_le_of_lt hspan (not_le.mp hrise)
    -- At the rate that fills one token in the sum of the rises, two calls pass.
    have hrate : 0 ≤ 1 / totalRise (t :: ts) := (one_div_pos.mpr hpos).le
    have hbound := hlimit _ hrate 1
    have hfirst : refill (1 / totalRise (t :: ts)) ((1 : ℕ) : K) none t = 1 := by simp [refill]
    rw [allowedOn_of_le hfirst.ge, hfirst, sub_self, Nat.cast_one] at hbound
    have hsecond : 1 ≤ allowedOn (1 / totalRise (t :: ts)) 1 (some ((0 : K), t)) ts := by
      refine one_le_allowedOn hrate zero_lt_one ?_
      rw [zero_add, one_div_mul_cancel hpos.ne']
    have hcast : (1 : K) ≤ (allowedOn (1 / totalRise (t :: ts)) 1 (some ((0 : K), t)) ts : ℕ) := by
      exact_mod_cast hsecond
    have hless : 1 / totalRise (t :: ts) * (hi - lo) < 1 := by
      rw [one_div, inv_mul_lt_iff₀ hpos, mul_one]
      exact not_le.mp hrise
    push_cast at hbound
    linarith
  · intro hrise rate hrate burst
    have hpaid := allowedOn_le hrate (Nat.cast_nonneg burst) (t :: ts) t
      (Nat.cast_nonneg burst) (le_refl (burst : K))
    have hsame : totalRise (t :: t :: ts) = totalRise (t :: ts) := by simp [totalRise]
    rw [hsame] at hpaid
    rw [allowedOn_none]
    exact hpaid.trans (by gcongr)

lemma totalRise_of_sorted : ∀ {t : K} {ts : List K}, (t :: ts).Pairwise (· ≤ ·) →
    ∃ last ∈ t :: ts, totalRise (t :: ts) = last - t
  | t, [], _ => ⟨t, mem_cons_self, (sub_self t).symm⟩
  | t, t' :: ts, h => by
    obtain ⟨hfirst, hrest⟩ := pairwise_cons.mp h
    obtain ⟨last, hlast, hrise⟩ := totalRise_of_sorted hrest
    have hstep : 0 ≤ t' - t := sub_nonneg.mpr (hfirst t' mem_cons_self)
    refine ⟨last, mem_cons_of_mem t hlast, ?_⟩
    rw [totalRise, hrise, max_eq_left hstep]
    ring

lemma totalRise_le_of_sorted {lo hi : K} (hlo : IsLeast {t | t ∈ ts} lo)
    (hhi : IsGreatest {t | t ∈ ts} hi) (hsorted : ts.Pairwise (· ≤ ·)) :
    totalRise ts ≤ hi - lo := by
  obtain ⟨t, ts, rfl⟩ := exists_cons_of_ne_nil (ne_nil_of_mem hlo.1)
  obtain ⟨last, hlast, hrise⟩ := totalRise_of_sorted hsorted
  rw [hrise]
  exact sub_le_sub (hhi.2 hlast) (hlo.2 mem_cons_self)

end

theorem total_le_agreeing :
    (total "k" (log (step (1 / 10 : ℚ) 1) (fun _ => none) [("k", 0), ("k", 10)]) : ℚ) ≤
      (1 : ℕ) + 1 / 10 * (10 - 0) := by
  have hlo : IsLeast {t | t ∈ readings "k" [("k", (0 : ℚ)), ("k", 10)]} 0 := by
    refine ⟨by simp [readings], fun t ht => ?_⟩
    rcases (by simpa [readings] using ht : t = 0 ∨ t = 10) with rfl | rfl <;> norm_num
  have hhi : IsGreatest {t | t ∈ readings "k" [("k", (0 : ℚ)), ("k", 10)]} 10 := by
    refine ⟨by simp [readings], fun t ht => ?_⟩
    rcases (by simpa [readings] using ht : t = 0 ∨ t = 10) with rfl | rfl <;> norm_num
  refine (total_le_iff hlo hhi).mpr ?_ (1 / 10) (by norm_num) 1
  exact totalRise_le_of_sorted hlo hhi (by simp [readings])

theorem skewed_clocks_broken :
    total "k" (log (step (1 / 10 : ℚ) 1) (fun _ => none)
      [("k", 10), ("k", 0), ("k", 10), ("k", 0), ("k", 10)]) = 3 ∧
    ¬ (3 : ℚ) ≤ (1 : ℕ) + 1 / 10 * (10 - 0) := by
  refine ⟨by decide +kernel, by norm_num⟩

end Wtg.Ratelimit.Skew
