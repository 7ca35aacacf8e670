import Wtg.Lib.TokenBucket

/-! # The rate limiter in memory

`Limiter` (`pkg/ratelimit/ratelimit.go`): a token bucket for each key, made full when the key is
first seen and forgotten by the eviction loop when it has not been used for longer than the idle
time. -/

namespace Wtg.Ratelimit.Memory

open Lib Lib.Runs Lib.TokenBucket List Function Bucket

variable {K : Type*} [Field K] [LinearOrder K]

structure Entry (K : Type*) where
  limiter : Bucket K
  lastUsed : K

structure Limiter (K : Type*) where
  rate : K
  burst : ℕ
  idle : K

def newLimiter (ratePerSec : K) (burst : ℕ) (idleEviction : K) : Limiter K :=
  ⟨ratePerSec, burst, if idleEviction ≤ 0 then 300 else idleEviction⟩

abbrev Keys (K : Type*) := String → Option (Entry K)

variable (l : Limiter K)

def entryFor (keys : Keys K) (key : String) (now : K) : Entry K :=
  (keys key).getD ⟨⟨l.burst, now⟩, 0⟩

def allow (keys : Keys K) (key : String) (now : K) : Keys K × Bool :=
  let taken := (entryFor l keys key now).limiter.take l.rate l.burst now
  (Function.update keys key (some ⟨taken.1, now⟩), taken.2)

def evict (keys : Keys K) (now : K) : Keys K := fun key =>
  match keys key with
  | some e => if e.lastUsed < now - l.idle then none else some e
  | none => none

inductive Event (K : Type*)
  | allow (key : String) (now : K)
  | evict (now : K)

def Event.time : Event K → K
  | .allow _ now => now
  | .evict now => now

def Event.isFor (key : String) : Event K → Bool
  | .allow k _ => k = key
  | .evict _ => false

def step (keys : Keys K) : Event K → Keys K × Bool
  | .allow key now => allow l keys key now
  | .evict now => (evict l keys now, false)

/-- The limit of a limiter: in every interval of every run, from an empty map and on a clock that
does not go back, at most `burst + rate * T` calls of a key are allowed. -/
def LimitHolds : Prop :=
  ∀ events : List (Event K), events.Pairwise (fun e e' => e.time ≤ e'.time) →
    ∀ (key : String) (a T : K), 0 ≤ T →
      (granted Event.time (Event.isFor key) a (a + T) (log (step l) (fun _ => none) events) : K) ≤
        l.burst + l.rate * T

def level (key : String) (keys : Keys K) (t : K) : K :=
  match keys key with
  | some e => e.limiter.level l.rate l.burst t
  | none => l.burst

/-- Entries have no debts and are not used later than now. -/
def Sound (keys : Keys K) (now : K) : Prop :=
  ∀ key e, keys key = some e →
    0 ≤ e.limiter.tokens ∧ e.limiter.last ≤ e.lastUsed ∧ e.lastUsed ≤ now

variable {l} {keys : Keys K} {now : K} {key : String}

lemma level_of_some {e : Entry K} (h : keys key = some e) (t : K) :
    level l key keys t = e.limiter.level l.rate l.burst t := by
  rw [level, h]

lemma level_of_none (h : keys key = none) (t : K) : level l key keys t = l.burst := by
  rw [level, h]

lemma level_entryFor (key : String) :
    (entryFor l keys key now).limiter.level l.rate l.burst now = level l key keys now := by
  rcases h : keys key with _ | e
  · rw [entryFor, h, level_of_none h]
    exact level_at le_rfl
  · rw [entryFor, h, level_of_some h]
    rfl

lemma level_allow_ne {key other : String} (h : key ≠ other) (t : K) :
    level l key (allow l keys other now).1 t = level l key keys t := by
  simp [level, allow, update_of_ne h]

lemma evict_eq_some {e : Entry K} (h : evict l keys now key = some e) : keys key = some e := by
  unfold evict at h
  split at h
  · split_ifs at h
    rwa [← h]
  · exact absurd h (by simp)

/-! ## Calls in order of time -/

variable [IsStrictOrderedRing K]

section

variable (hrate : 0 ≤ l.rate)
include hrate

lemma level_nonneg (hs : Sound keys now) (key : String) : 0 ≤ level l key keys now := by
  rcases h : keys key with _ | e
  · rw [level_of_none h]
    exact Nat.cast_nonneg _
  · obtain ⟨htokens, hlast, hused⟩ := hs key e h
    rw [level_of_some h]
    exact Bucket.level_nonneg hrate (Nat.cast_nonneg _) htokens (hlast.trans hused)

lemma level_allow_self (hs : Sound keys now) (key : String) :
    level l key (allow l keys key now).1 now =
      level l key keys now - if (allow l keys key now).2 then 1 else 0 := by
  have hnonneg := level_nonneg hrate hs key
  rw [← level_entryFor] at hnonneg
  have hentry : (allow l keys key now).1 key = some
      ⟨((entryFor l keys key now).limiter.take l.rate l.burst now).1, now⟩ :=
    update_self _ _ _
  rw [level_of_some hentry, (take_spec hnonneg).2.2, level_entryFor]
  rfl

lemma Sound.allow (hs : Sound keys now) (key : String) :
    Sound (Memory.allow l keys key now).1 now := by
  intro k e he
  by_cases hk : k = key
  · subst hk
    have hnonneg := level_nonneg hrate hs k
    rw [← level_entryFor] at hnonneg
    obtain ⟨htokens, hlast, -⟩ := take_spec hnonneg
    simp only [Memory.allow, update_self] at he
    obtain rfl := Option.some.inj he
    exact ⟨htokens, hlast.le, le_rfl⟩
  · simp only [Memory.allow, update_of_ne hk] at he
    exact hs k e he

lemma level_evict (hidle : l.burst ≤ l.rate * l.idle) (hs : Sound keys now) (key : String) :
    level l key (evict l keys now) now = level l key keys now := by
  rcases h : keys key with _ | e
  · have hnone : evict l keys now key = none := by rw [evict, h]
    rw [level_of_none h, level_of_none hnone]
  · obtain ⟨htokens, hlast, -⟩ := hs key e h
    rw [level_of_some h]
    by_cases hold : e.lastUsed < now - l.idle
    · have hnone : evict l keys now key = none := by
        rw [evict, h]
        exact if_pos hold
      have hgain : l.rate * l.idle ≤ l.rate * (now - e.limiter.last) :=
        mul_le_mul_of_nonneg_left (by linarith) hrate
      rw [level_of_none hnone, Bucket.level, min_eq_left (by linarith)]
    · have hsome : evict l keys now key = some e := by
        rw [evict, h]
        exact if_neg hold
      rw [level_of_some hsome]

lemma metered (hidle : l.burst ≤ l.rate * l.idle) (key : String) :
    Metered l.rate (l.burst : K) Event.time (Event.isFor key) (step l) (level l key) Sound where
  later hs ht k e he :=
    let ⟨htokens, hlast, hused⟩ := hs k e he
    ⟨htokens, hlast, hused.trans ht⟩
  nonneg hs := level_nonneg hrate hs key
  le_burst := by
    intro s now _
    rcases h : s key with _ | e
    · exact (level_of_none h now).le
    · exact (level_of_some h now).le.trans level_le
  rise := by
    intro s now t _ ht
    rcases h : s key with _ | e
    · have hgain : 0 ≤ l.rate * (t - now) := mul_nonneg hrate (sub_nonneg.mpr ht)
      rw [level_of_none h, level_of_none h]
      linarith
    · rw [level_of_some h, level_of_some h]
      exact level_rise hrate ht
  inv := by
    rintro s (⟨k, now⟩ | now) hs
    · exact hs.allow hrate k
    · exact fun k e he => hs k e (evict_eq_some he)
  pays := by
    rintro s (⟨k, now⟩ | now) (hs : Sound s now)
    · by_cases hk : k = key
      · subst hk
        have hlevel := level_allow_self hrate hs k
        simp only [step, Event.time, Event.isFor, decide_true, and_true]
        linarith
      · simp [step, Event.time, Event.isFor, hk, level_allow_ne (Ne.symm hk)]
    · have hlevel := level_evict hrate hidle hs key
      simp only [step, Event.time, Event.isFor, Bool.false_eq_true, and_self, if_false]
      linarith

end

lemma allow_of_le (h : 1 ≤ level l key keys now) :
    (allow l keys key now).2 = true ∧
      level l key (allow l keys key now).1 now = level l key keys now - 1 := by
  have htake := h
  rw [← level_entryFor] at htake
  have hentry : (allow l keys key now).1 key = some ⟨⟨level l key keys now - 1, now⟩, now⟩ := by
    rw [← level_entryFor]
    simp [allow, take_of_le htake]
  have hle : level l key keys now ≤ l.burst := by
    rw [← level_entryFor]
    exact level_le
  refine ⟨?_, ?_⟩
  · simp [allow, take_of_le htake]
  · rw [level_of_some hentry]
    exact level_at (by linarith)

omit [IsStrictOrderedRing K] in
lemma final_replicate (key : String) (now : K) : ∀ (n : ℕ) (keys : Keys K), n ≠ 0 →
    ∃ b, final (step l) keys (replicate n (.allow key now)) key = some ⟨b, now⟩
  | 0, _, h => absurd rfl h
  | 1, keys, _ => ⟨_, update_self _ _ _⟩
  | n + 2, keys, _ => final_replicate key now (n + 1) _ (by omega)

lemma granted_burst (hlevel : level l key keys now = l.burst) {a b : K} (ha : a ≤ now)
    (hb : now ≤ b) :
    granted Event.time (Event.isFor key) a b
      (log (step l) keys (replicate l.burst (.allow key now))) = l.burst := by
  refine granted_replicate (level l key) (fun _ _ => True) ?_ ha hb (fun _ => trivial)
    (fun _ h => ?_) trivial hlevel.ge
  · exact decide_eq_true rfl
  · exact ⟨(allow_of_le h).1, (allow_of_le h).2.ge⟩

lemma idle_pos (ratePerSec : K) (burst : ℕ) (idleEviction : K) :
    0 < (newLimiter ratePerSec burst idleEviction).idle := by
  unfold newLimiter
  split_ifs with h
  · norm_num
  · exact not_le.mp h

def twoBursts (l : Limiter K) (t : K) : List (Event K) :=
  List.replicate l.burst (.allow "k" 0) ++ .evict t :: List.replicate l.burst (.allow "k" t)

omit [IsStrictOrderedRing K] in
lemma pairwise_twoBursts {t : K} (ht : 0 ≤ t) :
    (twoBursts l t).Pairwise fun e e' => e.time ≤ e'.time := by
  have hlater : ∀ e ∈ (.evict t :: replicate l.burst (.allow "k" t) : List (Event K)),
      e.time = t := by
    refine forall_mem_cons.mpr ⟨rfl, fun e he => ?_⟩
    rw [(mem_replicate.mp he).2]
    rfl
  rw [twoBursts, pairwise_append]
  refine ⟨pairwise_replicate.mpr (.inr le_rfl), ?_, fun e he e' he' => ?_⟩
  · exact pairwise_iff_forall_sublist.mpr fun {e e'} hsub => by
      rw [hlater e (hsub.subset (by simp)), hlater e' (hsub.subset (by simp))]
  · rw [(mem_replicate.mp he).2, hlater e' he']
    exact ht

lemma granted_twoBursts {t : K} (hburst : 1 ≤ l.burst) (ht : 0 ≤ t) (hidle : l.idle < t) :
    granted Event.time (Event.isFor "k") 0 t (log (step l) (fun _ => none) (twoBursts l t)) =
      l.burst + l.burst := by
  obtain ⟨b, hfinal⟩ := final_replicate (l := l) "k" 0 l.burst (fun _ => none) (by omega)
  have hgone : evict l (final (step l) (fun _ => none)
      (replicate l.burst (.allow "k" 0))) t "k" = none := by
    rw [evict, hfinal]
    exact if_pos (by simpa using hidle)
  rw [twoBursts, log_append, granted_append, log_cons, granted_cons,
    granted_burst (level_of_none rfl 0) le_rfl ht, if_neg (by simp [step])]
  rw [show (step l (final (step l) (fun _ => none) (replicate l.burst (.allow "k" 0)))
    (.evict t)).1 = evict l _ t from rfl, granted_burst (level_of_none hgone t) ht le_rfl,
    Nat.add_zero]

lemma limitHolds_iff (hrate : 0 < l.rate) (hburst : 1 ≤ l.burst) (hidle : 0 < l.idle) :
    LimitHolds l ↔ l.burst ≤ l.rate * l.idle := by
  refine ⟨fun hholds => ?_, fun hfull events hsorted key a T hT => ?_⟩
  · by_contra hshort
    -- A time between the idle time and the time in which the bucket would fill.
    obtain ⟨t, hlow, hhigh⟩ := exists_between
      (show l.idle < l.burst / l.rate by rw [lt_div_iff₀ hrate]; linarith [not_le.mp hshort])
    have ht : 0 ≤ t := (hidle.trans hlow).le
    have hbound := hholds (twoBursts l t) (pairwise_twoBursts ht) "k" 0 t ht
    rw [zero_add, granted_twoBursts hburst ht hlow, Nat.cast_add] at hbound
    rw [lt_div_iff₀ hrate] at hhigh
    linarith
  · exact (metered hrate.le hfull key).window_le hrate.le (Nat.cast_nonneg _) hT
      (fun _ _ k e he => absurd he (by simp)) hsorted

end Wtg.Ratelimit.Memory
