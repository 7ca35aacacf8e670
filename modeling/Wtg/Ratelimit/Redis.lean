import Wtg.Ratelimit.Memory

/-! # The rate limiter in Redis

`RedisLimiter` (`pkg/ratelimit/redis.go`): the token bucket of a key is kept in Redis and brought up
to date by a script, in one step (`luaTokenBucket`). -/

namespace Wtg.Ratelimit.Redis

open Lib Lib.Runs Lib.TokenBucket List Function

variable {K : Type*} [Field K] [LinearOrder K]

abbrev Data (K : Type*) := K × K

def refill (rate burst : K) (data : Option (Data K)) (now : K) : K :=
  let stored := data.getD (burst, now)
  let elapsed := now - stored.2
  if 0 < elapsed then min burst (stored.1 + elapsed * rate) else stored.1

def luaTokenBucket (rate burst : K) (data : Option (Data K)) (now : K) : Data K × Bool :=
  let tokens := refill rate burst data now
  if 1 ≤ tokens then ((tokens - 1, now), true) else ((tokens, now), false)

structure RedisLimiter (K : Type*) where
  rate : K
  burst : ℕ
  ttl : ℕ

/-- `NewRedisLimiter`: the time to live is given in nanoseconds, a minute if it is not set, and cut
down to whole seconds for `EXPIRE`. -/
def newRedisLimiter (ratePerSec : K) (burst : ℕ) (keyTTL : ℤ) : RedisLimiter K :=
  let ttl := if keyTTL ≤ 0 then 60 * 10 ^ 9 else keyTTL
  ⟨ratePerSec, burst, (ttl / 10 ^ 9).toNat⟩

structure Stored (K : Type*) where
  data : Data K
  expires : K

abbrev Db (K : Type*) := String → Option (Stored K)

def live (db : Db K) (key : String) (now : K) : Option (Data K) :=
  match db key with
  | some d => if d.expires ≤ now then none else some d.data
  | none => none

variable (l : RedisLimiter K)

def allowAt (db : Db K) (key : String) (now : K) : Db K × Bool :=
  let run := luaTokenBucket l.rate l.burst (live db key now) now
  (Function.update db key (some ⟨run.1, now + l.ttl⟩), run.2)

def step (db : Db K) (call : String × K) : Db K × Bool := allowAt l db call.1 call.2

/-- The limit of a limiter: in every interval of every run, from an empty database and on a clock
that does not go back, at most `burst + rate * T` calls of a key are allowed. -/
def LimitHolds : Prop :=
  ∀ calls : List (String × K), calls.Pairwise (fun c c' => c.2 ≤ c'.2) →
    ∀ (key : String) (a T : K), 0 ≤ T →
      (granted Prod.snd (fun c => c.1 = key) a (a + T) (log (step l) (fun _ => none) calls) : K) ≤
        l.burst + l.rate * T

def bucketAt (db : Db K) (key : String) (t : K) : Bucket K :=
  match live db key t with
  | some (tokens, ts) => ⟨tokens, ts⟩
  | none => ⟨l.burst, t⟩

def level (key : String) (db : Db K) (t : K) : K := (bucketAt l db key t).level l.rate l.burst t

/-- Keys hold tokens of the past, and vanish when their time to live is over. -/
def Sound (db : Db K) (now : K) : Prop :=
  ∀ key d, db key = some d →
    0 ≤ d.data.1 ∧ d.data.1 ≤ l.burst ∧ d.data.2 ≤ now ∧ d.expires = d.data.2 + l.ttl

variable {l} {db : Db K} {now : K} {key : String} {t : K}

omit [Field K] in
lemma live_eq_some {data : Data K} (h : live db key t = some data) :
    ∃ d, db key = some d ∧ d.data = data ∧ t < d.expires := by
  unfold live at h
  split at h
  · rename_i d hd
    split_ifs at h with hexp
    exact ⟨d, hd, Option.some.inj h, not_le.mp hexp⟩
  · exact absurd h (by simp)

lemma bucketAt_of_none (h : live db key t = none) :
    bucketAt l db key t = ⟨l.burst, t⟩ := by
  rw [bucketAt, h]

lemma bucketAt_of_some {data : Data K} (h : live db key t = some data) :
    bucketAt l db key t = ⟨data.1, data.2⟩ := by
  rw [bucketAt, h]

lemma level_le (key : String) (t : K) : level l key db t ≤ l.burst := Bucket.level_le

lemma level_of_live {t tokens ts : K} (h : live db key t = some (tokens, ts)) :
    level l key db t = (Bucket.mk tokens ts).level l.rate l.burst t := by
  rw [level, bucketAt_of_some h]

lemma level_of_gone (h : live db key t = none) : level l key db t = l.burst := by
  rw [level, bucketAt_of_none h, Bucket.level_at le_rfl]

variable (l) in
def left (key : String) (db : Db K) (now : K) : K :=
  level l key db now - if 1 ≤ level l key db now then 1 else 0

/-! ## Calls in order of time -/

section

variable [IsStrictOrderedRing K]

lemma refill_eq (hs : Sound l db now) (key : String) :
    refill l.rate l.burst (live db key now) now = level l key db now := by
  rcases h : live db key now with _ | data
  · rw [level_of_gone h]
    simp [refill]
  · obtain ⟨d, hd, rfl, -⟩ := live_eq_some h
    obtain ⟨-, hburst, hpast, -⟩ := hs key d hd
    rw [level_of_live h, Bucket.level]
    simp only [refill, Option.getD_some]
    split_ifs with helapsed
    · rw [mul_comm]
    · have hnow : now - d.data.2 = 0 := le_antisymm (not_lt.mp helapsed) (sub_nonneg.mpr hpast)
      rw [hnow, mul_zero, add_zero, min_eq_right hburst]

lemma level_nonneg (hrate : 0 ≤ l.rate) (hs : Sound l db now) (key : String) :
    0 ≤ level l key db now := by
  rcases h : live db key now with _ | data
  · rw [level_of_gone h]
    exact Nat.cast_nonneg _
  · obtain ⟨d, hd, rfl, -⟩ := live_eq_some h
    obtain ⟨htokens, -, hpast, -⟩ := hs key d hd
    rw [level_of_live h]
    exact Bucket.level_nonneg hrate (Nat.cast_nonneg _) htokens hpast

lemma allowAt_eq (hs : Sound l db now) (key : String) :
    allowAt l db key now =
      (update db key (some ⟨(left l key db now, now), now + l.ttl⟩),
        decide (1 ≤ level l key db now)) := by
  simp only [allowAt, luaTokenBucket, refill_eq hs, left]
  by_cases h : 1 ≤ level l key db now
  · simp only [h, if_true, decide_true]
  · simp only [h, if_false, decide_false, sub_zero]

lemma left_bounds (hrate : 0 ≤ l.rate) (hs : Sound l db now) (key : String) :
    0 ≤ left l key db now ∧ left l key db now ≤ l.burst := by
  have hnonneg := level_nonneg hrate hs key
  have hle : level l key db now ≤ l.burst := level_le key now
  unfold left
  split_ifs with hone
  · exact ⟨sub_nonneg.mpr hone, by linarith⟩
  · exact ⟨by linarith, by linarith⟩

lemma Sound.allowAt (hrate : 0 ≤ l.rate) (hs : Sound l db now) (key : String) :
    Sound l (Redis.allowAt l db key now).1 now := by
  intro k d hd
  rw [allowAt_eq hs key] at hd
  by_cases hk : k = key
  · subst hk
    simp only [update_self] at hd
    obtain rfl := Option.some.inj hd
    obtain ⟨hnonneg, hle⟩ := left_bounds hrate hs k
    exact ⟨hnonneg, hle, le_rfl, rfl⟩
  · simp only [update_of_ne hk] at hd
    exact hs k d hd

lemma level_allowAt_self (hrate : 0 ≤ l.rate) (hs : Sound l db now) (key : String) :
    level l key (allowAt l db key now).1 now =
      if l.ttl = 0 then (l.burst : K) else left l key db now := by
  rw [allowAt_eq hs key]
  split_ifs with httl
  · refine level_of_gone ?_
    simp [live, httl]
  · have hlive : live (update db key (some ⟨(left l key db now, now), now + l.ttl⟩)) key
        now = some (left l key db now, now) := by
      simp [live, httl]
    rw [level_of_live hlive, Bucket.level_at (left_bounds hrate hs key).2]

lemma level_allowAt_ne (hs : Sound l db now) {key other : String} (h : key ≠ other) (t : K) :
    level l key (allowAt l db other now).1 t = level l key db t := by
  rw [allowAt_eq hs other]
  simp [level, bucketAt, live, update_of_ne h]

lemma level_eq (hrate : 0 ≤ l.rate) (hfull : l.burst ≤ l.rate * l.ttl) (hs : Sound l db now)
    {d : Stored K} (hd : db key = some d) (t : K) :
    level l key db t = (Bucket.mk d.data.1 d.data.2).level l.rate l.burst t := by
  obtain ⟨htokens, -, -, hexpires⟩ := hs key d hd
  by_cases hgone : d.expires ≤ t
  · have hgain : l.rate * l.ttl ≤ l.rate * (t - d.data.2) :=
      mul_le_mul_of_nonneg_left (by linarith) hrate
    rw [level_of_gone (by rw [live, hd]; exact if_pos hgone), Bucket.level,
      min_eq_left (by simp only; linarith)]
  · rw [level_of_live (show live db key t = some d.data by rw [live, hd]; exact if_neg hgone)]

lemma metered (hrate : 0 ≤ l.rate) (hburst : 1 ≤ l.burst) (hfull : l.burst ≤ l.rate * l.ttl)
    (key : String) :
    Metered l.rate (l.burst : K) Prod.snd (fun c => c.1 = key) (step l) (level l key)
      (Sound l) where
  later hs ht k d hd :=
    let ⟨htokens, hle, hpast, hexpires⟩ := hs k d hd
    ⟨htokens, hle, hpast.trans ht, hexpires⟩
  nonneg hs := level_nonneg hrate hs key
  le_burst _ := level_le key _
  rise := by
    intro db now t hs ht
    rcases h : db key with _ | d
    · have hgain : 0 ≤ l.rate * (t - now) := mul_nonneg hrate (sub_nonneg.mpr ht)
      rw [level_of_gone (by rw [live, h]), level_of_gone (by rw [live, h])]
      linarith
    · rw [level_eq hrate hfull hs h t, level_eq hrate hfull hs h now]
      exact Bucket.level_rise hrate ht
  inv := by
    rintro db ⟨k, now⟩ hs
    exact hs.allowAt hrate k
  pays := by
    rintro db ⟨k, now⟩ (hs : Sound l db now)
    have httl : l.ttl ≠ 0 := by
      intro hzero
      have hone : (1 : K) ≤ l.burst := Nat.one_le_cast.mpr hburst
      rw [hzero, Nat.cast_zero, mul_zero] at hfull
      linarith
    by_cases hk : k = key
    · subst hk
      have hlevel := level_allowAt_self hrate hs k
      rw [if_neg httl, left] at hlevel
      simp only [step, hlevel, decide_true, and_true, (congrArg Prod.snd (allowAt_eq hs k))]
      simp
    · simp [step, hk, level_allowAt_ne hs (Ne.symm hk)]

omit [IsStrictOrderedRing K] in
lemma final_replicate (key : String) (now : K) : ∀ (n : ℕ) (db : Db K), n ≠ 0 →
    ∃ data, final (step l) db (replicate n (key, now)) key = some ⟨data, now + l.ttl⟩
  | 0, _, h => absurd rfl h
  | 1, db, _ => ⟨_, update_self _ _ _⟩
  | n + 2, db, _ => final_replicate key now (n + 1) _ (by omega)

lemma final_sound (hrate : 0 ≤ l.rate) (key : String) : ∀ (n : ℕ) {db : Db K}, Sound l db now →
    Sound l (final (step l) db (replicate n (key, now))) now
  | 0, _, hs => hs
  | n + 1, _, hs => final_sound hrate key n (hs.allowAt hrate key)

lemma granted_burst (hrate : 0 ≤ l.rate) (hs : Sound l db now)
    (hlevel : level l key db now = l.burst) {a b : K} (ha : a ≤ now) (hb : now ≤ b) :
    granted Prod.snd (fun c => c.1 = key) a b
      (log (step l) db (replicate l.burst (key, now))) = l.burst := by
  refine granted_replicate (level l key) (Sound l) ?_ ha hb (fun hs => hs.allowAt hrate key)
    (fun {db} hs hone => ?_) hs hlevel.ge
  · exact decide_eq_true rfl
  · have hle : level l key db now ≤ l.burst := level_le key now
    have hanswer : (allowAt l db key now).2 = decide (1 ≤ level l key db now) := by
      rw [allowAt_eq hs]
    refine ⟨hanswer.trans (decide_eq_true hone), ?_⟩
    simp only [step, level_allowAt_self hrate hs key, left]
    split_ifs
    · linarith
    · exact le_rfl

def twoBursts (l : RedisLimiter K) : List (String × K) :=
  List.replicate l.burst ("k", 0) ++ List.replicate l.burst ("k", (l.ttl : K))

lemma pairwise_twoBursts : (twoBursts l).Pairwise fun c c' => c.2 ≤ c'.2 := by
  rw [twoBursts, pairwise_append]
  refine ⟨pairwise_replicate.mpr (.inr le_rfl), pairwise_replicate.mpr (.inr le_rfl),
    fun c hc c' hc' => ?_⟩
  rw [(mem_replicate.mp hc).2, (mem_replicate.mp hc').2]
  exact Nat.cast_nonneg _

lemma granted_twoBursts (hrate : 0 ≤ l.rate) (hburst : 1 ≤ l.burst) :
    granted Prod.snd (fun c => c.1 = "k") 0 (l.ttl : K)
      (log (step l) (fun _ => none) (twoBursts l)) = l.burst + l.burst := by
  have httl : (0 : K) ≤ l.ttl := Nat.cast_nonneg _
  have hempty : Sound l (fun _ => none) (0 : K) := fun k d hd => absurd hd (by simp)
  obtain ⟨data, hfinal⟩ := final_replicate (l := l) "k" 0 l.burst (fun _ => none) (by omega)
  have hsound := final_sound hrate "k" l.burst hempty
  have hgone : live (final (step l) (fun _ => none) (replicate l.burst ("k", 0))) "k"
      (l.ttl : K) = none := by
    rw [live, hfinal]
    exact if_pos (by simp)
  rw [twoBursts, log_append, granted_append,
    granted_burst hrate hempty (level_of_gone rfl) le_rfl httl,
    granted_burst hrate (fun k d hd => ?_) (level_of_gone hgone) httl le_rfl]
  obtain ⟨htokens, hle, hpast, hexpires⟩ := hsound k d hd
  exact ⟨htokens, hle, hpast.trans httl, hexpires⟩

lemma limitHolds_iff (hrate : 0 < l.rate) (hburst : 1 ≤ l.burst) :
    LimitHolds l ↔ l.burst ≤ l.rate * l.ttl := by
  refine ⟨fun hholds => ?_, fun hfull calls hsorted key a T hT => ?_⟩
  · have hbound := hholds (twoBursts l) pairwise_twoBursts "k" 0 l.ttl (Nat.cast_nonneg _)
    rw [zero_add, granted_twoBursts hrate.le hburst, Nat.cast_add] at hbound
    linarith
  · exact (metered hrate.le hburst hfull key).window_le hrate.le (Nat.cast_nonneg _) hT
      (fun _ _ k d hd => absurd hd (by simp)) hsorted

/-- **When the limits hold:** in memory, if the bucket fills within the idle time; in Redis, if it
fills within the whole seconds of the time to live. -/
theorem limits_hold_iff {rate : K} {burst : ℕ} (hrate : 0 < rate) (hburst : 1 ≤ burst)
    (idleEviction : K) (keyTTL : ℤ) :
    (Memory.LimitHolds (Memory.newLimiter rate burst idleEviction) ↔
      burst ≤ rate * (Memory.newLimiter rate burst idleEviction).idle) ∧
    (LimitHolds (newRedisLimiter rate burst keyTTL) ↔
      burst ≤ rate * (newRedisLimiter rate burst keyTTL).ttl) :=
  ⟨Memory.limitHolds_iff hrate hburst (Memory.idle_pos rate burst idleEviction),
    limitHolds_iff hrate hburst⟩

end

theorem limits_hold_hundred :
    Memory.LimitHolds (Memory.newLimiter (100 : ℚ) 200 300) ∧
      LimitHolds (newRedisLimiter (100 : ℚ) 200 (60 * 10 ^ 9)) := by
  obtain ⟨hmemory, hredis⟩ := limits_hold_iff (show (0 : ℚ) < 100 by norm_num)
    (show 1 ≤ 200 by norm_num) 300 (60 * 10 ^ 9)
  have httl : (newRedisLimiter (100 : ℚ) 200 (60 * 10 ^ 9)).ttl = 60 := rfl
  refine ⟨hmemory.mpr (by norm_num [Memory.newLimiter]), hredis.mpr ?_⟩
  rw [httl]
  norm_num

theorem slow_limits_broken :
    (Memory.twoBursts (Memory.newLimiter (1 / 100 : ℚ) 5 0) 301).Pairwise
        (fun e e' => e.time ≤ e'.time) ∧
    granted Memory.Event.time (Memory.Event.isFor "k") 0 301
      (log (Memory.step (Memory.newLimiter (1 / 100 : ℚ) 5 0)) (fun _ => none)
        (Memory.twoBursts (Memory.newLimiter (1 / 100 : ℚ) 5 0) 301)) = 10 ∧
    ¬ (10 : ℚ) ≤ 5 + 1 / 100 * 301 ∧
    (twoBursts (newRedisLimiter (1 / 100 : ℚ) 5 0)).Pairwise (fun c c' => c.2 ≤ c'.2) ∧
    granted Prod.snd (fun c => c.1 = "k") 0 60
      (log (step (newRedisLimiter (1 / 100 : ℚ) 5 0)) (fun _ => none)
        (twoBursts (newRedisLimiter (1 / 100 : ℚ) 5 0))) = 10 ∧
    ¬ (10 : ℚ) ≤ 5 + 1 / 100 * 60 := by
  have hmemory := Memory.granted_twoBursts (l := Memory.newLimiter (1 / 100 : ℚ) 5 0)
    (show 1 ≤ 5 by norm_num) (show (0 : ℚ) ≤ 301 by norm_num) (by norm_num [Memory.newLimiter])
  have hredis := granted_twoBursts (l := newRedisLimiter (1 / 100 : ℚ) 5 0)
    (show (0 : ℚ) ≤ 1 / 100 by norm_num) (show 1 ≤ 5 by norm_num)
  have httl : (newRedisLimiter (1 / 100 : ℚ) 5 0).ttl = 60 := rfl
  rw [httl, Nat.cast_ofNat] at hredis
  exact ⟨Memory.pairwise_twoBursts (by norm_num), hmemory, by norm_num, pairwise_twoBursts, hredis,
    by norm_num⟩

end Wtg.Ratelimit.Redis
