import Mathlib.Algebra.Order.Group.Unbundled.Int
import Mathlib.Order.Bounds.Basic
import Wtg.Pricing.Engine

/-! # Bars

`Timeframe` and `Bar` of `pkg/quote/bar.go`: a bar is opened by a first quote, at the start of the
bucket the quote lies in, takes up more quotes and is closed. -/

namespace Wtg.Quote.Bars

open List

open Pricing.Engine (Quote)

inductive Timeframe
  | tf1s | tf30s | tf1m | tf5m | tf15m | tf1h | tf4h | tf1d
deriving DecidableEq, Repr

def allTimeframes : List Timeframe := [.tf1s, .tf30s, .tf1m, .tf5m, .tf15m, .tf1h, .tf4h, .tf1d]

def second : ℤ := 1000000000
def minute : ℤ := 60 * second
def hour : ℤ := 60 * minute

/-- `time.Truncate` counts from year 1, not from 1970. -/
def truncate (ts d : ℤ) : ℤ := if d ≤ 0 then ts else ts - (ts + 62135596800 * second) % d

namespace Timeframe

def duration : Timeframe → ℤ
  | .tf1s => second
  | .tf30s => 30 * second
  | .tf1m => minute
  | .tf5m => 5 * minute
  | .tf15m => 15 * minute
  | .tf1h => hour
  | .tf4h => 4 * hour
  | .tf1d => 24 * hour

def bucketStart (t : Timeframe) (ts : ℤ) : ℤ :=
  let d := t.duration
  if d ≤ 0 then ts else truncate ts d

def bucketEnd (t : Timeframe) (start : ℤ) : ℤ := start + t.duration

end Timeframe

/-- Open, high, low and close of both sides. -/
structure Bar (R : Type*) where
  pair : String
  tf : Timeframe
  openedAt : ℤ
  closedAt : Option ℤ
  openBid : R
  openAsk : R
  highBid : R
  highAsk : R
  lowBid : R
  lowAsk : R
  closeBid : R
  closeAsk : R
  tickCount : ℕ
deriving DecidableEq, Repr

variable {R : Type*}

def newBar (tf : Timeframe) (first : Quote R) : Bar R where
  pair := first.pair
  tf := tf
  openedAt := tf.bucketStart first.ts.nanos
  closedAt := none
  openBid := first.bid
  openAsk := first.ask
  highBid := first.bid
  highAsk := first.ask
  lowBid := first.bid
  lowAsk := first.ask
  closeBid := first.bid
  closeAsk := first.ask
  tickCount := 1

namespace Bar

def update [LinearOrder R] (b : Bar R) (q : Quote R) : Bar R :=
  { b with
    highBid := if q.bid > b.highBid then q.bid else b.highBid
    lowBid := if q.bid < b.lowBid then q.bid else b.lowBid
    highAsk := if q.ask > b.highAsk then q.ask else b.highAsk
    lowAsk := if q.ask < b.lowAsk then q.ask else b.lowAsk
    closeBid := q.bid
    closeAsk := q.ask
    tickCount := b.tickCount + 1 }

def close (b : Bar R) : Bar R := { b with closedAt := some (b.openedAt + b.tf.duration) }

def contains (b : Bar R) (ts : ℤ) : Bool :=
  let e := b.openedAt + b.tf.duration
  !decide (ts < b.openedAt) && decide (ts < e)

end Bar

namespace Timeframe

variable (t : Timeframe)

lemma duration_pos : 0 < t.duration := by
  cases t <;> decide

variable (ts : ℤ)

lemma bucketStart_eq : t.bucketStart ts = ts - (ts + 62135596800 * second) % t.duration := by
  have hd : ¬ t.duration ≤ 0 := not_le.mpr t.duration_pos
  simp only [bucketStart, truncate, if_neg hd]

lemma bucketStart_le : t.bucketStart ts ≤ ts := by
  have hmod := Int.emod_nonneg (ts + 62135596800 * second) (ne_of_gt t.duration_pos)
  rw [bucketStart_eq]
  omega

lemma lt_bucketEnd : ts < t.bucketEnd (t.bucketStart ts) := by
  have hmod := Int.emod_lt_of_pos (ts + 62135596800 * second) t.duration_pos
  rw [bucketEnd, bucketStart_eq]
  omega

lemma duration_dvd_epoch : t.duration ∣ 62135596800 * second := by
  cases t <;> decide

lemma duration_dvd_bucketStart : t.duration ∣ t.bucketStart ts := by
  have hdvd : t.duration ∣ ts + 62135596800 * second - (ts + 62135596800 * second) % t.duration :=
    Int.dvd_self_sub_emod
  have hshift : t.bucketStart ts = ts + 62135596800 * second
      - (ts + 62135596800 * second) % t.duration - 62135596800 * second := by
    rw [bucketStart_eq]
    omega
  rw [hshift]
  exact Int.dvd_sub hdvd t.duration_dvd_epoch

lemma bucketStart_eq_of_mem {t : Timeframe} {first ts : ℤ} (hle : t.bucketStart first ≤ ts)
    (hlt : ts < t.bucketEnd (t.bucketStart first)) : t.bucketStart ts = t.bucketStart first := by
  have hdvd : t.duration ∣ t.bucketStart ts - t.bucketStart first :=
    Int.dvd_sub (t.duration_dvd_bucketStart ts) (t.duration_dvd_bucketStart first)
  have hle' := t.bucketStart_le ts
  have hlt' := t.lt_bucketEnd ts
  simp only [bucketEnd] at hlt hlt'
  have habs : |t.bucketStart ts - t.bucketStart first| < t.duration := by
    rw [abs_lt]
    omega
  have hzero := Int.eq_zero_of_abs_lt_dvd hdvd habs
  omega

end Timeframe

namespace Bar

lemma contains_iff (b : Bar R) (ts : ℤ) :
    b.contains ts = true ↔ b.openedAt ≤ ts ∧ ts < b.openedAt + b.tf.duration := by
  simp [contains]

end Bar

/-- The bar is what the quotes `qs` make of it. -/
structure Summary [LinearOrder R] (b : Bar R) (qs : List (Quote R)) : Prop where
  pair : ∀ q ∈ qs, q.pair = b.pair
  inside : ∀ q ∈ qs, b.openedAt ≤ q.ts.nanos ∧ q.ts.nanos < b.openedAt + b.tf.duration
  first : qs.head?.map (fun q => (q.bid, q.ask)) = some (b.openBid, b.openAsk)
  last : qs.getLast?.map (fun q => (q.bid, q.ask)) = some (b.closeBid, b.closeAsk)
  highBid : IsGreatest {x | x ∈ qs.map Quote.bid} b.highBid
  highAsk : IsGreatest {x | x ∈ qs.map Quote.ask} b.highAsk
  lowBid : IsLeast {x | x ∈ qs.map Quote.bid} b.lowBid
  lowAsk : IsLeast {x | x ∈ qs.map Quote.ask} b.lowAsk
  count : b.tickCount = qs.length

lemma mem_snoc_eq_insert (l : List R) (y : R) : {x | x ∈ l ++ [y]} = insert y {x | x ∈ l} := by
  ext x
  simp [or_comm]

/-! ## What a bar sums up -/

variable [LinearOrder R]

lemma isGreatest_snoc {l : List R} {m : R} (h : IsGreatest {x | x ∈ l} m) (y : R) :
    IsGreatest {x | x ∈ l ++ [y]} (if y > m then y else m) := by
  have hmax : (if y > m then y else m) = max y m := by rw [max_comm, max_def_lt]
  rw [hmax, mem_snoc_eq_insert]
  exact h.insert y

lemma isLeast_snoc {l : List R} {m : R} (h : IsLeast {x | x ∈ l} m) (y : R) :
    IsLeast {x | x ∈ l ++ [y]} (if y < m then y else m) := by
  have hmin : (if y < m then y else m) = min y m := by rw [min_def_lt]
  rw [hmin, mem_snoc_eq_insert]
  exact h.insert y

lemma summary_newBar (tf : Timeframe) (q : Quote R) : Summary (newBar tf q) [q] where
  pair := by simp [newBar]
  inside := by
    intro p hp
    rw [mem_singleton] at hp
    subst hp
    exact ⟨tf.bucketStart_le _, tf.lt_bucketEnd _⟩
  first := rfl
  last := rfl
  highBid := by simp [newBar, isGreatest_singleton]
  highAsk := by simp [newBar, isGreatest_singleton]
  lowBid := by simp [newBar, isLeast_singleton]
  lowAsk := by simp [newBar, isLeast_singleton]
  count := rfl

/-- **A quote of the bucket is taken up.** -/
lemma Summary.update {b : Bar R} {qs : List (Quote R)} (h : Summary b qs) {q : Quote R}
    (hpair : q.pair = b.pair) (hin : b.contains q.ts.nanos = true) :
    Summary (b.update q) (qs ++ [q]) where
  pair := by
    intro p hp
    rcases mem_append.mp hp with hp | hp
    · exact h.pair p hp
    · rw [mem_singleton.mp hp]; exact hpair
  inside := by
    intro p hp
    rcases mem_append.mp hp with hp | hp
    · exact h.inside p hp
    · rw [mem_singleton.mp hp]; exact (b.contains_iff _).mp hin
  first := by
    have hne : qs ≠ [] := by
      rintro rfl
      simpa using h.first
    rw [head?_append_of_ne_nil _ hne]
    exact h.first
  last := by simp [Bar.update]
  highBid := by
    rw [map_append]
    exact isGreatest_snoc h.highBid q.bid
  highAsk := by
    rw [map_append]
    exact isGreatest_snoc h.highAsk q.ask
  lowBid := by
    rw [map_append]
    exact isLeast_snoc h.lowBid q.bid
  lowAsk := by
    rw [map_append]
    exact isLeast_snoc h.lowAsk q.ask
  count := by simp [Bar.update, h.count]

lemma Summary.close {b : Bar R} {qs : List (Quote R)} (h : Summary b qs) : Summary b.close qs :=
  ⟨h.pair, h.inside, h.first, h.last, h.highBid, h.highAsk, h.lowBid, h.lowAsk, h.count⟩

end Wtg.Quote.Bars
