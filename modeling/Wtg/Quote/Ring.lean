import Wtg.Lib.RingBuffer
import Wtg.Pricing.Engine

/-! # The ring of recent quotes

`RingBuffer` of `pkg/quote/ring.go`: one ring for each pair. -/

namespace Wtg.Quote.Ring

open Lib Lib.RingBuffer List AList
open Pricing.Engine (Quote)

variable {R : Type*}

/-- `RingBuffer`; `NewRingBuffer` panics if the capacity is not positive. -/
structure Rings (R : Type*) where
  capPerPair : ℕ
  pairs : GoMap String (RingBuffer (Quote R))
  capPerPair_pos : 0 < capPerPair

namespace Rings

def getOrCreate (r : Rings R) (pair : String) : RingBuffer (Quote R) :=
  (r.pairs.lookup pair).getD (.empty r.capPerPair)

def add (r : Rings R) (q : Quote R) : Rings R :=
  { r with pairs := r.pairs.insert q.pair ((r.getOrCreate q.pair).push q) }

end Rings

/-- The `k` slots from `first` on. -/
def slots (ring : RingBuffer (Quote R)) (first k : ℕ) : List (Quote R) :=
  (range k).filterMap fun i => ring.buf.getD (first + i) none

/-- `Snapshot` of one ring. -/
def recent (cap : ℕ) (ring : RingBuffer (Quote R)) (max : ℤ) : List (Quote R) :=
  let held : ℕ := if ring.full then cap else ring.head
  let max := if max ≤ 0 ∨ held < max then held else max.toNat
  if max = 0 then []
  else if !ring.full then slots ring (ring.head - max) max
  else
    let start := (ring.head + cap - max) % cap
    if start + max ≤ cap then slots ring start max
    else slots ring start (cap - start) ++ slots ring 0 (max - (cap - start))

namespace Rings

def snapshot (r : Rings R) (pair : String) (max : ℤ) : List (Quote R) :=
  match r.pairs.lookup pair with
  | none => []
  | some ring => recent r.capPerPair ring max

def size (r : Rings R) (pair : String) : ℕ :=
  match r.pairs.lookup pair with
  | none => 0
  | some ring => if ring.full then r.capPerPair else ring.head

end Rings

section

variable {n : ℕ} {ring : RingBuffer (Quote R)} {l : List (Quote R)}

lemma held_eq (h : ring.Holds n l) : (if ring.full then n else ring.head) = min n l.length := by
  rw [← h.count, RingBuffer.count, h.size]

lemma slots_eq (h : ring.Holds n l) {i k : ℕ} (hlast : i + k ≤ l.length) (hold : l.length ≤ i + n)
    (hwrap : i % n + k ≤ n) : slots ring (i % n) k = (l.drop i).take k := by
  refine h.read hlast hold fun j hj => ?_
  have hlt : i % n + j < n := by omega
  rw [← Nat.mod_add_mod i n j, Nat.mod_eq_of_lt hlt]

/-- The last `k` values, read as `Snapshot` reads them. -/
lemma recent_eq (hn : 0 < n) (h : ring.Holds n l) (max : ℤ) :
    recent n ring max = l.drop (l.length -
      if 0 < max then min (min max.toNat n) l.length else min n l.length) := by
  have hk : (if max ≤ 0 ∨ ((min n l.length : ℕ) : ℤ) < max then min n l.length else max.toNat) =
      if 0 < max then min (min max.toNat n) l.length else min n l.length := by
    split_ifs <;> omega
  unfold recent
  simp only [held_eq h, hk]
  generalize hm : (if 0 < max then min (min max.toNat n) l.length else min n l.length) = k
  have hkn : k ≤ n ∧ k ≤ l.length := by split_ifs at hm <;> omega
  have hall : (l.drop (l.length - k)).take k = l.drop (l.length - k) :=
    take_of_length_le (by rw [length_drop]; omega)
  by_cases hzero : k = 0
  · rw [if_pos hzero, hzero, Nat.sub_zero, drop_length]
  rw [if_neg hzero]
  by_cases hfull : n ≤ l.length
  · have hstart : (ring.head + n - k) % n = (l.length - k) % n := by
      have hsum : l.length + (n - k) = l.length - k + n := by omega
      rw [h.head, Nat.add_sub_assoc hkn.1, Nat.mod_add_mod, hsum, Nat.add_mod_right]
    rw [h.full.mpr hfull, hstart]
    simp only [Bool.not_true, Bool.false_eq_true, if_false]
    split_ifs with hwrap
    · rw [slots_eq h (by omega) (by omega) hwrap, hall]
    · -- the first part ends with the last slot, the second one starts at slot 0
      have hlt := Nat.mod_lt (l.length - k) hn
      generalize hf : n - (l.length - k) % n = first at *
      have hmod : (l.length - k + first) % n = 0 := by
        rw [← Nat.mod_add_mod, show (l.length - k) % n + first = n by omega, Nat.mod_self]
      have hsecond := slots_eq h (i := l.length - k + first) (k := k - first) (by omega) (by omega)
        (by omega)
      rw [slots_eq h (by omega) (by omega) (by omega), ← hmod, hsecond, ← drop_drop,
        ← take_add, show first + (k - first) = k by omega, hall]
  · have hhead : ring.head = l.length := by rw [h.head, Nat.mod_eq_of_lt (by omega)]
    have hmod : (l.length - k) % n = l.length - k := Nat.mod_eq_of_lt (by omega)
    have hread := slots_eq h (i := l.length - k) (k := k) (by omega) (by omega) (by omega)
    rw [hmod, hall] at hread
    rw [Bool.eq_false_iff.mpr (h.full.not.mpr hfull), hhead]
    exact hread

end

/-- The quotes of a pair. -/
def of (pair : String) (qs : List (Quote R)) : List (Quote R) := qs.filter (·.pair = pair)

namespace Rings

variable (r : Rings R) (pair : String)

lemma snapshot_eq (max : ℤ) :
    r.snapshot pair max = recent r.capPerPair (r.getOrCreate pair) max := by
  rw [snapshot, getOrCreate]
  cases r.pairs.lookup pair with
  | none => rw [Option.getD_none, recent_eq r.capPerPair_pos (holds_empty r.capPerPair_pos), drop_nil]
  | some ring => rfl

lemma size_eq : r.size pair =
    if (r.getOrCreate pair).full then r.capPerPair else (r.getOrCreate pair).head := by
  rw [size, getOrCreate]
  cases r.pairs.lookup pair <;> rfl

variable {r pair}

lemma holds_add {l : List (Quote R)} (h : (r.getOrCreate pair).Holds r.capPerPair (of pair l))
    (q : Quote R) : ((r.add q).getOrCreate pair).Holds r.capPerPair (of pair (l ++ [q])) := by
  by_cases hpair : q.pair = pair
  · subst hpair
    have hof : of q.pair (l ++ [q]) = of q.pair l ++ [q] := by simp [of, filter_append]
    have hring : (r.add q).getOrCreate q.pair = (r.getOrCreate q.pair).push q := by
      simp [getOrCreate, add]
    rw [hof, hring]
    exact h.push r.capPerPair_pos q
  · have hof : of pair (l ++ [q]) = of pair l := by simp [of, filter_append, hpair]
    have hring : (r.add q).getOrCreate pair = r.getOrCreate pair := by
      simp [getOrCreate, add, lookup_insert_ne (Ne.symm hpair)]
    rwa [hof, hring]

lemma holds_foldl : ∀ (qs : List (Quote R)) {l : List (Quote R)} {r : Rings R},
    (r.getOrCreate pair).Holds r.capPerPair (of pair l) →
      ((qs.foldl add r).getOrCreate pair).Holds r.capPerPair (of pair (l ++ qs)) ∧
        (qs.foldl add r).capPerPair = r.capPerPair
  | [], l, r, h => ⟨by rwa [append_nil], rfl⟩
  | q :: qs, l, r, h => by
    have ih := holds_foldl qs (holds_add h q)
    rwa [append_assoc] at ih

end Rings

def newRingBuffer (cap : ℕ) (hcap : 0 < cap) : Rings R := ⟨cap, ∅, hcap⟩

/-- **The ring has the last quotes of each pair**, as many as there is room for and are asked
for. -/
theorem snapshot_recent {cap : ℕ} (hcap : 0 < cap) (qs : List (Quote R)) (pair : String) (max : ℤ) :
    (qs.foldl Rings.add (newRingBuffer cap hcap)).snapshot pair max =
        (of pair qs).drop ((of pair qs).length -
          if 0 < max then min (min max.toNat cap) (of pair qs).length
          else min cap (of pair qs).length) ∧
      (qs.foldl Rings.add (newRingBuffer cap hcap)).size pair = min cap (of pair qs).length := by
  have hstart : ((newRingBuffer cap hcap : Rings R).getOrCreate pair).Holds cap (of pair []) :=
    holds_empty hcap
  obtain ⟨h, hsame⟩ := Rings.holds_foldl qs hstart
  rw [Rings.snapshot_eq, Rings.size_eq, hsame]
  exact ⟨recent_eq hcap h max, held_eq h⟩

def quoteOf (pair : String) (bid : ℤ) : Quote ℤ := ⟨pair, bid, bid, ⟨0, 0⟩, 0, 0⟩

theorem snapshot_recent_wrapped :
    ([quoteOf "A" 1, quoteOf "B" 2, quoteOf "A" 3, quoteOf "A" 4].foldl Rings.add
      (newRingBuffer 2 Nat.two_pos)).snapshot "A" 0 = [quoteOf "A" 3, quoteOf "A" 4] :=
  (snapshot_recent Nat.two_pos _ "A" 0).1.trans (by decide)

end Wtg.Quote.Ring
