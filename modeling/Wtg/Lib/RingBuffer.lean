import Mathlib.Data.List.Basic
import Mathlib.Data.List.Induction

/-! # Ring buffers

A ring of `n` slots is written at `head`, which wraps around; `full` is set at the first wrap. Read
from the oldest slot on, it holds the last `n` values pushed (`Holds.contents`). -/

namespace Wtg.Lib

open List

/-- A ring: its slots, the next one to write, and whether all have been written. -/
structure RingBuffer (α : Type*) where
  buf : List (Option α)
  head : ℕ
  full : Bool
deriving DecidableEq

namespace RingBuffer

variable {α : Type*}

def empty (size : ℕ) : RingBuffer α := ⟨List.replicate size none, 0, false⟩

def push (r : RingBuffer α) (a : α) : RingBuffer α :=
  let buf := r.buf.set r.head (some a)
  if r.buf.length ≤ r.head + 1 then ⟨buf, 0, true⟩ else ⟨buf, r.head + 1, r.full⟩

def count (r : RingBuffer α) : ℕ := if r.full then r.buf.length else r.head

def startIdx (r : RingBuffer α) : ℕ := if r.full then r.head else 0

def contents (r : RingBuffer α) : List α :=
  (List.range r.count).filterMap fun i => r.buf.getD ((r.startIdx + i) % r.buf.length) none

/-- **The ring of `n` slots after the values `l` were pushed.** -/
structure Holds (r : RingBuffer α) (n : ℕ) (l : List α) : Prop where
  size : r.buf.length = n
  head : r.head = l.length % n
  full : r.full = true ↔ n ≤ l.length
  slot : ∀ (i : ℕ) (h : i < l.length), l.length ≤ i + n → r.buf.getD (i % n) none = some l[i]

lemma holds_empty {n : ℕ} (hn : 0 < n) : (empty n : RingBuffer α).Holds n [] where
  size := length_replicate
  head := (Nat.zero_mod n).symm
  full := by
    have hne : ¬ n ≤ 0 := by omega
    simp [empty, hne]
  slot := fun i h => absurd h (by simp)

lemma mod_ne_of_lt {n i len : ℕ} (hi : i < len) (hlen : len < i + n) : i % n ≠ len % n := by
  intro h
  have hmod : (len - i) % n = 0 := Nat.sub_mod_eq_zero_of_mod_eq h.symm
  have hlt : len - i < n := by omega
  rw [Nat.mod_eq_of_lt hlt] at hmod
  omega

variable {r : RingBuffer α} {n : ℕ} {l : List α}

lemma Holds.push (hn : 0 < n) (h : r.Holds n l) (a : α) :
    (r.push a).Holds n (l ++ [a]) := by
  have hbuf : (r.push a).buf = r.buf.set r.head (some a) := by
    unfold RingBuffer.push
    split <;> rfl
  have hhead : r.head < n := h.head ▸ Nat.mod_lt _ hn
  have hnext : (l.length + 1) % n = (r.head + 1) % n := by rw [h.head, Nat.mod_add_mod]
  have hle : r.head ≤ l.length := h.head ▸ Nat.mod_le _ _
  have hlen : (l ++ [a]).length = l.length + 1 := by simp
  refine ⟨by rw [hbuf, length_set, h.size], ?_, ?_, fun i hi hold => ?_⟩
  · rw [hlen, hnext, RingBuffer.push, h.size]
    by_cases hwrap : n ≤ r.head + 1
    · have heq : r.head + 1 = n := by omega
      rw [if_pos hwrap, heq, Nat.mod_self]
    · have hlt : r.head + 1 < n := by omega
      rw [if_neg hwrap, Nat.mod_eq_of_lt hlt]
  · rw [hlen, RingBuffer.push, h.size]
    by_cases hwrap : n ≤ r.head + 1
    · rw [if_pos hwrap]
      exact iff_of_true rfl (by omega)
    · rw [if_neg hwrap, h.full]
      constructor
      · omega
      · intro hfull
        by_contra hlt
        -- before the first wrap the head counts the values
        have hsmall : l.length < n := by omega
        have heq : r.head = l.length := by rw [h.head, Nat.mod_eq_of_lt hsmall]
        omega
  · rw [hlen] at hi hold
    rw [hbuf, getD_eq_getElem?_getD, getElem?_set]
    by_cases hi' : i = l.length
    · subst hi'
      rw [if_pos h.head, h.size, if_pos hhead]
      simp
    · have hlt : i < l.length := by omega
      have hne : r.head ≠ i % n := h.head ▸ (mod_ne_of_lt hlt (by omega)).symm
      rw [if_neg hne, ← getD_eq_getElem?_getD, h.slot i hlt (by omega),
        getElem_append_left hlt]

lemma holds_pushes (hn : 0 < n) (l : List α) : (l.foldl RingBuffer.push (empty n)).Holds n l := by
  induction l using reverseRecOn with
  | nil => exact holds_empty hn
  | append_singleton l a ih =>
    rw [foldl_append]
    exact ih.push hn a

lemma filterMap_range_getElem : ∀ l : List α,
    ((range l.length).filterMap fun i => l[i]?) = l
  | [] => rfl
  | a :: l => by
    have ih := filterMap_range_getElem l
    rw [length_cons, range_succ_eq_map, filterMap_cons]
    simp only [getElem?_cons_zero, filterMap_map, Function.comp_def,
      getElem?_cons_succ]
    rw [ih]

/-- What is read from the slots of the values number `i` and on. -/
lemma Holds.read (h : r.Holds n l) {i k : ℕ} (hlast : i + k ≤ l.length)
    (hold : l.length ≤ i + n) {idx : ℕ → ℕ} (hidx : ∀ j < k, idx j = (i + j) % n) :
    ((range k).filterMap fun j => r.buf.getD (idx j) none) = (l.drop i).take k := by
  have hlen : ((l.drop i).take k).length = k := by
    rw [length_take, length_drop]
    omega
  have hread : ∀ j ∈ range k, r.buf.getD (idx j) none = ((l.drop i).take k)[j]? := by
    intro j hj
    have hjk := mem_range.mp hj
    have hget : i + j < l.length := by omega
    rw [hidx j hjk, h.slot _ hget (by omega), getElem?_take_of_lt hjk, getElem?_drop,
      getElem?_eq_getElem hget]
  have hall := filterMap_range_getElem ((l.drop i).take k)
  rw [hlen] at hall
  rw [filterMap_congr hread, hall]

lemma Holds.count (h : r.Holds n l) : r.count = min n l.length := by
  rw [RingBuffer.count, h.size, h.head]
  by_cases hfull : n ≤ l.length
  · rw [if_pos (h.full.mpr hfull)]
    omega
  · rw [if_neg (h.full.not.mpr hfull), Nat.mod_eq_of_lt (by omega)]
    omega

lemma Holds.contents (h : r.Holds n l) : r.contents = l.drop (l.length - n) := by
  have hcount := h.count
  have hidx : ∀ j < r.count, (r.startIdx + j) % r.buf.length = (l.length - n + j) % n := by
    intro j _
    rw [startIdx, h.size, h.head]
    by_cases hfull : n ≤ l.length
    · have hsplit : l.length + j = l.length - n + j + n := by omega
      rw [if_pos (h.full.mpr hfull), Nat.mod_add_mod, hsplit, Nat.add_mod_right]
    · have hzero : l.length - n = 0 := by omega
      rw [if_neg (h.full.not.mpr hfull), hzero]
  rw [RingBuffer.contents, h.read (by omega) (by omega) hidx]
  exact take_of_length_le (by rw [length_drop]; omega)

end RingBuffer

end Wtg.Lib
