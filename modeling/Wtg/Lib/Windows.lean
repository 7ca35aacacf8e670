import Mathlib.Data.List.Basic

/-! # Keyed windows over a stream

A windowing component groups the items of each key: an item joins the current group of its key
(`absorb`), and a group is handed over when it is complete (`roll`). -/

namespace Wtg.Lib

open List

variable {κ α : Type*} [DecidableEq κ]

/-- The groups handed over, in order, and the current group of each key. -/
structure Windows (κ α : Type*) where
  closed : List (κ × List α)
  current : κ → List α

namespace Windows

def empty (κ α : Type*) : Windows κ α := ⟨[], fun _ => []⟩

def absorb (w : Windows κ α) (k : κ) (x : α) : Windows κ α :=
  { w with current := Function.update w.current k (w.current k ++ [x]) }

def roll (w : Windows κ α) (k : κ) : Windows κ α where
  closed := w.closed ++ [(k, w.current k)]
  current := Function.update w.current k []

/-- The items of a key, group after group. -/
def stream (w : Windows κ α) (k : κ) : List α :=
  (w.closed.filter fun g => decide (g.1 = k)).flatMap Prod.snd ++ w.current k

variable (w : Windows κ α)

@[simp] lemma absorb_current_self (k : κ) (x : α) :
    (w.absorb k x).current k = w.current k ++ [x] := by
  simp [absorb]

lemma absorb_current_of_ne {k j : κ} (x : α) (h : j ≠ k) :
    (w.absorb k x).current j = w.current j := by
  simp [absorb, h]

@[simp] lemma roll_current_self (k : κ) : (w.roll k).current k = [] := by
  simp [roll]

lemma roll_current_of_ne {k j : κ} (h : j ≠ k) : (w.roll k).current j = w.current j := by
  simp [roll, h]

lemma stream_absorb (k : κ) (x : α) (j : κ) :
    (w.absorb k x).stream j = w.stream j ++ if j = k then [x] else [] := by
  by_cases h : j = k
  · subst h
    rw [if_pos rfl, stream, absorb_current_self, ← append_assoc]
    rfl
  · rw [if_neg h, append_nil, stream, absorb_current_of_ne w x h]
    rfl

lemma stream_roll (k j : κ) : (w.roll k).stream j = w.stream j := by
  have hclosed : (w.roll k).closed = w.closed ++ [(k, w.current k)] := rfl
  rw [stream, hclosed, filter_append, flatMap_append]
  by_cases h : j = k
  · subst h
    simp [stream]
  · have hk : k ≠ j := Ne.symm h
    rw [roll_current_of_ne w h]
    simp [stream, hk]

end Windows

end Wtg.Lib
