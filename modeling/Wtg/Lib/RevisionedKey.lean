import Mathlib.Data.List.Basic

/-! # A key with revisions

A key of a store that numbers its writes: the value it had at first and the values written since, in
the order of their revisions. -/

namespace Wtg.Lib

/-- The first value of the key and the values written since. -/
structure RevisionedKey (σ : Type*) where
  first : σ
  writes : List σ

namespace RevisionedKey

variable {σ : Type*} (k : RevisionedKey σ)

def revision : ℕ := k.writes.length

def value : σ := k.writes.getLast?.getD k.first

def put (v : σ) : RevisionedKey σ := ⟨k.first, k.writes ++ [v]⟩

def event (n : ℕ) : Option σ := k.writes[n]?

@[simp] lemma value_put (v : σ) : (k.put v).value = v := by simp [value, put]

@[simp] lemma revision_put (v : σ) : (k.put v).revision = k.revision + 1 := by
  simp [revision, put]

lemma value_mem : k.value ∈ k.first :: k.writes := by
  rcases hlast : k.writes.getLast? with _ | v
  · simp [value, hlast]
  · simp [value, hlast, List.mem_of_getLast? hlast]

variable {k}

lemma lt_of_event {n : ℕ} {v : σ} (h : k.event n = some v) : n < k.revision :=
  (List.getElem?_eq_some_iff.mp h).1

lemma mem_of_event {n : ℕ} {v : σ} (h : k.event n = some v) : v ∈ k.writes :=
  List.mem_of_getElem? h

lemma event_last {n : ℕ} {v : σ} (h : k.event n = some v) (hn : n + 1 = k.revision) :
    v = k.value := by
  have hlast : k.writes.getLast? = some v := by
    rw [List.getLast?_eq_getElem?, show k.writes.length - 1 = n by unfold revision at hn; omega]
    exact h
  rw [value, hlast]
  rfl

end RevisionedKey

end Wtg.Lib
