import Mathlib.Data.List.Basic
import Mathlib.Order.Lattice

/-! # From replay to live

A reader of a log first reads a copy of it and then what is appended. -/

namespace Wtg.Lib.Handover

open List

variable {α β : Type*} [LinearOrder β] {seq : α → β} {p : α → Bool} {log : List α} {a b : ℕ}

/-- The entry is above all entries of the copy of the first `b` entries. -/
def Above (seq : α → β) (p : α → Bool) (log : List α) (b : ℕ) (q : α) : Prop :=
  ∀ r ∈ (log.take b).filter p, seq r < seq q

lemma above_of_mem_drop (hsorted : (log.filter p).Pairwise fun q r => seq q < seq r) {q : α}
    (hq : q ∈ log.drop b) (hp : p q = true) : Above seq p log b q := by
  intro r hr
  rw [← take_append_drop b log, filter_append, pairwise_append] at hsorted
  exact hsorted.2.2 r hr q (mem_filter.mpr ⟨hq, hp⟩)

lemma copy_append_rest (seq : α → β)
    (hsorted : (log.filter p).Pairwise fun q r => seq q < seq r) (hab : a ≤ b) {keep : α → Bool}
    (hkeep : ∀ q ∈ log, p q = true → (keep q = true ↔ Above seq p log b q)) :
    (log.take b).filter p ++ ((log.drop a).filter fun q => p q && keep q) = log.filter p := by
  have hsplit : log.drop a = (log.take b).drop a ++ log.drop b := by
    have hdrop : log.drop b = (log.drop a).drop (b - a) := by
      rw [drop_drop, Nat.add_sub_cancel' hab]
    rw [drop_take, hdrop, take_append_drop]
  have htwice : (((log.take b).drop a).filter fun q => p q && keep q) = [] := by
    rw [filter_eq_nil_iff]
    intro q hq hboth
    have hmem := mem_of_mem_drop hq
    rw [Bool.and_eq_true] at hboth
    have habove := (hkeep q (mem_of_mem_take hmem) hboth.1).mp hboth.2
    exact lt_irrefl _ (habove q (mem_filter.mpr ⟨hmem, hboth.1⟩))
  have hrest : ((log.drop b).filter fun q => p q && keep q) = (log.drop b).filter p := by
    refine filter_congr fun q hq => ?_
    rcases hp : p q with _ | _
    · rfl
    · exact (hkeep q (mem_of_mem_drop hq) hp).mpr (above_of_mem_drop hsorted hq hp)
  rw [hsplit, filter_append, htwice, nil_append, hrest, ← filter_append,
    take_append_drop]

end Wtg.Lib.Handover
