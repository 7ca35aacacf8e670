import Mathlib.Data.List.Pairwise

/-! # Records of a sequence

The records of a sequence are its entries above everything before them. A filter that keeps a mark,
the highest entry so far, and passes what is above it passes the records. -/

namespace Wtg.Lib

variable {α : Type*} [LT α] [DecidableLT α]

def isRecord : Option α → α → Bool
  | none, _ => true
  | some mark, x => decide (mark < x)

/-- The elements above all before them, and above the mark. -/
def records : Option α → List α → List α
  | _, [] => []
  | mark, x :: xs => if isRecord mark x then x :: records (some x) xs else records mark xs

lemma records_of_pairwise :
    ∀ (mark : Option α) (xs : List α), xs.Pairwise (· < ·) →
      (∀ x ∈ xs, isRecord mark x = true) → records mark xs = xs
  | _, [], _, _ => rfl
  | mark, y :: ys, hsorted, habove => by
    obtain ⟨hy, hys⟩ := List.pairwise_cons.mp hsorted
    rw [records, if_pos (habove y List.mem_cons_self)]
    rw [records_of_pairwise (some y) ys hys fun x hx => decide_eq_true (hy x hx)]

variable [IsTrans α (· < ·)]

lemma isRecord_of_mem_records :
    ∀ (mark : Option α) (xs : List α), ∀ x ∈ records mark xs, isRecord mark x = true
  | _, [], x, hx => by simp [records] at hx
  | mark, y :: ys, x, hx => by
    rw [records] at hx
    by_cases hy : isRecord mark y = true
    · rw [if_pos hy] at hx
      rcases List.mem_cons.mp hx with rfl | hx
      · exact hy
      · -- a later record is above `y`, which is above the mark
        have hyx := isRecord_of_mem_records (some y) ys x hx
        rcases mark with _ | m
        · rfl
        · simp only [isRecord, decide_eq_true_eq] at hy hyx ⊢
          exact IsTrans.trans _ _ _ hy hyx
    · rw [if_neg hy] at hx
      exact isRecord_of_mem_records mark ys x hx

lemma records_pairwise :
    ∀ (mark : Option α) (xs : List α), (records mark xs).Pairwise (· < ·)
  | _, [] => .nil
  | mark, y :: ys => by
    rw [records]
    by_cases hy : isRecord mark y = true
    · rw [if_pos hy]
      refine .cons ?_ (records_pairwise (some y) ys)
      intro x hx
      simpa [isRecord] using isRecord_of_mem_records (some y) ys x hx
    · rw [if_neg hy]
      exact records_pairwise mark ys

end Wtg.Lib
