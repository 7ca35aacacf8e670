import Mathlib.Data.Set.Basic

/-! # The next point on a ring

The points of a linear order, closed to a ring: going clockwise from `h` one meets the points from
`h` on in their order, then those before `h` in theirs. -/

namespace Wtg.Lib.Clockwise

variable {κ : Type*} [LinearOrder κ]

/-- Clockwise from `h`, the point `p` is met no later than `q`. -/
def Before (h p q : κ) : Prop := if h ≤ p then h ≤ q → p ≤ q else q < h ∧ p ≤ q

lemma Before.antisymm {h p q : κ} (hpq : Before h p q) (hqp : Before h q p) : p = q := by
  unfold Before at hpq hqp
  split_ifs at hpq hqp with hp hq hq
  · exact le_antisymm (hpq hq) (hqp hp)
  · exact absurd hp (not_le.mpr hqp.1)
  · exact absurd hq (not_le.mpr hpq.1)
  · exact le_antisymm hpq.2 hqp.2

/-- `p` is the point of `P` that is met first clockwise from `h`. -/
structure IsNext (P : Set κ) (h p : κ) : Prop where
  mem : p ∈ P
  first : ∀ q ∈ P, Before h p q

variable {P : Set κ}

lemma IsNext.unique {h p q : κ} (hp : IsNext P h p) (hq : IsNext P h q) : p = q :=
  (hp.first q hq.mem).antisymm (hq.first p hp.mem)

variable {h p : κ}

lemma IsNext.mono {P Q : Set κ} (hp : IsNext Q h p) (hsub : P ⊆ Q) (hmem : p ∈ P) :
    IsNext P h p :=
  ⟨hmem, fun q hq => hp.first q (hsub hq)⟩

lemma isNext_of_le (hmem : p ∈ P) (hle : h ≤ p)
    (hleast : ∀ q ∈ P, h ≤ q → p ≤ q) : IsNext P h p := by
  refine ⟨hmem, fun q hq => ?_⟩
  rw [Before, if_pos hle]
  exact hleast q hq

lemma isNext_of_wrap (hmem : p ∈ P) (hall : ∀ q ∈ P, q < h)
    (hleast : ∀ q ∈ P, p ≤ q) : IsNext P h p := by
  refine ⟨hmem, fun q hq => ?_⟩
  rw [Before, if_neg (not_le.mpr (hall p hmem))]
  exact ⟨hall q hq, hleast q hq⟩

end Wtg.Lib.Clockwise
