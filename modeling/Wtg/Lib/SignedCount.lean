import Mathlib.Algebra.Order.Group.Int
import Mathlib.Algebra.Ring.Int.Defs
import Mathlib.Data.Nat.Count

/-! # Counting marked integers between two integers

Some integers are marked. `signedCount` counts the marked ones between two integers; it is
antisymmetric and additive (`signedCount_swap`, `signedCount_add`), and it grows exactly where a
marked integer is passed (`signedCount_lt_iff`). -/

namespace Wtg.Lib.SignedCount

variable (p : ℤ → Prop) [DecidablePred p]

def within (a b : ℤ) : ℕ := Nat.count (fun n => p (a + 1 + n)) (b - a).toNat

/-- The marked integers between `a` and `b`, counted negatively when `b` lies before `a`. -/
def signedCount (a b : ℤ) : ℤ := within p a b - within p b a

variable {p} {a b c : ℤ}

lemma within_of_le (h : b ≤ a) : within p a b = 0 := by
  rw [within, Int.toNat_of_nonpos (by omega), Nat.count_zero]

lemma within_eq_zero_iff : within p a b = 0 ↔ ∀ e, a < e → e ≤ b → ¬ p e := by
  rw [within, Nat.count_iff_forall_not]
  constructor
  · intro h e hae heb
    have he := h (e - a - 1).toNat (by omega)
    rwa [show a + 1 + ((e - a - 1).toNat : ℤ) = e by omega] at he
  · intro h n hn
    exact h _ (by omega) (by omega)

lemma within_succ (a : ℤ) : within p a (a + 1) = if p (a + 1) then 1 else 0 := by
  rw [within, show (a + 1 - a).toNat = 0 + 1 by omega, Nat.count_succ, Nat.count_zero, Nat.zero_add,
    Nat.cast_zero, add_zero]

lemma within_add (hab : a ≤ b) (hbc : b ≤ c) : within p a c = within p a b + within p b c := by
  have hsplit : (c - a).toNat = (b - a).toNat + (c - b).toNat := by omega
  have hshift : ∀ n : ℕ, a + 1 + ((b - a).toNat + n : ℕ) = b + 1 + n := fun n => by omega
  rw [within, hsplit, Nat.count_add]
  simp only [hshift]
  rfl

lemma signedCount_of_le (h : a ≤ b) : signedCount p a b = within p a b := by
  rw [signedCount, within_of_le h]
  omega

lemma signedCount_swap (a b : ℤ) : signedCount p a b = -signedCount p b a := by
  unfold signedCount
  omega

lemma signedCount_add (a b c : ℤ) :
    signedCount p a c = signedCount p a b + signedCount p b c := by
  -- in increasing order first; every other order is this one with some ends swapped
  have hadd : ∀ {x y z : ℤ}, x ≤ y → y ≤ z →
      signedCount p x z = signedCount p x y + signedCount p y z := by
    intro x y z hxy hyz
    rw [signedCount_of_le (hxy.trans hyz), signedCount_of_le hxy, signedCount_of_le hyz,
      within_add hxy hyz]
    omega
  have hba := signedCount_swap (p := p) b a
  have hcb := signedCount_swap (p := p) c b
  have hca := signedCount_swap (p := p) c a
  rcases le_total a b with hab | hab <;> rcases le_total b c with hbc | hbc <;>
    rcases le_total a c with hac | hac
  · exact hadd hab hbc
  · exact hadd hab hbc
  · have := hadd hac hbc
    omega
  · have := hadd hac hab
    omega
  · have := hadd hab hac
    omega
  · have := hadd hbc hac
    omega
  · have := hadd hbc hab
    omega
  · have := hadd hbc hab
    omega

lemma signedCount_next (hlt : a < b) (hb : p b) (hnone : ∀ e, a < e → e < b → ¬ p e) :
    signedCount p a b = 1 := by
  have hbefore : within p a (b - 1) = 0 :=
    within_eq_zero_iff.mpr fun e hae heb => hnone e hae (by omega)
  have hlast := within_succ (p := p) (b - 1)
  rw [sub_add_cancel, if_pos hb] at hlast
  rw [signedCount_of_le hlt.le, within_add (by omega : a ≤ b - 1) (by omega), hbefore, hlast]
  rfl

lemma signedCount_lt_iff : signedCount p a b < signedCount p a c ↔ ∃ e, b < e ∧ e ≤ c ∧ p e := by
  rw [signedCount_add a b c, lt_add_iff_pos_right]
  rcases le_total b c with h | h
  · rw [signedCount_of_le h, Int.natCast_pos, Nat.pos_iff_ne_zero, Ne, within_eq_zero_iff]
    simp only [not_forall, not_not, exists_prop]
  · rw [signedCount, within_of_le h]
    refine iff_of_false (by omega) ?_
    rintro ⟨e, hbe, hec, -⟩
    omega

lemma le_of_signedCount_eq (hb : p b) (h : signedCount p a c = signedCount p a b) : b ≤ c := by
  by_contra hlt
  have hcount : signedCount p a c < signedCount p a b :=
    signedCount_lt_iff.mpr ⟨b, not_le.mp hlt, le_rfl, hb⟩
  omega

end Wtg.Lib.SignedCount
