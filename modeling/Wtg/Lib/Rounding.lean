import Mathlib.Data.Nat.Log
import Mathlib.Tactic.Ring
import Mathlib.Tactic.Linarith

/-! # Rounding integers to a number of significant bits

`roundNat p n` is `n` rounded to `p` significant bits, to nearest, ties to even: what storing the
integer in a binary floating-point number with a `p`-bit significand makes of it. -/

namespace Wtg.Lib.Rounding

/-- The number of low bits that do not fit into `p` bits. -/
def excess (p n : ℕ) : ℕ := n.log2 + 1 - p

/-- `n` rounded to `p` significant bits, to nearest, ties to even. -/
def roundNat (p n : ℕ) : ℕ :=
  let u := 2 ^ excess p n
  let q := n / u
  if 2 * (n % u) < u ∨ (2 * (n % u) = u ∧ q % 2 = 0) then q * u else (q + 1) * u

def roundInt (p : ℕ) (x : ℤ) : ℤ :=
  if 0 ≤ x then roundNat p x.toNat else -roundNat p (-x).toNat

lemma roundNat_ge (p n : ℕ) : n / 2 ^ excess p n * 2 ^ excess p n ≤ roundNat p n := by
  unfold roundNat
  simp only
  split_ifs
  · exact le_rfl
  · exact Nat.mul_le_mul_right _ (by omega)

lemma roundNat_le (p n : ℕ) : roundNat p n ≤ (n / 2 ^ excess p n + 1) * 2 ^ excess p n := by
  unfold roundNat
  simp only
  split_ifs
  · exact Nat.mul_le_mul_right _ (by omega)
  · exact le_rfl

variable {p n : ℕ}

lemma excess_of_lt (hp : 1 ≤ p) (h : n < 2 ^ p) : excess p n = 0 := by
  unfold excess
  rcases Nat.eq_zero_or_pos n with rfl | hn
  · rw [Nat.log2_zero]; omega
  · have := (Nat.log2_lt (by omega)).mpr h
    omega

lemma roundNat_of_lt (hp : 1 ≤ p) (h : n < 2 ^ p) : roundNat p n = n := by
  unfold roundNat
  rw [excess_of_lt hp h]
  simp [Nat.mod_one]

lemma two_pow_log2_le_roundNat (hp : 1 ≤ p) (hn : n ≠ 0) : 2 ^ n.log2 ≤ roundNat p n := by
  refine le_trans ?_ (roundNat_ge p n)
  have hself : 2 ^ n.log2 ≤ n := Nat.log2_self_le hn
  have hle : excess p n ≤ n.log2 := by unfold excess; omega
  obtain ⟨k, hk⟩ := Nat.exists_eq_add_of_le hle
  rw [hk, pow_add] at hself
  have hq : 2 ^ k ≤ n / 2 ^ excess p n := by
    rw [Nat.le_div_iff_mul_le (by positivity)]
    rw [Nat.mul_comm]; exact hself
  calc 2 ^ n.log2 = 2 ^ k * 2 ^ excess p n := by rw [hk, pow_add, Nat.mul_comm]
    _ ≤ n / 2 ^ excess p n * 2 ^ excess p n := Nat.mul_le_mul_right _ hq

lemma roundNat_le_two_pow : roundNat p n ≤ 2 ^ (n.log2 + 1) := by
  refine le_trans (roundNat_le p n) ?_
  have hlt : n < 2 ^ (n.log2 + 1) := Nat.lt_log2_self
  have hle : excess p n ≤ n.log2 + 1 := by unfold excess; omega
  obtain ⟨k, hk⟩ := Nat.exists_eq_add_of_le hle
  have hq : n / 2 ^ excess p n < 2 ^ k := by
    rw [Nat.div_lt_iff_lt_mul (by positivity), Nat.mul_comm, ← pow_add, ← hk]
    exact hlt
  calc (n / 2 ^ excess p n + 1) * 2 ^ excess p n ≤ 2 ^ k * 2 ^ excess p n :=
        Nat.mul_le_mul_right _ hq
    _ = 2 ^ (n.log2 + 1) := by rw [Nat.mul_comm, ← pow_add, ← hk]

lemma roundNat_mono_of_excess {p n m : ℕ} (h : n ≤ m) (he : excess p n = excess p m) :
    roundNat p n ≤ roundNat p m := by
  have hq : n / 2 ^ excess p m ≤ m / 2 ^ excess p m := Nat.div_le_div_right h
  rcases Nat.lt_or_ge (n / 2 ^ excess p m) (m / 2 ^ excess p m) with hlt | hge
  · calc roundNat p n ≤ (n / 2 ^ excess p m + 1) * 2 ^ excess p m := by
          rw [← he]; exact roundNat_le p n
      _ ≤ m / 2 ^ excess p m * 2 ^ excess p m := Nat.mul_le_mul_right _ hlt
      _ ≤ roundNat p m := roundNat_ge p m
  · have heq : n / 2 ^ excess p m = m / 2 ^ excess p m := by omega
    have hn := Nat.div_add_mod n (2 ^ excess p m)
    have hm := Nat.div_add_mod m (2 ^ excess p m)
    rw [heq] at hn
    have hr : n % 2 ^ excess p m ≤ m % 2 ^ excess p m := by omega
    unfold roundNat
    simp only [he, heq]
    split_ifs with h1 h2
    · exact le_rfl
    · exact Nat.mul_le_mul_right _ (by omega)
    · exact absurd (by omega) h1
    · exact le_rfl

lemma roundNat_mono {p n m : ℕ} (hp : 1 ≤ p) (h : n ≤ m) : roundNat p n ≤ roundNat p m := by
  rcases Nat.eq_zero_or_pos n with rfl | hn
  · rw [roundNat_of_lt hp (by positivity)]; exact Nat.zero_le _
  have hm : m ≠ 0 := by omega
  have hlog : n.log2 ≤ m.log2 := (Nat.le_log2 hm).mpr ((Nat.log2_self_le (by omega)).trans h)
  rcases Nat.lt_or_ge n.log2 m.log2 with hlt | hge
  · calc roundNat p n ≤ 2 ^ (n.log2 + 1) := roundNat_le_two_pow
      _ ≤ 2 ^ m.log2 := Nat.pow_le_pow_right (by norm_num) hlt
      _ ≤ roundNat p m := two_pow_log2_le_roundNat hp hm
  · exact roundNat_mono_of_excess h (by unfold excess; rw [le_antisymm hlog hge])

lemma roundInt_mono {p : ℕ} (hp : 1 ≤ p) {x y : ℤ} (h : x ≤ y) : roundInt p x ≤ roundInt p y := by
  unfold roundInt
  split_ifs with hx hy hy
  · exact_mod_cast roundNat_mono hp (by omega : x.toNat ≤ y.toNat)
  · omega
  · have : (0 : ℤ) ≤ roundNat p y.toNat := Int.natCast_nonneg _
    have : (0 : ℤ) ≤ roundNat p (-x).toNat := Int.natCast_nonneg _
    omega
  · have := roundNat_mono hp (by omega : (-y).toNat ≤ (-x).toNat)
    omega

end Wtg.Lib.Rounding
