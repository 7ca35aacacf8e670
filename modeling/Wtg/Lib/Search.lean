import Mathlib.Order.Basic

/-! # Binary search

`search n f` looks for the least index below `n` at which `f` holds, by halving: `f` is asked in the
middle of what is left. -/

namespace Wtg.Lib.Search

/-- The loop on the indices `i`, …, `j - 1`, for at most as many rounds as the first argument. -/
def searchFrom (f : ℕ → Bool) : ℕ → ℕ → ℕ → ℕ
  | 0, i, _ => i
  | fuel + 1, i, j =>
    if i < j then
      let h := (i + j) / 2
      if f h then searchFrom f fuel i h else searchFrom f fuel (h + 1) j
    else i

/-- The least index below `n` at which `f` holds, or `n`. -/
def search (n : ℕ) (f : ℕ → Bool) : ℕ := searchFrom f n 0 n

/-- Below `n` the test stays true once it is true. -/
def Upward (n : ℕ) (f : ℕ → Bool) : Prop := ∀ i j, i ≤ j → j < n → f i = true → f j = true

lemma searchFrom_spec {n : ℕ} {f : ℕ → Bool} (hf : Upward n f) : ∀ {fuel i j : ℕ},
    j - i ≤ fuel → i ≤ j → j ≤ n → (∀ k < i, f k = false) → (∀ k, j ≤ k → k < n → f k = true) →
      searchFrom f fuel i j ≤ n ∧ (∀ k < searchFrom f fuel i j, f k = false) ∧
        ∀ k, searchFrom f fuel i j ≤ k → k < n → f k = true
  | 0, i, j, hfuel, hij, hjn, hbelow, habove => by
    obtain rfl : i = j := by omega
    exact ⟨hjn, hbelow, habove⟩
  | fuel + 1, i, j, hfuel, hij, hjn, hbelow, habove => by
    rw [searchFrom]
    split_ifs with hlt
    · have hlow : i ≤ (i + j) / 2 := by omega
      have hhigh : (i + j) / 2 < j := by omega
      simp only
      split_ifs with hmid
      · refine searchFrom_spec hf (by omega) hlow (by omega) hbelow fun k hk hkn => ?_
        exact hf _ k hk hkn hmid
      · refine searchFrom_spec hf (by omega) (by omega) hjn (fun k hk => ?_) habove
        by_contra hkf
        rw [Bool.not_eq_false] at hkf
        exact hmid (hf k _ (by omega) (by omega) hkf)
    · obtain rfl : i = j := by omega
      exact ⟨hjn, hbelow, habove⟩

lemma search_spec {n : ℕ} {f : ℕ → Bool} (hf : Upward n f) :
    search n f ≤ n ∧ (∀ k < search n f, f k = false) ∧ ∀ k, search n f ≤ k → k < n → f k = true :=
  searchFrom_spec hf (by omega) (Nat.zero_le n) (Nat.le_refl n)
    (fun k hk => absurd hk (Nat.not_lt_zero k)) fun k hk hkn => absurd hkn (by omega)

end Wtg.Lib.Search
