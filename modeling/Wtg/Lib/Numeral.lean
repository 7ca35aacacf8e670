import Mathlib.Data.Nat.Digits.Defs

/-! # Printed numbers and joined fields

`format` prints a number in a base, given a character for each digit. The text determines the number
(`format_inj`) and is made of digits (`mem_format`). -/

namespace Wtg.Lib.Numeral

open List

variable {α : Type*}

/-- The number `n` in base `b`, the most significant digit first; zero has one digit. -/
def format (digit : ℕ → α) (b n : ℕ) : List α :=
  if n = 0 then [digit 0] else (Nat.digits b n).reverse.map digit

variable {digit : ℕ → α}

lemma mem_format {b n : ℕ} (hb : 1 < b) {c : α} (h : c ∈ format digit b n) :
    ∃ d < b, c = digit d := by
  by_cases hn : n = 0
  · rw [format, if_pos hn, mem_singleton] at h
    exact ⟨0, by omega, h⟩
  · rw [format, if_neg hn, mem_map] at h
    obtain ⟨d, hd, rfl⟩ := h
    exact ⟨d, Nat.digits_lt_base hb (mem_reverse.mp hd), rfl⟩

lemma ofDigits_format {b : ℕ} (hb : 1 < b) {value : α → ℕ}
    (hvalue : ∀ d < b, value (digit d) = d) (n : ℕ) :
    Nat.ofDigits b (((format digit b n).map value).reverse) = n := by
  by_cases hn : n = 0
  · have hzero : value (digit 0) = 0 := hvalue 0 (by omega)
    simp [format, hn, hzero]
  · have hmap : ((Nat.digits b n).reverse.map digit).map value = (Nat.digits b n).reverse := by
      rw [map_map]
      refine (map_congr_left fun d hd => ?_).trans (map_id _)
      exact hvalue d (Nat.digits_lt_base hb (mem_reverse.mp hd))
    rw [format, if_neg hn, hmap, reverse_reverse, Nat.ofDigits_digits]

lemma format_inj {b m n : ℕ} (hb : 1 < b) (hdigit : Set.InjOn digit {d | d < b})
    (h : format digit b m = format digit b n) : m = n := by
  have hvalue : ∀ d < b, Function.invFunOn digit {d | d < b} (digit d) = d :=
    fun d hd => hdigit.leftInvOn_invFunOn hd
  rw [← ofDigits_format hb hvalue m, h, ofDigits_format hb hvalue n]

lemma append_sep_inj {sep : α} {xs xs' ys ys' : List α} (hys : sep ∉ ys) (hys' : sep ∉ ys')
    (h : xs ++ sep :: ys = xs' ++ sep :: ys') : xs = xs' ∧ ys = ys' := by
  rcases append_eq_append_iff.mp h with ⟨as, rfl, htail⟩ | ⟨as, rfl, htail⟩
  · rcases as with _ | ⟨a, as⟩
    · exact ⟨(append_nil xs).symm, (cons.inj htail).2⟩
    · have hmem : sep ∈ ys := by
        rw [(cons.inj htail).2]
        simp
      exact absurd hmem hys
  · rcases as with _ | ⟨a, as⟩
    · exact ⟨append_nil xs', (cons.inj htail).2.symm⟩
    · have hmem : sep ∈ ys' := by
        rw [(cons.inj htail).2]
        simp
      exact absurd hmem hys'

lemma sep_append_inj {sep : α} {xs xs' ys ys' : List α} (hxs : sep ∉ xs) (hxs' : sep ∉ xs')
    (h : xs ++ sep :: ys = xs' ++ sep :: ys') : xs = xs' ∧ ys = ys' := by
  have hrev := congrArg reverse h
  simp only [reverse_append, reverse_cons, append_assoc,
    singleton_append] at hrev
  obtain ⟨hys, hxs⟩ := append_sep_inj (by rwa [mem_reverse]) (by rwa [mem_reverse]) hrev
  exact ⟨reverse_inj.mp hxs, reverse_inj.mp hys⟩

end Wtg.Lib.Numeral
