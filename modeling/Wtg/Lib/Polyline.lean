import Mathlib.Algebra.Order.Field.Basic
import Mathlib.Tactic.Linarith

/-! # Piecewise linear functions through points

A polyline of a set of points in the plane goes through the points and is a straight line between
any two neighbours (`IsPolyline`). -/

namespace Wtg.Lib.Polyline

variable {K : Type*} [LinearOrder K]

/-- Two points with no point between them. -/
structure Neighbours (points : Set (K × K)) (p q : K × K) : Prop where
  left : p ∈ points
  right : q ∈ points
  lt : p.1 < q.1
  none_between : ∀ r ∈ points, p.1 < r.1 → r.1 < q.1 → False

variable {points : Set (K × K)} {f : K → K} {p q p' q' : K × K} {x : K}

lemma Neighbours.unique (hinj : ∀ r ∈ points, ∀ s ∈ points, r.1 = s.1 → r = s)
    (h : Neighbours points p q) (h' : Neighbours points p' q') (hpx : p.1 < x) (hxq : x < q.1)
    (hpx' : p'.1 < x) (hxq' : x < q'.1) : p = p' ∧ q = q' := by
  constructor
  · refine hinj p h.left p' h'.left
      (le_antisymm (not_lt.mp fun hlt => ?_) (not_lt.mp fun hlt => ?_))
    · exact h'.none_between p h.left hlt (hpx.trans hxq')
    · exact h.none_between p' h'.left hlt (hpx'.trans hxq)
  · refine hinj q h.right q' h'.right
      (le_antisymm (not_lt.mp fun hlt => ?_) (not_lt.mp fun hlt => ?_))
    · exact h.none_between q' h'.right (hpx.trans hxq') hlt
    · exact h'.none_between q h.right (hpx'.trans hxq) hlt

variable [Field K]

def chord (p q : K × K) (x : K) : K := p.2 + (q.2 - p.2) * ((x - p.1) / (q.1 - p.1))

/-- The functions that go through the points and are straight between neighbours. -/
structure IsPolyline (points : Set (K × K)) (f : K → K) : Prop where
  through : ∀ p ∈ points, f p.1 = p.2
  straight : ∀ p q, Neighbours points p q → ∀ x, p.1 < x → x < q.1 → f x = chord p q x

open Classical in
lemma exists_isPolyline (points : Set (K × K))
    (hinj : ∀ r ∈ points, ∀ s ∈ points, r.1 = s.1 → r = s) : ∃ f, IsPolyline points f := by
  let f : K → K := fun x =>
    if h : ∃ p ∈ points, p.1 = x then h.choose.2
    else if h : ∃ pq : (K × K) × (K × K),
        Neighbours points pq.1 pq.2 ∧ pq.1.1 < x ∧ x < pq.2.1 then
      chord h.choose.1 h.choose.2 x
    else 0
  refine ⟨f, fun p hp => ?_, fun p q hpq x hpx hxq => ?_⟩
  · have h : ∃ r ∈ points, r.1 = p.1 := ⟨p, hp, rfl⟩
    have hval : f p.1 = h.choose.2 := dif_pos h
    rw [hval, hinj _ h.choose_spec.1 p hp h.choose_spec.2]
  · have hnone : ¬ ∃ r ∈ points, r.1 = x := by
      rintro ⟨r, hr, rfl⟩
      exact hpq.none_between r hr hpx hxq
    have h : ∃ pq : (K × K) × (K × K), Neighbours points pq.1 pq.2 ∧ pq.1.1 < x ∧ x < pq.2.1 :=
      ⟨(p, q), hpq, hpx, hxq⟩
    have hval : f x = chord h.choose.1 h.choose.2 x := (dif_neg hnone).trans (dif_pos h)
    obtain ⟨hn, hleft, hright⟩ := h.choose_spec
    obtain ⟨hp, hq⟩ := hn.unique hinj hpq hleft hright hpx hxq
    rw [hval, hp, hq]

lemma IsPolyline.between [IsStrictOrderedRing K] (h : IsPolyline points f)
    (hpq : Neighbours points p q) (hpx : p.1 < x) (hxq : x < q.1) :
    (p.2 ≤ f x ∧ f x ≤ q.2) ∨ (q.2 ≤ f x ∧ f x ≤ p.2) := by
  rw [h.straight p q hpq x hpx hxq, chord]
  have hpos : 0 < q.1 - p.1 := sub_pos.mpr hpq.lt
  have hw0 : 0 ≤ (x - p.1) / (q.1 - p.1) := div_nonneg (by linarith) hpos.le
  have hw1 : (x - p.1) / (q.1 - p.1) ≤ 1 := (div_le_one hpos).mpr (by linarith)
  rcases le_total p.2 q.2 with hle | hle
  · have hdiff : 0 ≤ q.2 - p.2 := sub_nonneg.mpr hle
    exact .inl ⟨by linarith [mul_nonneg hdiff hw0], by linarith [mul_le_of_le_one_right hdiff hw1]⟩
  · have hdiff : 0 ≤ p.2 - q.2 := sub_nonneg.mpr hle
    exact .inr ⟨by linarith [mul_le_of_le_one_right hdiff hw1], by linarith [mul_nonneg hdiff hw0]⟩

end Wtg.Lib.Polyline
