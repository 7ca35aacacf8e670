import Mathlib.Algebra.Order.Field.Basic
import Mathlib.Algebra.Order.Field.Rat

/-! # Cross rates

`ComputeCross` of `pkg/pricing/crossrate.go` puts the quotes of two legs together to the quote of a
cross pair; a leg is multiplied or divided by. -/

namespace Wtg.Pricing.CrossRate

inductive CrossOp
  | mul
  | div
  | other (text : String)
deriving DecidableEq, Repr

structure CrossFormula (K : Type*) where
  opA : CrossOp
  opB : CrossOp
  scale : K

structure CrossInput (K : Type*) where
  bid : K
  ask : K

structure CrossResult (K : Type*) where
  bid : K
  ask : K
deriving DecidableEq

inductive CrossErr
  | invalidOp
  | invalidInput
  | divByZero
deriving DecidableEq, Repr

variable {K : Type*} [Field K] [LinearOrder K]

def crossBidContrib (leg : CrossInput K) (op : CrossOp) : Except CrossErr K :=
  if op = .mul then .ok leg.bid else if leg.ask = 0 then .error .divByZero else .ok (1 / leg.ask)

def crossAskContrib (leg : CrossInput K) (op : CrossOp) : Except CrossErr K :=
  if op = .mul then .ok leg.ask else if leg.bid = 0 then .error .divByZero else .ok (1 / leg.bid)

def CrossFormula.effectiveScale (f : CrossFormula K) : K := if f.scale ≤ 0 then 1 else f.scale

def computeCross (f : CrossFormula K) (a b : CrossInput K) : Except CrossErr (CrossResult K) :=
  if f.opA ≠ .mul ∧ f.opA ≠ .div then .error .invalidOp
  else if f.opB ≠ .mul ∧ f.opB ≠ .div then .error .invalidOp
  else if a.bid ≤ 0 ∨ a.ask ≤ 0 ∨ b.bid ≤ 0 ∨ b.ask ≤ 0 then .error .invalidInput
  else do
    let bidA ← crossBidContrib a f.opA
    let askA ← crossAskContrib a f.opA
    let bidB ← crossBidContrib b f.opB
    let askB ← crossAskContrib b f.opB
    return ⟨f.effectiveScale * bidA * bidB, f.effectiveScale * askA * askB⟩

def CrossOp.rate (op : CrossOp) (r : K) : K := if op = .mul then r else 1 / r

def CrossOp.Known (op : CrossOp) : Prop := op = .mul ∨ op = .div

/-- A quote: its bid is positive and not above its ask. -/
structure CrossInput.Quotes (leg : CrossInput K) : Prop where
  pos : 0 < leg.bid
  le : leg.bid ≤ leg.ask

variable [IsStrictOrderedRing K] {a b c d x : K}

lemma exists_mul_eq_iff (ha : 0 < a) (hab : a ≤ b) (hc : 0 < c) (hcd : c ≤ d) :
    (∃ y z, (a ≤ y ∧ y ≤ b) ∧ (c ≤ z ∧ z ≤ d) ∧ y * z = x) ↔ a * c ≤ x ∧ x ≤ b * d := by
  constructor
  · rintro ⟨y, z, ⟨hay, hyb⟩, ⟨hcz, hzd⟩, rfl⟩
    exact ⟨mul_le_mul hay hcz hc.le (ha.le.trans hay),
      mul_le_mul hyb hzd (hc.le.trans hcz) (ha.le.trans hab)⟩
  · rintro ⟨hlo, hhi⟩
    have hb := ha.trans_le hab
    rcases le_total x (b * c) with h | h
    · exact ⟨x / c, c, ⟨(le_div_iff₀ hc).mpr hlo, (div_le_iff₀ hc).mpr h⟩, ⟨le_rfl, hcd⟩,
        div_mul_cancel₀ x hc.ne'⟩
    · exact ⟨b, x / b, ⟨hab, le_rfl⟩, ⟨(le_div_iff₀' hb).mpr h, (div_le_iff₀' hb).mpr hhi⟩,
        mul_div_cancel₀ x hb.ne'⟩

lemma contrib_range {op : CrossOp} (hop : op.Known) {leg : CrossInput K} (hleg : leg.Quotes) :
    ∃ lo hi, crossBidContrib leg op = .ok lo ∧ crossAskContrib leg op = .ok hi ∧ 0 < lo ∧ lo ≤ hi ∧
      ∀ x, (∃ r, (leg.bid ≤ r ∧ r ≤ leg.ask) ∧ op.rate r = x) ↔ lo ≤ x ∧ x ≤ hi := by
  have hbid := hleg.pos
  have hask := hleg.pos.trans_le hleg.le
  rcases hop with rfl | rfl
  · exact ⟨leg.bid, leg.ask, rfl, rfl, hbid, hleg.le, fun x => by simp [CrossOp.rate]⟩
  · refine ⟨1 / leg.ask, 1 / leg.bid, by simp [crossBidContrib, hask.ne'],
      by simp [crossAskContrib, hbid.ne'], one_div_pos.mpr hask,
      one_div_le_one_div_of_le hbid hleg.le, fun x => ⟨?_, ?_⟩⟩
    · rintro ⟨r, ⟨hlo, hhi⟩, rfl⟩
      exact ⟨one_div_le_one_div_of_le (hbid.trans_le hlo) hhi, one_div_le_one_div_of_le hbid hlo⟩
    · rintro ⟨hlo, hhi⟩
      have hx : 0 < x := (one_div_pos.mpr hask).trans_le hlo
      exact ⟨1 / x, ⟨(le_one_div hbid hx).mpr hhi, (one_div_le hx hask).mpr hlo⟩, one_div_one_div x⟩

/-- **A cross quote is the range of the cross rate** over the quotes of the two legs. -/
theorem computeCross_range (f : CrossFormula K) (a b : CrossInput K) (hopA : f.opA.Known)
    (hopB : f.opB.Known) (ha : a.Quotes) (hb : b.Quotes) :
    ∃ r, computeCross f a b = .ok r ∧ 0 < r.bid ∧ r.bid ≤ r.ask ∧
      Set.Icc r.bid r.ask = {x | ∃ ra rb, ra ∈ Set.Icc a.bid a.ask ∧ rb ∈ Set.Icc b.bid b.ask ∧
        f.effectiveScale * f.opA.rate ra * f.opB.rate rb = x} := by
  obtain ⟨loA, hiA, hbidA, haskA, hposA, hleA, hrangeA⟩ := contrib_range hopA ha
  obtain ⟨loB, hiB, hbidB, haskB, hposB, hleB, hrangeB⟩ := contrib_range hopB hb
  have hscale : 0 < f.effectiveScale := by
    unfold CrossFormula.effectiveScale
    split_ifs with h
    · exact one_pos
    · exact not_le.mp h
  have hposS : 0 < f.effectiveScale * loA := mul_pos hscale hposA
  have hleS : f.effectiveScale * loA ≤ f.effectiveScale * hiA :=
    mul_le_mul_of_nonneg_left hleA hscale.le
  refine ⟨⟨f.effectiveScale * loA * loB, f.effectiveScale * hiA * hiB⟩, ?_, mul_pos hposS hposB,
    mul_le_mul hleS hleB hposB.le (hposS.le.trans hleS), ?_⟩
  · have hknown : ∀ {op : CrossOp}, op.Known → ¬ (op ≠ .mul ∧ op ≠ .div) := fun h hn =>
      h.elim hn.1 hn.2
    have hquote : ∀ {leg : CrossInput K}, leg.Quotes → ¬ leg.bid ≤ 0 ∧ ¬ leg.ask ≤ 0 := fun h =>
      ⟨not_le.mpr h.pos, not_le.mpr (h.pos.trans_le h.le)⟩
    rw [computeCross, if_neg (hknown hopA), if_neg (hknown hopB), if_neg, hbidA, haskA, hbidB, haskB]
    · rfl
    · have := hquote ha
      have := hquote hb
      tauto
  · ext x
    rw [Set.mem_Icc, ← exists_mul_eq_iff hposS hleS hposB hleB]
    constructor
    · rintro ⟨y, z, ⟨hlo, hhi⟩, hz, rfl⟩
      obtain ⟨ra, hra, hy⟩ := (hrangeA (y / f.effectiveScale)).mpr
        ⟨(le_div_iff₀' hscale).mpr hlo, (div_le_iff₀' hscale).mpr hhi⟩
      obtain ⟨rb, hrb, rfl⟩ := (hrangeB z).mpr hz
      exact ⟨ra, rb, hra, hrb, by rw [hy, mul_div_cancel₀ _ hscale.ne']⟩
    · rintro ⟨ra, rb, hra, hrb, rfl⟩
      obtain ⟨hlo, hhi⟩ := (hrangeA _).mp ⟨ra, hra, rfl⟩
      exact ⟨_, _, ⟨mul_le_mul_of_nonneg_left hlo hscale.le,
        mul_le_mul_of_nonneg_left hhi hscale.le⟩, (hrangeB _).mp ⟨rb, hrb, rfl⟩, rfl⟩

theorem computeCross_range_yen : ∃ r : CrossResult ℚ,
    computeCross ⟨.mul, .div, 100⟩ ⟨1380, 1382⟩ ⟨150, 151⟩ = .ok r ∧ 0 < r.bid ∧ r.bid ≤ r.ask ∧
      Set.Icc r.bid r.ask = {x | ∃ ra rb, ra ∈ Set.Icc 1380 1382 ∧ rb ∈ Set.Icc 150 151 ∧
        CrossFormula.effectiveScale ⟨.mul, .div, 100⟩ * CrossOp.rate .mul ra * CrossOp.rate .div rb =
          x} :=
  computeCross_range ⟨.mul, .div, 100⟩ ⟨1380, 1382⟩ ⟨150, 151⟩ (.inl rfl) (.inr rfl)
    ⟨by decide, by decide⟩ ⟨by decide, by decide⟩

end Wtg.Pricing.CrossRate
