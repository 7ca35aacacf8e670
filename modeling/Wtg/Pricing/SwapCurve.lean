import Mathlib.Data.Int.Cast.Defs
import Wtg.Lib.SwapSort
import Wtg.Pricing.Table

/-! # Swap points between the tenors

`InterpolateSwap` of `pkg/pricing/valuedate.go`: the swap points of a pair, placed at the days of
their tenors and sorted by day, give the swap point of any day between them. -/

namespace Wtg.Pricing.SwapCurve

open Lib Lib.SwapSort Pricing.Table List

def defaultTenorDays : List (String × ℤ) :=
  [("TOD", -2), ("TOM", -1), ("SPOT", 0), ("1W", 7), ("2W", 14), ("1M", 30), ("2M", 61), ("3M", 91),
    ("6M", 183), ("9M", 274), ("1Y", 365)]

inductive SwapErr
  | outOfRange
  | noSwap
deriving DecidableEq, Repr

def SwapErr.text : SwapErr → String
  | .outOfRange => "pricing: value date 가 등록된 tenor 범위 밖 (extrapolation 비활성)"
  | .noSwap => "pricing: 해당 pair 의 swap_point 미등록"

structure Item (R : Type*) where
  tenor : String
  days : ℤ
  m : Margin R
deriving DecidableEq, Repr

structure SwapInterpolation (R : Type*) where
  margin : Margin R
  fromTenor : String
  toTenor : String
  fromDays : ℤ
  toDays : ℤ
  offsetDays : ℤ
  weight : R
  exact : Bool
deriving DecidableEq, Repr

variable {R : Type*}

def items (swapPoint : GoMap SwapKey (Margin R)) (pair : String) : List (Item R) :=
  swapPoint.entries.filterMap fun e =>
    if e.1.pair = pair then
      (defaultTenorDays.lookup e.1.tenor).map fun days => ⟨e.1.tenor, days, e.2⟩
    else none

def Follows (x y : Item R) : Prop := y.days ≤ x.days

instance : DecidableRel (Follows (R := R)) := fun _ _ => inferInstanceAs (Decidable (_ ≤ _))

instance : Std.Total (Follows (R := R)) := ⟨fun x y => le_total y.days x.days⟩

instance : IsTrans (Item R) Follows := ⟨fun _ _ _ h h' => le_trans h' h⟩

/-- The last point before the day and the first one after it. -/
def neighbours (offsetDays : ℤ) :
    Option (Item R) → List (Item R) → Option (Item R) × Option (Item R)
  | prev, [] => (prev, none)
  | prev, it :: its =>
    let prev := if it.days < offsetDays then some it else prev
    if it.days > offsetDays then (prev, some it) else neighbours offsetDays prev its

def SwapInterpolation.empty [Zero R] (offsetDays : ℤ) : SwapInterpolation R :=
  ⟨0, "", "", 0, 0, offsetDays, 0, false⟩

/-! ## Interpolation -/

section

variable [Zero R] [Add R] [Sub R] [Mul R] [Div R] [IntCast R]

def lerp (w prev next : R) : R := prev + (next - prev) * w

def lerpMargin (w : R) (m n : Margin R) : Margin R where
  bidAmount := lerp w m.bidAmount n.bidAmount
  askAmount := lerp w m.askAmount n.askAmount
  skewAmount := lerp w m.skewAmount n.skewAmount
  spreadAmount := lerp w m.spreadAmount n.spreadAmount

def interpolate (offsetDays : ℤ) (its : List (Item R)) :
    Except (SwapErr × SwapInterpolation R) (SwapInterpolation R) :=
  match its.find? fun it => it.days = offsetDays with
  | some it => .ok ⟨it.m, it.tenor, it.tenor, it.days, it.days, offsetDays, 0, true⟩
  | none =>
    match neighbours offsetDays none its with
    | (some prev, some next) =>
      let w : R := ((offsetDays - prev.days : ℤ) : R) / ((next.days - prev.days : ℤ) : R)
      .ok ⟨lerpMargin w prev.m next.m, prev.tenor, next.tenor, prev.days, next.days, offsetDays, w,
        false⟩
    | _ => .error (.outOfRange, .empty offsetDays)

def interpolateSwap (t : PricingTable R) (pair : String) (offsetDays : ℤ) :
    Except (SwapErr × SwapInterpolation R) (SwapInterpolation R) :=
  let its := items t.swapPoint pair
  if its.length = 0 then .error (.noSwap, .empty 0)
  else interpolate offsetDays (swapSort Follows its)

end

lemma items_perm {sp sp' : GoMap SwapKey (Margin R)} (h : sp'.entries.Perm sp.entries)
    (pair : String) : (items sp' pair).Perm (items sp pair) :=
  h.filterMap _

variable {sp : GoMap SwapKey (Margin R)}

lemma mem_items {pair : String} {it : Item R} :
    it ∈ items sp pair ↔
      sp.lookup ⟨pair, it.tenor⟩ = some it.m ∧ defaultTenorDays.lookup it.tenor = some it.days := by
  constructor
  · intro h
    obtain ⟨⟨⟨p, tenor⟩, m⟩, hmem, he⟩ := mem_filterMap.mp h
    by_cases hp : p = pair
    · obtain ⟨days, hdays, rfl⟩ := Option.map_eq_some_iff.mp ((if_pos hp).symm.trans he)
      subst hp
      exact ⟨AList.mem_lookup_iff.mpr hmem, hdays⟩
    · exact absurd ((if_neg hp).symm.trans he) (by simp)
  · rintro ⟨hm, hd⟩
    refine mem_filterMap.mpr ⟨⟨⟨pair, it.tenor⟩, it.m⟩, AList.mem_lookup_iff.mp hm, ?_⟩
    show (if pair = pair then _ else _) = _
    rw [if_pos rfl, hd]
    rfl

lemma mem_defaultTenorDays {a : String} {d : ℤ} (h : defaultTenorDays.lookup a = some d) :
    (a, d) ∈ defaultTenorDays := by
  obtain ⟨l₁, l₂, h, -⟩ := lookup_eq_some_iff.mp h
  exact h ▸ mem_append_right l₁ mem_cons_self

lemma days_injective {a b : String} {d : ℤ} (ha : defaultTenorDays.lookup a = some d)
    (hb : defaultTenorDays.lookup b = some d) : a = b := by
  have h : ∀ p ∈ defaultTenorDays, ∀ q ∈ defaultTenorDays, p.2 = q.2 → p.1 = q.1 := by decide
  exact h _ (mem_defaultTenorDays ha) _ (mem_defaultTenorDays hb) rfl

lemma items_days {pair : String} {a b : Item R} (ha : a ∈ items sp pair)
    (hb : b ∈ items sp pair) (h : a.days = b.days) : a = b := by
  obtain ⟨hma, hda⟩ := mem_items.mp ha
  obtain ⟨hmb, hdb⟩ := mem_items.mp hb
  rw [h] at hda
  obtain ⟨ta, da, ma⟩ := a
  obtain ⟨tb, db, mb⟩ := b
  obtain rfl : ta = tb := days_injective hda hdb
  obtain rfl : ma = mb := Option.some.inj (hma.symm.trans hmb)
  obtain rfl : da = db := h
  rfl

lemma interpolateSwap_exact [Zero R] [Add R] [Sub R] [Mul R] [Div R] [IntCast R]
    {t : PricingTable R} {pair tenor : String} {days : ℤ} {m : Margin R}
    (hdays : defaultTenorDays.lookup tenor = some days)
    (hm : t.swapPoint.lookup ⟨pair, tenor⟩ = some m) :
    interpolateSwap t pair days = .ok ⟨m, tenor, tenor, days, days, days, 0, true⟩ := by
  have hitem : (⟨tenor, days, m⟩ : Item R) ∈ items t.swapPoint pair := mem_items.mpr ⟨hm, hdays⟩
  have hsorted : ∀ {it}, it ∈ swapSort Follows (items t.swapPoint pair) ↔
      it ∈ items t.swapPoint pair := (perm_swapSort Follows _).mem_iff
  have hne : (items t.swapPoint pair).length ≠ 0 := by
    have := length_pos_of_mem hitem
    omega
  have hfind : (swapSort Follows (items t.swapPoint pair)).find? (fun it => it.days = days) =
      some ⟨tenor, days, m⟩ := by
    rcases hf : (swapSort Follows (items t.swapPoint pair)).find? (fun it => it.days = days)
      with _ | it
    · have hnone := find?_eq_none.mp hf _ (hsorted.mpr hitem)
      exact absurd hnone (by simp)
    · have hit : it.days = days := by simpa using find?_some hf
      have hmem := hsorted.mp (mem_of_find?_eq_some hf)
      rw [hf, items_days hmem hitem hit]
  simp only [interpolateSwap, if_neg hne, interpolate, hfind]

/-- **The order of the map does not matter.** -/
lemma interpolateSwap_perm [Zero R] [Add R] [Sub R] [Mul R] [Div R] [IntCast R]
    {t t' : PricingTable R} (h : t'.swapPoint.entries.Perm t.swapPoint.entries) (pair : String)
    (offsetDays : ℤ) : interpolateSwap t' pair offsetDays = interpolateSwap t pair offsetDays := by
  have hp := items_perm h pair
  have hsort : swapSort Follows (items t'.swapPoint pair) =
      swapSort Follows (items t.swapPoint pair) :=
    swapSort_perm Follows hp fun a ha b hb hab hba => items_days ha hb (le_antisymm hba hab)
  simp only [interpolateSwap, hp.length_eq, hsort]

end Wtg.Pricing.SwapCurve
