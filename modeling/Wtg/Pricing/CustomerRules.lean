import Wtg.Pricing.Doc
import Wtg.Pricing.Engine

/-! # Which customer rule applies

`BuildPricingTable` sorts the customer rules by falling priority and `matchCustomerRule` takes the
first one that matches. -/

namespace Wtg.Pricing.CustomerRules

open Lib.SwapSort Pricing.Table Pricing.Doc Pricing.Engine

variable {R : Type*}

instance : Std.Total (Follows (R := R)) :=
  ⟨fun x y => (le_total x.priority y.priority).imp not_lt.mpr not_lt.mpr⟩

instance : IsTrans (CustomerRule R) Follows :=
  ⟨fun _ _ _ hxy hyz => not_lt.mpr ((not_lt.mp hxy).trans (not_lt.mp hyz))⟩

/-- An entry is for the customer, for the pair or any pair, and for an active window or any time.
-/
def Matches (u : Runes) (customerID pair : String) (activeWindows : List String)
    (e : CustomerEntryDoc R) : Prop :=
  e.customerID = customerID ∧ (e.pair = "" ∨ e.pair = pair) ∧
    (normalizeName u e.window = "" ∨ normalizeName u e.window ∈ activeWindows)

instance (u : Runes) (customerID pair : String) (activeWindows : List String) :
    DecidablePred (Matches (R := R) u customerID pair activeWindows) := fun _ =>
  inferInstanceAs (Decidable (_ ∧ _))

/-! ## The rule that matches -/

section

variable (u : Runes) (doc : PricingTableDoc R) {customerID : String} (pair : String)
  (activeWindows : List String)

lemma matchCustomerRule_eq (hid : customerID ≠ "") :
    matchCustomerRule (buildPricingTable u doc) customerID pair activeWindows =
      (swapSort Follows (doc.customerMargin.map (CustomerEntryDoc.rule u))).find? fun r =>
        r.customerID = customerID ∧ (r.pair = "" ∨ r.pair = pair) ∧
          (r.window = "" ∨ r.window ∈ activeWindows) := by
  rw [matchCustomerRule, if_neg hid]
  rfl

/-- **The rule that applies** is that of the first matching entry of the highest priority, if there
is one. -/
theorem matchCustomerRule_firstBest (hid : customerID ≠ "") :
    ((∃ rule, matchCustomerRule (buildPricingTable u doc) customerID pair activeWindows =
        some rule) ↔ ∃ e ∈ doc.customerMargin, Matches u customerID pair activeWindows e) ∧
      ∀ rule, matchCustomerRule (buildPricingTable u doc) customerID pair activeWindows =
          some rule ↔
        ∃ before e after, doc.customerMargin = before ++ e :: after ∧
          Matches u customerID pair activeWindows e ∧ rule = e.rule u ∧
          (∀ b ∈ before, Matches u customerID pair activeWindows b → b.priority < e.priority) ∧
          (∀ b ∈ after, Matches u customerID pair activeWindows b →
            b.priority ≤ e.priority) := by
  rw [matchCustomerRule_eq u doc pair activeWindows hid]
  constructor
  · rw [← Option.isSome_iff_exists, List.find?_isSome]
    simp only [(perm_swapSort _ _).mem_iff, List.mem_map, exists_exists_and_eq_and,
      decide_eq_true_eq]
    rfl
  · intro rule
    rw [find_swapSort_iff, firstBest_map]
    constructor
    · rintro ⟨e, rfl, before, after, hdoc, hmatch, hnot, hle⟩
      refine ⟨before, e, after, hdoc, of_decide_eq_true hmatch, rfl, fun b hb hm => ?_,
        fun b hb hm => ?_⟩
      · exact not_not.mp (hnot b hb (decide_eq_true hm))
      · exact not_lt.mp (hle b hb (decide_eq_true hm))
    · rintro ⟨before, e, after, hdoc, hmatch, rfl, hlt, hle⟩
      refine ⟨e, rfl, before, after, hdoc, decide_eq_true hmatch, fun b hb hm => ?_,
        fun b hb hm => ?_⟩
      · exact not_not.mpr (hlt b hb (of_decide_eq_true hm))
      · exact not_lt.mpr (hle b hb (of_decide_eq_true hm))

end

def entry (customerID : String) (bidDelta priority : ℤ) : CustomerEntryDoc ℤ :=
  ⟨customerID, "", bidDelta, 0, 0, 0, "", priority, ""⟩

/-- Two entries of the highest priority among those of the customer `C1`. -/
def tieDoc : PricingTableDoc ℤ :=
  { PricingTableDoc.empty with
    customerMargin := [entry "C1" 1 0, entry "C2" 2 9, entry "C1" 3 5, entry "C1" 4 5] }

theorem matchCustomerRule_firstBest_tie :
    matchCustomerRule (buildPricingTable ⟨id, id⟩ tieDoc) "C1" "USD/KRW" [] =
      some ((entry "C1" 3 5).rule ⟨id, id⟩) :=
  ((matchCustomerRule_firstBest ⟨id, id⟩ tieDoc "USD/KRW" [] (by decide)).2 _).mpr
    ⟨[entry "C1" 1 0, entry "C2" 2 9], entry "C1" 3 5, [entry "C1" 4 5], rfl, by decide, rfl,
      by decide, by decide⟩

end Wtg.Pricing.CustomerRules
