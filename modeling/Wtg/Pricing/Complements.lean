import Mathlib.Data.Set.Finite.List
import Wtg.Pricing.Validate

/-! # Time windows that are complements of each other

`IsActive` follows `complement_of` from window to window. It comes to an answer from a window
exactly if the chain of complements that starts there ends (`ends_iff_acc`). -/

namespace Wtg.Pricing.Complements

open Relation Lib Pricing.BusinessDays Pricing.Table Pricing.Doc List
open Pricing.Validate

def envOf (u : Runes) (loadLocation : String → Option (ℤ → ℤ)) : Env where
  toLower s := String.ofList (u.toLower s.toList)
  loadLocation := loadLocation

variable {env : Env} {all : GoMap String TimeWindowRule} {w other : TimeWindowRule}

def ComplementOf (env : Env) (all : GoMap String TimeWindowRule) (w other : TimeWindowRule) :
    Prop :=
  w.complementOf ≠ "" ∧ all.lookup (env.toLower w.complementOf) = some other

lemma ends_iff_acc : Ends env all w ↔ Acc (fun b a => ComplementOf env all a b) w := by
  constructor
  · intro h
    induction h with
    | plain hplain => exact ⟨_, fun b hb => absurd hplain hb.1⟩
    | missing hnone => exact ⟨_, fun b hb => absurd (hnone.symm.trans hb.2) (by simp)⟩
    | complement hother _ ih =>
      exact ⟨_, fun b hb => Option.some.inj (hother.symm.trans hb.2) ▸ ih⟩
  · intro h
    induction h with
    | intro w _ ih =>
      by_cases hplain : w.complementOf = ""
      · exact .plain hplain
      rcases hother : all.lookup (env.toLower w.complementOf) with _ | other
      · exact .missing hother
      · exact .complement hother (ih other ⟨hplain, hother⟩)

lemma not_transGen_self_of_acc {α : Type*} {r : α → α → Prop} {a : α} (h : Acc r a) :
    ¬ TransGen r a a := by
  have hacc : Acc (TransGen r) a := h.transGen
  clear h
  induction hacc with
  | intro a _ ih => exact fun ha => ih a ha ha

lemma not_ends_of_circle (h : TransGen (ComplementOf env all) w w) : ¬ Ends env all w := by
  intro hends
  have hswap : TransGen (fun b a => ComplementOf env all a b) w w := transGen_swap.mpr h
  exact not_transGen_self_of_acc (ends_iff_acc.mp hends) hswap

lemma ends_iff_acyclic (env : Env) (all : GoMap String TimeWindowRule) :
    (∀ e ∈ all.entries, Ends env all e.2) ↔
      ∀ e ∈ all.entries, ¬ TransGen (ComplementOf env all) e.2 e.2 := by
  constructor
  · exact fun h e he hcircle => not_ends_of_circle hcircle (h e he)
  intro hacyclic
  -- the windows of the table, which are finitely many
  let Window := {w : TimeWindowRule // w ∈ all.entries.map Sigma.snd}
  have : Finite Window := (finite_toSet (all.entries.map Sigma.snd)).to_subtype
  let next : Window → Window → Prop := fun b a => ComplementOf env all a.1 b.1
  have hlift : ∀ {a b : Window}, TransGen next a b →
      TransGen (ComplementOf env all) b.1 a.1 := by
    intro a b h
    induction h with
    | single h => exact .single h
    | tail _ h ih => exact .head h ih
  have hwf : WellFounded next := by
    have htrans : IsTrans Window (TransGen next) := ⟨fun _ _ _ => TransGen.trans⟩
    have hirrefl : Std.Irrefl (TransGen next) := by
      refine ⟨fun a ha => ?_⟩
      obtain ⟨e, he, heq⟩ := mem_map.mp a.2
      refine hacyclic e he ?_
      rw [heq]
      exact hlift ha
    exact Subrelation.wf TransGen.single (Finite.wellFounded_of_trans_of_irrefl (TransGen next))
  have hends : ∀ a : Window, Ends env all a.1 := by
    intro a
    induction a using hwf.induction with
    | _ a ih =>
      by_cases hplain : a.1.complementOf = ""
      · exact .plain hplain
      rcases hother : all.lookup (env.toLower a.1.complementOf) with _ | other
      · exact .missing hother
      · have hmem : other ∈ all.entries.map Sigma.snd :=
          mem_map.mpr ⟨⟨_, other⟩, AList.mem_lookup_iff.mp hother, rfl⟩
        exact .complement hother (ih ⟨other, hmem⟩ ⟨hplain, hother⟩)
  exact fun e he => hends ⟨e.2, mem_map_of_mem he⟩

/-- **When the evaluation of time windows terminates**: no window is its own complement through any
number of `complement_of` references. -/
theorem isActive_terminates_iff {R : Type*} (u : Runes) (loadLocation : String → Option (ℤ → ℤ))
    (doc : PricingTableDoc R) :
    let env := envOf u loadLocation
    let windows := (buildPricingTable u doc).timeWindows
    (∀ e ∈ windows.entries, ∀ now, ∃ fuel on, isActive env now windows fuel e.2 = some on) ↔
      ∀ e ∈ windows.entries, ¬ TransGen (ComplementOf env windows) e.2 e.2 := by
  intro env windows
  rw [← ends_iff_acyclic env windows]
  constructor
  · intro h e he
    obtain ⟨fuel, on, hon⟩ := h e he ⟨0, 0⟩
    exact ends_of_isActive hon
  · exact fun h e he now => isActive_of_ends now (h e he)

def circleDoc : PricingTableDoc ℚ :=
  { PricingTableDoc.empty with
    timeWindows := [⟨"day", "", "", "", "", "night"⟩, ⟨"night", "", "", "", "", "day"⟩] }

theorem circle_accepted :
    validate (fun _ => "") circleDoc = none ∧
      ∃ w, (buildPricingTable ⟨id, id⟩ circleDoc).timeWindows.lookup "day" = some w ∧
        ∀ fuel now, isActive (envOf ⟨id, id⟩ fun _ => none) now
          (buildPricingTable ⟨id, id⟩ circleDoc).timeWindows fuel w = none := by
  have hday : (buildPricingTable ⟨id, id⟩ circleDoc).timeWindows.lookup "day" =
      some ((⟨"day", "", "", "", "", "night"⟩ : TimeWindowDoc).rule ⟨id, id⟩) := by decide
  have hnight : (buildPricingTable ⟨id, id⟩ circleDoc).timeWindows.lookup "night" =
      some ((⟨"night", "", "", "", "", "day"⟩ : TimeWindowDoc).rule ⟨id, id⟩) := by decide
  refine ⟨validate_eq_none.mpr ⟨by decide, by decide, by decide⟩, _, hday, fun fuel now => ?_⟩
  rcases hres : isActive (envOf ⟨id, id⟩ fun _ => none) now
    (buildPricingTable ⟨id, id⟩ circleDoc).timeWindows fuel _ with _ | on
  · rfl
  · refine absurd (ends_of_isActive hres)
      (not_ends_of_circle (.tail (.single ⟨?_, hnight⟩) ⟨?_, hday⟩))
    · decide
    · decide

end Wtg.Pricing.Complements
