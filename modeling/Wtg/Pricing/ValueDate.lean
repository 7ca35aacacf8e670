import Wtg.Pricing.MapOrder

/-! # Tenors and value dates

A value date can fall on the day of a tenor. Then `ApplyForValueDate` and `ApplyForCustomer` give
one quote exactly if the windows can be evaluated and have one price (`agree_iff`). -/

namespace Wtg.Pricing.ValueDate

open Lib Pricing.BusinessDays Pricing.Table Pricing.SwapCurve Option
open Pricing.Engine Pricing.MapOrder
open QuoteId.Registry (Profile)

variable {R : Type*} [Zero R] [Add R] [Sub R] [Mul R] [Div R] [IntCast R] [OfNat R 2]
  (env : Env) (clock : Time) (t : PricingTable R) (raw : Quote R) (profile : Profile)

lemma applyForValueDate_eq (fuel : ℕ) {tenor : String} {days : ℤ} {m : Margin R}
    {valueDate now : Time} {spotDays : ℤ} (customerID : String)
    (hdays : defaultTenorDays.lookup tenor = some days)
    (hoffset : offsetOf t valueDate (effectiveNow clock now) spotDays = days)
    (hm : t.swapPoint.lookup ⟨raw.pair, tenor⟩ = some m) {t' : PricingTable R}
    (h : Reordered t t') :
    applyForValueDate env fuel clock t' raw profile valueDate now spotDays customerID =
      (applyForCustomer env fuel clock t' raw profile tenor now customerID).map fun quote =>
        .ok (quote, ⟨m, tenor, tenor, days, days, days, 0, true⟩) := by
  have hm' : t'.swapPoint.lookup ⟨raw.pair, tenor⟩ = some m :=
    (AList.perm_lookup h.swapPoint).trans hm
  have hswap : t'.lookupSwap raw.pair tenor = m := by rw [PricingTable.lookupSwap, hm', getD]
  simp only [applyForValueDate, (h.offsetOf ..).trans hoffset, interpolateSwap_exact hdays hm',
    applyForCustomer, hswap, if_true, map_map]
  rfl

/-- `ApplyForValueDate` and `ApplyForCustomer` return, the first with an exact match, and with the
same quote, whatever the orders in which the two calls enumerate the maps of the table. -/
def Agree (tenor : String) (valueDate now : Time) (spotDays : ℤ) (customerID : String) : Prop :=
  ∃ enough, ∀ fuel ≥ enough, ∀ t₁ t₂, Reordered t t₁ → Reordered t t₂ →
    ∃ quote interp, interp.exact = true ∧
      applyForValueDate env fuel clock t₁ raw profile valueDate now spotDays customerID =
        some (.ok (quote, interp)) ∧
      applyForCustomer env fuel clock t₂ raw profile tenor now customerID = some quote

/-- **When pricing a value date agrees with pricing its tenor**: exactly if following `ComplementOf`
ends from every window, and the windows that are active have one price. -/
theorem agree_iff {tenor : String} {days : ℤ} {valueDate now : Time} {spotDays : ℤ}
    (customerID : String) (hdays : defaultTenorDays.lookup tenor = some days)
    (hoffset : offsetOf t valueDate (effectiveNow clock now) spotDays = days)
    (hm : (t.swapPoint.lookup ⟨raw.pair, tenor⟩).isSome) :
    Agree env clock t raw profile tenor valueDate now spotDays customerID ↔
      (∀ e ∈ t.timeWindows.entries, Ends env t.timeWindows e.2) ∧
        ∀ fuel, Unambiguous env fuel t raw profile customerID (effectiveNow clock now)
          (t.lookupSwap raw.pair tenor) := by
  obtain ⟨m, hm⟩ := isSome_iff_exists.mp hm
  rw [← activeWindows_iff_ends t env (effectiveNow clock now)]
  constructor
  · rintro ⟨enough, h⟩
    have hall : ∀ fuel ≥ enough, Unambiguous env fuel t raw profile customerID
        (effectiveNow clock now) (t.lookupSwap raw.pair tenor) := by
      intro fuel hfuel
      rw [← map_applyMargins_iff env fuel t raw profile tenor]
      intro t' ht'
      -- both orders are compared with the value date priced in the order of `t`
      obtain ⟨q, i, -, hv, hc⟩ := h fuel hfuel t t' (.refl t) ht'
      obtain ⟨q', i', -, hv', hc'⟩ := h fuel hfuel t t (.refl t) (.refl t)
      rw [← ht'.applyForCustomer, ← (Reordered.refl t).applyForCustomer, hc, hc']
      rw [hv, some_inj, Except.ok.injEq, Prod.mk.injEq] at hv'
      rw [hv'.1]
    obtain ⟨quote, interp, -, -, hc⟩ := h enough le_rfl t t (.refl t) (.refl t)
    obtain ⟨ws, hws, -⟩ := map_eq_some_iff.mp hc
    refine ⟨⟨enough, ws, hws⟩, fun fuel ws' hws' => ?_⟩
    exact hall (max fuel enough) (le_max_right ..) ws' (activeWindows_mono (le_max_left ..) hws')
  · rintro ⟨⟨enough, ws, hws⟩, hone⟩
    refine ⟨enough, fun fuel hfuel t₁ t₂ h₁ h₂ => ?_⟩
    have hquote : ∀ {t'}, Reordered t t' →
        applyForCustomer env fuel clock t' raw profile tenor now customerID =
          some (applyMargins t raw profile tenor (t.lookupSwap raw.pair tenor) customerID ws) := by
      intro t' h
      rw [h.applyForCustomer, (map_applyMargins_iff env fuel t raw profile tenor customerID _
        _).mpr (hone fuel) t' h, activeWindows_mono hfuel hws, map_some]
    refine ⟨_, ⟨m, tenor, tenor, days, days, days, 0, true⟩, rfl, ?_, hquote h₂⟩
    rw [applyForValueDate_eq env clock t raw profile fuel customerID hdays hoffset hm h₁, hquote h₁,
      map_some]

def plainEnv : Env := ⟨id, fun _ => none⟩

/-- A table with a swap point for a week, and a margin for its only window. -/
def weekTable (window : TimeWindowRule) : PricingTable ℚ where
  version := 1
  swapPoint := ⟨[⟨⟨"USD/KRW", "1W"⟩, ⟨1, 2, 0, 0⟩⟩], by simp [List.NodupKeys]⟩
  hqMargin := ⟨[⟨⟨"USD/KRW", "VIP", window.name⟩, ⟨1, 1, 0, 0⟩⟩], by simp [List.NodupKeys]⟩
  siteMargin := ∅
  customerMargin := []
  timeWindows := ⟨[⟨window.name, window⟩], by simp [List.NodupKeys]⟩
  calendar := none

def monday : Time := Time.midnight 19723

def weekLater : Time := Time.midnight 19732

def usdKrw : Quote ℚ := ⟨"USD/KRW", 1300, 1301, monday, 0, 0⟩

def night : TimeWindowRule := ⟨"night", 0, 0, "", 0xFF, "night"⟩

def vip : Profile := ⟨"WEB", "BRANCH", "VIP"⟩

theorem agree_iff_day :
    Agree plainEnv monday (weekTable (allDay "day")) usdKrw vip "1W" weekLater monday 0 "" := by
  have hdays : defaultTenorDays.lookup "1W" = some 7 := by decide
  have hws : (weekTable (allDay "day")).activeWindows plainEnv 1 (effectiveNow monday monday) =
      some ["day"] := by decide +kernel
  refine (agree_iff plainEnv monday (weekTable (allDay "day")) usdKrw vip "" hdays (by decide)
    (by decide)).mpr ⟨fun e he => ?_, fun fuel ws hws' => ?_⟩
  · obtain rfl := List.mem_singleton.mp he
    exact .plain rfl
  · have hboth := (activeWindows_mono (le_max_left 1 fuel) hws).symm.trans
      (activeWindows_mono (le_max_right 1 fuel) hws')
    obtain rfl := some.inj hboth
    exact (applyMargins_perm_iff _ usdKrw vip "1W" _ "" ["day"]).mp fun ws' hp => by
      rw [List.perm_singleton.mp hp]

lemma not_ends_night : ∀ w, Ends plainEnv (weekTable night).timeWindows w → w ≠ night := by
  have hself : (weekTable night).timeWindows.lookup (plainEnv.toLower night.complementOf) =
      some night := by decide
  intro w h
  induction h with
  | plain h => rintro rfl; exact absurd h (by decide)
  | missing h => rintro rfl; exact absurd (h.symm.trans hself) (by simp)
  | complement h _ ih =>
    rintro rfl
    exact ih (some.inj (h.symm.trans hself))

theorem not_agree_night :
    defaultTenorDays.lookup "1W" = some 7 ∧
      offsetOf (weekTable night) weekLater (effectiveNow monday monday) 0 = 7 ∧
      ((weekTable night).swapPoint.lookup ⟨usdKrw.pair, "1W"⟩).isSome ∧
      ¬ Agree plainEnv monday (weekTable night) usdKrw vip "1W" weekLater monday 0 "" := by
  refine ⟨by decide, by decide, by decide, ?_⟩
  rintro ⟨enough, h⟩
  obtain ⟨quote, interp, -, -, hc⟩ := h enough le_rfl _ _ (.refl _) (.refl _)
  obtain ⟨ws, hws, -⟩ := map_eq_some_iff.mp hc
  have hends := (activeWindows_iff_ends _ _ _).mp ⟨enough, ws, hws⟩ _ (List.mem_singleton_self _)
  exact not_ends_night _ hends rfl

end Wtg.Pricing.ValueDate
