import Mathlib.Tactic.Ring
import Wtg.Pricing.Engine

/-! # Prices and the order of maps

Go enumerates a map in any order. Pricing ranges over two: `ActiveWindows` over `TimeWindows` and
`InterpolateSwap` over `SwapPoint`. -/

namespace Wtg.Pricing.MapOrder

open Lib Lib.FirstMatch Pricing.BusinessDays Pricing.Table Pricing.SwapCurve Option
open Pricing.Engine
open QuoteId.Registry (Profile)

variable {R : Type*}

/-- The same table with its maps enumerated in another order. -/
structure Reordered (t t' : PricingTable R) : Prop where
  timeWindows : t'.timeWindows.entries.Perm t.timeWindows.entries
  swapPoint : t'.swapPoint.entries.Perm t.swapPoint.entries
  rest : t' = { t with timeWindows := t'.timeWindows, swapPoint := t'.swapPoint }

/-! ## Active windows -/

section

variable {env : Env} {fuel : ℕ} {now : Time} {t t' : PricingTable R} {ws ws' : List String}

lemma Reordered.refl (t : PricingTable R) : Reordered t t := ⟨.refl _, .refl _, rfl⟩

lemma Reordered.symm (h : Reordered t t') : Reordered t' t where
  timeWindows := h.timeWindows.symm
  swapPoint := h.swapPoint.symm
  rest := by
    rw [h.rest]

lemma Reordered.activeWindows (h : Reordered t t') (hw : t.activeWindows env fuel now = some ws) :
    ∃ ws', t'.activeWindows env fuel now = some ws' ∧ ws'.Perm ws := by
  obtain ⟨hall, rfl⟩ := activeIn_eq_some.mp hw
  refine ⟨_, activeIn_eq_some.mpr ⟨?_, rfl⟩, ?_⟩
  · rw [isActive_perm env now h.timeWindows]
    exact fun e he => hall e (h.timeWindows.mem_iff.mp he)
  · rw [isActive_perm env now h.timeWindows]
    exact (h.timeWindows.filter _).map _

lemma Reordered.activeWindows_none (h : Reordered t t')
    (hw : t.activeWindows env fuel now = none) : t'.activeWindows env fuel now = none := by
  rcases hw' : t'.activeWindows env fuel now with _ | ws'
  · rfl
  · obtain ⟨ws, hws, -⟩ := h.symm.activeWindows hw'
    exact absurd (hw.symm.trans hws) (by simp)

lemma exists_reordered (hw : t.activeWindows env fuel now = some ws) (hp : ws'.Perm ws) :
    ∃ t', Reordered t t' ∧ t'.activeWindows env fuel now = some ws' := by
  obtain ⟨hall, rfl⟩ := activeIn_eq_some.mp hw
  obtain ⟨m, hm, hws'⟩ := GoMap.exists_order _ t.timeWindows hp
  refine ⟨{ t with timeWindows := m }, ⟨hm, .refl _, rfl⟩, activeIn_eq_some.mpr ⟨?_, ?_⟩⟩
  · rw [isActive_perm env now hm]
    exact fun e he => hall e (hm.mem_iff.mp he)
  · rw [isActive_perm env now hm]
    exact hws'.symm

end

lemma matchCustomerRule_perm (t : PricingTable R) (customerID pair : String)
    {ws ws' : List String} (hp : ws'.Perm ws) :
    matchCustomerRule t customerID pair ws' = matchCustomerRule t customerID pair ws := by
  simp only [matchCustomerRule, hp.mem_iff]

def matchedRule (env : Env) (fuel : ℕ) (t : PricingTable R) (now : Time)
    (customerID pair : String) : Option (Option (CustomerRule R)) :=
  (t.activeWindows env fuel now).map (matchCustomerRule t customerID pair)

variable {t t' : PricingTable R}

lemma Reordered.matchedRule (h : Reordered t t') (env : Env) (fuel : ℕ) (now : Time)
    (customerID pair : String) :
    matchedRule env fuel t' now customerID pair = matchedRule env fuel t now customerID pair := by
  unfold MapOrder.matchedRule
  rcases hw : t.activeWindows env fuel now with _ | ws
  · rw [h.activeWindows_none hw]
    rfl
  · obtain ⟨ws', hw', hp⟩ := h.activeWindows hw
    rw [hw', map_some, map_some, ← matchCustomerRule_perm t customerID pair hp,
      h.rest]
    rfl

lemma Reordered.lookupSwap [Zero R] (h : Reordered t t') (pair tenor : String) :
    t'.lookupSwap pair tenor = t.lookupSwap pair tenor := by
  unfold PricingTable.lookupSwap
  rw [AList.perm_lookup h.swapPoint]

lemma Reordered.offsetOf (h : Reordered t t') (valueDate now : Time) (spotDays : ℤ) :
    offsetOf t' valueDate now spotDays = offsetOf t valueDate now spotDays := by
  rw [h.rest]
  rfl

/-! ## Prices -/

section

variable [Zero R] [Add R] [Sub R] [Div R] [OfNat R 2]

def SamePrice (raw : Quote R) (m m' : Margin R) : Prop :=
  bidOf raw m = bidOf raw m' ∧ askOf raw m = askOf raw m'

omit [Zero R] in
lemma customerQuote_eq_iff (t : PricingTable R) (raw : Quote R) (profile : Profile)
    (tenor : String) (m m' : Margin R) :
    customerQuote t raw profile tenor m = customerQuote t raw profile tenor m' ↔
      SamePrice raw m m' := by
  simp [customerQuote, SamePrice]

lemma Reordered.applyMargins (h : Reordered t t') (raw : Quote R) (profile : Profile)
    (tenor : String) (swap : Margin R) (customerID : String) (ws : List String) :
    applyMargins t' raw profile tenor swap customerID ws =
      applyMargins t raw profile tenor swap customerID ws := by
  rw [h.rest]
  rfl

def OnePrice (t : PricingTable R) (raw : Quote R) (profile : Profile) (customerID : String)
    (swap : Margin R) (ws : List String) : Prop :=
  let hqs := deciding 0 (t.hqLevels raw.pair profile.tier) ws
  let sites := deciding 0 (t.siteLevels raw.pair profile.channel profile.site) ws
  let rule := matchCustomerRule t customerID raw.pair ws
  ∀ hq site hq' site', Selectable hqs sites ws hq site → Selectable hqs sites ws hq' site' →
    SamePrice raw (totalMargin swap hq site rule) (totalMargin swap hq' site' rule)

/-- The windows that are active at a time have one price. -/
def Unambiguous (env : Env) (fuel : ℕ) (t : PricingTable R) (raw : Quote R) (profile : Profile)
    (customerID : String) (now : Time) (swap : Margin R) : Prop :=
  ∀ ws ∈ t.activeWindows env fuel now, OnePrice t raw profile customerID swap ws

lemma applyMargins_perm_iff (t : PricingTable R) (raw : Quote R) (profile : Profile)
    (tenor : String) (swap : Margin R) (customerID : String) (ws : List String) :
    (∀ ws', ws'.Perm ws → applyMargins t raw profile tenor swap customerID ws' =
        applyMargins t raw profile tenor swap customerID ws) ↔
      OnePrice t raw profile customerID swap ws := by
  have hquote : ∀ ws', ws'.Perm ws → applyMargins t raw profile tenor swap customerID ws' =
      customerQuote t raw profile tenor (totalMargin swap
        ((search (t.hqLevels raw.pair profile.tier) ws').getD 0)
        ((search (t.siteLevels raw.pair profile.channel profile.site) ws').getD 0)
        (matchCustomerRule t customerID raw.pair ws)) := by
    intro ws' hp
    rw [Engine.applyMargins, matchCustomerRule_perm t customerID raw.pair hp]
    rfl
  constructor
  · intro h hq site hq' site' hs hs'
    obtain ⟨ws₁, hp₁, rfl, rfl⟩ := (selectable_searches 0 0 _ _ ws hq site).mp hs
    obtain ⟨ws₂, hp₂, rfl, rfl⟩ := (selectable_searches 0 0 _ _ ws hq' site').mp hs'
    rw [← customerQuote_eq_iff t raw profile tenor, ← hquote ws₁ hp₁, ← hquote ws₂ hp₂, h ws₁ hp₁,
      h ws₂ hp₂]
  · intro h ws' hp
    rw [hquote ws' hp, hquote ws (.refl _), customerQuote_eq_iff]
    exact h _ _ _ _ ((selectable_searches 0 0 _ _ ws _ _).mpr ⟨ws', hp, rfl, rfl⟩)
      ((selectable_searches 0 0 _ _ ws _ _).mpr ⟨ws, .refl _, rfl, rfl⟩)

lemma map_applyMargins_iff (env : Env) (fuel : ℕ) (t : PricingTable R) (raw : Quote R)
    (profile : Profile) (tenor customerID : String) (now : Time) (swap : Margin R) :
    (∀ t', Reordered t t' →
      (t'.activeWindows env fuel now).map (applyMargins t raw profile tenor swap customerID) =
        (t.activeWindows env fuel now).map (applyMargins t raw profile tenor swap customerID)) ↔
      Unambiguous env fuel t raw profile customerID now swap := by
  rcases hw : t.activeWindows env fuel now with _ | ws
  · refine iff_of_true (fun t' h => by rw [h.activeWindows_none hw]) fun ws hws => ?_
    exact absurd (hw.symm.trans hws) (by simp)
  · have hunamb : Unambiguous env fuel t raw profile customerID now swap ↔ ∀ ws', ws'.Perm ws →
        applyMargins t raw profile tenor swap customerID ws' =
          applyMargins t raw profile tenor swap customerID ws := by
      rw [applyMargins_perm_iff, Unambiguous, hw]
      simp only [mem_def, some_inj, forall_eq']
    rw [hunamb]
    constructor
    · intro h ws' hp
      obtain ⟨t', ht', hw'⟩ := exists_reordered hw hp
      have := h t' ht'
      rw [hw'] at this
      exact some.inj this
    · intro h t' ht'
      obtain ⟨ws', hw', hp⟩ := ht'.activeWindows hw
      rw [hw']
      exact congrArg some (h ws' hp)

lemma Reordered.applyForCustomer (h : Reordered t t') (env : Env) (fuel : ℕ) (clock : Time)
    (raw : Quote R) (profile : Profile) (tenor : String) (now : Time) (customerID : String) :
    Engine.applyForCustomer env fuel clock t' raw profile tenor now customerID =
      (t'.activeWindows env fuel (effectiveNow clock now)).map
        (Engine.applyMargins t raw profile tenor (t.lookupSwap raw.pair tenor) customerID) := by
  rw [Engine.applyForCustomer, h.lookupSwap, funext (h.applyMargins raw profile tenor _ customerID)]

/-- **Prices do not depend on the order of maps exactly for unambiguous tables**; the customer rule
that matches never does. -/
theorem pricing_order_iff [Mul R] [IntCast R] (env : Env) (fuel : ℕ) (clock : Time)
    (t : PricingTable R) (raw : Quote R) (profile : Profile) (tenor customerID : String)
    (now valueDate : Time) (spotDays : ℤ) :
    ((∀ t', Reordered t t' →
        applyForCustomer env fuel clock t' raw profile tenor now customerID =
          applyForCustomer env fuel clock t raw profile tenor now customerID ∧
        matchedRule env fuel t' (effectiveNow clock now) customerID raw.pair =
          matchedRule env fuel t (effectiveNow clock now) customerID raw.pair) ↔
      Unambiguous env fuel t raw profile customerID (effectiveNow clock now)
        (t.lookupSwap raw.pair tenor)) ∧
    ((∀ t', Reordered t t' →
        applyForValueDate env fuel clock t' raw profile valueDate now spotDays customerID =
          applyForValueDate env fuel clock t raw profile valueDate now spotDays customerID ∧
        matchedRule env fuel t' (effectiveNow clock now) customerID raw.pair =
          matchedRule env fuel t (effectiveNow clock now) customerID raw.pair) ↔
      ∀ interp, interpolateSwap t raw.pair
          (offsetOf t valueDate (effectiveNow clock now) spotDays) = .ok interp →
        Unambiguous env fuel t raw profile customerID (effectiveNow clock now) interp.margin) := by
  constructor
  · rw [← map_applyMargins_iff env fuel t raw profile tenor]
    refine forall₂_congr fun t' h => ?_
    rw [and_iff_left (h.matchedRule ..), h.applyForCustomer, (Reordered.refl t).applyForCustomer]
  · rw [forall₂_congr fun t' h => and_iff_left (h.matchedRule ..)]
    rcases hi : interpolateSwap t raw.pair
      (offsetOf t valueDate (effectiveNow clock now) spotDays) with err | interp
    · refine iff_of_true (fun t' h => ?_) (by simp)
      simp only [applyForValueDate, h.offsetOf, interpolateSwap_perm h.swapPoint, hi]
    · have hvalue : ∀ t', Reordered t t' →
          applyForValueDate env fuel clock t' raw profile valueDate now spotDays customerID =
            ((t'.activeWindows env fuel (effectiveNow clock now)).map (applyMargins t raw profile
              (if interp.exact then interp.fromTenor else "") interp.margin customerID)).map
              fun q => .ok (q, interp) := by
        intro t' h
        simp only [applyForValueDate, h.offsetOf, interpolateSwap_perm h.swapPoint, hi,
          h.applyMargins, map_map]
        rfl
      have hinj : Function.Injective fun q : CustomerQuote R =>
          (.ok (q, interp) : Except (SwapErr × SwapInterpolation R) _) := by
        intro q q' h
        exact congrArg Prod.fst (Except.ok.inj h)
      simp only [Except.ok.injEq, forall_eq']
      rw [← map_applyMargins_iff env fuel t raw profile
        (if interp.exact then interp.fromTenor else "")]
      refine forall₂_congr fun t' h => ?_
      rw [hvalue t' h, hvalue t (.refl t), (map_injective hinj).eq_iff]

end

/-! ## Exact arithmetic -/

section

variable {K : Type*} [Field K]

def bidShift (m : Margin K) : K := m.skewAmount - m.bidAmount - m.spreadAmount / 2

def askShift (m : Margin K) : K := m.skewAmount + m.askAmount + m.spreadAmount / 2

variable (raw : Quote K)

lemma bidOf_add (m n : Margin K) : bidOf raw (m + n) = bidOf raw m + bidShift n := by
  show raw.bid + (m.skewAmount + n.skewAmount) - (m.bidAmount + n.bidAmount) -
    (m.spreadAmount + n.spreadAmount) / 2 = _
  unfold bidOf bidShift
  ring

lemma askOf_add (m n : Margin K) : askOf raw (m + n) = askOf raw m + askShift n := by
  show raw.ask + (m.skewAmount + n.skewAmount) + (m.askAmount + n.askAmount) +
    (m.spreadAmount + n.spreadAmount) / 2 = _
  unfold askOf askShift
  ring

lemma samePrice_iff_shift (swap hq site hq' site' : Margin K) {rule : Option (CustomerRule K)}
    (hrule : ∀ r ∈ rule, r.mode ≠ "override") :
    SamePrice raw (totalMargin swap hq site rule) (totalMargin swap hq' site' rule) ↔
      bidShift hq + bidShift site = bidShift hq' + bidShift site' ∧
        askShift hq + askShift site = askShift hq' + askShift site' := by
  rcases rule with _ | r
  · simp only [totalMargin, SamePrice, bidOf_add, askOf_add, add_assoc, add_right_inj]
  · simp only [totalMargin, if_neg (hrule r rfl), SamePrice, bidOf_add, askOf_add, add_left_inj]
    simp only [add_assoc, add_right_inj]

lemma onePrice_iff_shift (t : PricingTable K) (raw : Quote K) (profile : Profile)
    (customerID : String) (swap : Margin K) (ws : List String) :
    OnePrice t raw profile customerID swap ws ↔
      (∃ r ∈ matchCustomerRule t customerID raw.pair ws, r.mode = "override") ∨
      let hqs := deciding 0 (t.hqLevels raw.pair profile.tier) ws
      let sites := deciding 0 (t.siteLevels raw.pair profile.channel profile.site) ws
      ∀ hq site hq' site', Selectable hqs sites ws hq site → Selectable hqs sites ws hq' site' →
        bidShift hq + bidShift site = bidShift hq' + bidShift site' ∧
          askShift hq + askShift site = askShift hq' + askShift site' := by
  by_cases hrule : ∃ r ∈ matchCustomerRule t customerID raw.pair ws, r.mode = "override"
  · refine iff_of_true (fun hq site hq' site' _ _ => ?_) (.inl hrule)
    obtain ⟨r, hr, hmode⟩ := hrule
    rw [hr]
    simp only [totalMargin, if_pos hmode, SamePrice, and_self]
  · rw [or_iff_right hrule]
    have hadd : ∀ r ∈ matchCustomerRule t customerID raw.pair ws, r.mode ≠ "override" :=
      fun r hr hmode => hrule ⟨r, hr, hmode⟩
    simp only [OnePrice, samePrice_iff_shift raw swap _ _ _ _ hadd]

end

def allDay (name : String) : TimeWindowRule := ⟨name, -1, -1, "", 0xFF, ""⟩

def overlapping : PricingTable ℚ where
  version := 1
  swapPoint := ∅
  hqMargin := ⟨[⟨⟨"USD/KRW", "VIP", "day"⟩, ⟨1, 1, 0, 0⟩⟩,
    ⟨⟨"USD/KRW", "VIP", "event"⟩, ⟨2, 2, 0, 0⟩⟩], by simp [List.NodupKeys]⟩
  siteMargin := ∅
  customerMargin := []
  timeWindows := ⟨[⟨"day", allDay "day"⟩, ⟨"event", allDay "event"⟩], by simp [List.NodupKeys]⟩
  calendar := none

def overlappingFlipped : PricingTable ℚ :=
  { overlapping with
    timeWindows := ⟨[⟨"event", allDay "event"⟩, ⟨"day", allDay "day"⟩], by simp [List.NodupKeys]⟩ }

theorem price_follows_window_order :
    let bid := fun t => (applyForCustomer ⟨id, fun _ => none⟩ 1 ⟨0, 0⟩ t
      ⟨"USD/KRW", 1380, 1381, ⟨0, 0⟩, 1, 1⟩ ⟨"WEB", "BRANCH", "VIP"⟩ "SPOT" ⟨0, 0⟩ "").map (·.bid)
    Reordered overlapping overlappingFlipped ∧ bid overlapping = some 1379 ∧
      bid overlappingFlipped = some 1378 := by
  refine ⟨⟨List.Perm.swap _ _ _, .refl _, rfl⟩, ?_, ?_⟩
  · decide +kernel
  · decide +kernel

end Wtg.Pricing.MapOrder
