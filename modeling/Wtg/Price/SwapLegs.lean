import Wtg.Price.LockFresh
import Wtg.Pricing.BusinessDayLaws

/-! # The legs of a swap lock

When the near leg of a swap lock that `validateSwapLegs` accepts settles before the far leg
(`validateSwapLegs_order_iff`), and when the swap points in the response are those that the far leg
was priced with (`reported_swap_iff`). -/

namespace Wtg.Price.SwapLegs

open Lib Lib.Program Lib.SignedCount Pricing.BusinessDays Pricing.Table Option
open Pricing.SwapCurve Pricing.Engine Price.Lock Price.LockFresh
open QuoteId.Registry (Profile)

/-! ## The order of the legs -/

section

variable (lib : GoLib) (tbl : PricingTable ℚ) (now : Time) (spotDays : ℤ)

/-- The spot date that `applyLeg` counts from. -/
def spotDay : ℤ :=
  addBusinessDaysCal (startOfDay now).day (if spotDays ≤ 0 then 2 else spotDays) tbl.cal

/-- When a leg settles, in days after the spot date: as `DefaultTenorDays` has it for a known tenor,
and in business days for a value date. -/
def legOffset (leg : SwapLeg) : Option ℤ :=
  match legKind leg with
  | .missing => none
  | .tenor => defaultTenorDays.lookup leg.tenor
  | .valueDate =>
    match parseValueDate lib leg.valueDate with
    | .ok vd => some (offsetOf tbl vd now (if spotDays ≤ 0 then 2 else spotDays))
    | .error _ => none

/-- The date on which a leg settles: its value date, or the business day as many business days
after the spot date as its tenor says. -/
def settlesOn (leg : SwapLeg) : Option ℤ :=
  match legKind leg with
  | .missing => none
  | .tenor => (defaultTenorDays.lookup leg.tenor).map fun days =>
      addBusinessDaysCal (spotDay tbl now spotDays) days tbl.cal
  | .valueDate => (parseValueDate lib leg.valueDate).toOption.map Time.day

/-- The tenors, from the shortest to the longest. -/
def tenors : List String := defaultTenorDays.map Prod.fst

lemma days_lt_iff {a b : String} {m n : ℤ} (ha : defaultTenorDays.lookup a = some m)
    (hb : defaultTenorDays.lookup b = some n) : m < n ↔ tenors.idxOf a < tenors.idxOf b := by
  have h : ∀ p ∈ defaultTenorDays, ∀ q ∈ defaultTenorDays,
      (p.2 < q.2 ↔ tenors.idxOf p.1 < tenors.idxOf q.1) := by decide
  exact h _ (mem_defaultTenorDays ha) _ (mem_defaultTenorDays hb)

lemma parseValueDate_midnight {lib : GoLib} {s : String} {t : Time}
    (h : parseValueDate lib s = .ok t) : t = Time.midnight t.day := by
  unfold parseValueDate at h
  split at h
  · cases h
    exact congrArg Time.midnight (midnight_day _).symm
  · split at h
    · cases h
      exact congrArg Time.midnight (midnight_day _).symm
    · cases h

lemma open_spotDay : tbl.cal.Open (spotDay tbl now spotDays) :=
  (signedCount_of_nonneg (by split_ifs <;> omega)).2 (by split_ifs <;> omega)

variable {lib tbl now spotDays} {leg : SwapLeg} {n : ℤ}

/-- The offset of a leg is the count of business days up to the date on which it settles. -/
lemma exists_settlesOn (h : legOffset lib tbl now spotDays leg = some n) :
    ∃ d, settlesOn lib tbl now spotDays leg = some d ∧
      signedCount tbl.cal.Open (spotDay tbl now spotDays) d = n ∧
      (legKind leg = .tenor → tbl.cal.Open d) := by
  unfold legOffset at h
  unfold settlesOn
  split at h
  · cases h
  · have hdate := signedCount_of_open (open_spotDay tbl now spotDays) n
    exact ⟨_, by rw [h]; rfl, hdate.1, fun _ => hdate.2⟩
  · rename_i hkind
    split at h
    · rename_i vd hvd
      refine ⟨vd.day, by rw [hvd]; rfl, ?_, fun htenor => by rw [hkind] at htenor; cases htenor⟩
      have hdays : ¬ (if spotDays ≤ 0 then 2 else spotDays) < 0 := by split_ifs <;> omega
      rw [← some.inj h, parseValueDate_midnight hvd, midnight_day, offsetOf, spotDateCal,
        between_midnight, if_neg hdays, spotDay]
    · cases h

end

/-- **When the legs that the validator accepts settle in order**: exactly if a business day lies
after the date of the near leg and up to that of the far leg. With a tenor as the far leg it is
enough that the dates are in order; two value dates always are; two tenors never settle on one day,
and are in order exactly if the near tenor is the shorter one. -/
theorem validateSwapLegs_order_iff (lib : GoLib) (tbl : PricingTable ℚ) (now : Time) (spotDays : ℤ)
    (near far : SwapLeg) (hvalid : validateSwapLegs lib near far = none) (n f : ℤ)
    (hn : legOffset lib tbl now spotDays near = some n)
    (hf : legOffset lib tbl now spotDays far = some f) :
    ∃ d e, settlesOn lib tbl now spotDays near = some d ∧
      settlesOn lib tbl now spotDays far = some e ∧
      (n < f ↔ ∃ b, d < b ∧ b ≤ e ∧ tbl.cal.isBusinessDay b = true) ∧
      (legKind far = .tenor → (n < f ↔ d < e)) ∧
      (legKind near = .valueDate → legKind far = .valueDate → d < e) ∧
      (legKind near = .tenor → legKind far = .tenor →
        n ≠ f ∧ (n < f ↔ tenors.idxOf near.tenor < tenors.idxOf far.tenor)) := by
  obtain ⟨d, hd, hdn, -⟩ := exists_settlesOn hn
  obtain ⟨e, he, hef, hopen⟩ := exists_settlesOn hf
  have hiff : n < f ↔ ∃ b, d < b ∧ b ≤ e ∧ tbl.cal.isBusinessDay b = true := by
    rw [← hdn, ← hef]
    exact signedCount_lt_iff
  refine ⟨d, e, hd, he, hiff, fun hfar => ?_, fun hnear hfar => ?_, fun hnear hfar => ?_⟩
  · rw [hiff]
    exact ⟨fun ⟨b, hdb, hbe, _⟩ => hdb.trans_le hbe, fun hlt => ⟨e, hlt, le_rfl, hopen hfar⟩⟩
  · simp only [settlesOn, hnear, hfar] at hd he
    simp only [validateSwapLegs, hnear, hfar] at hvalid
    rcases hnv : parseValueDate lib near.valueDate with _ | nv
    · simp [hnv, Except.toOption] at hd
    rcases hfv : parseValueDate lib far.valueDate with _ | fv
    · simp [hfv, Except.toOption] at he
    simp only [hnv, hfv, Except.toOption, Option.map_some, some_inj] at hvalid hd he
    rw [parseValueDate_midnight hnv, parseValueDate_midnight hfv, hd, he] at hvalid
    split_ifs at hvalid with _ hlt
    exact midnight_nanos_lt.mp hlt
  · simp only [legOffset, hnear, hfar] at hn hf
    simp only [validateSwapLegs, hnear, hfar] at hvalid
    refine ⟨?_, days_lt_iff hn hf⟩
    rintro rfl
    rw [if_pos (days_injective hn hf)] at hvalid
    cases hvalid

def bareTable : PricingTable ℚ := ⟨1, ∅, ∅, ∅, [], ∅, none⟩

def on (valueDate : String) : SwapLeg := ⟨"", valueDate⟩

def after (tenor : String) : SwapLeg := ⟨tenor, ""⟩

/-- The twentieth of January 2026 as a value date, before and after the date of a tenor. -/
theorem validateSwapLegs_order_iff_mixed :
    (∃ d e, settlesOn bareLib bareTable (.midnight 20458) 2 (after "1W") = some d ∧
      settlesOn bareLib bareTable (.midnight 20458) 2 (on "2026-01-20") = some e ∧
      ((7 : ℤ) < 9 ↔ ∃ b, d < b ∧ b ≤ e ∧ bareTable.cal.isBusinessDay b = true)) ∧
    ∃ d e, settlesOn bareLib bareTable (.midnight 20458) 2 (on "2026-01-20") = some d ∧
      settlesOn bareLib bareTable (.midnight 20458) 2 (after "1M") = some e ∧
      ((9 : ℤ) < 30 ↔ d < e) := by
  constructor
  · obtain ⟨d, e, hd, he, hiff, -⟩ := validateSwapLegs_order_iff bareLib bareTable (.midnight 20458)
      2 (after "1W") (on "2026-01-20") (by decide +kernel) 7 9 (by decide +kernel)
      (by decide +kernel)
    exact ⟨d, e, hd, he, hiff⟩
  · obtain ⟨d, e, hd, he, -, hiff, -⟩ := validateSwapLegs_order_iff bareLib bareTable
      (.midnight 20458) 2 (on "2026-01-20") (after "1M") (by decide +kernel) 9 30
      (by decide +kernel) (by decide +kernel)
    exact ⟨d, e, hd, he, hiff (by decide)⟩

theorem validateSwapLegs_inverted : validateSwapLegs bareLib (after "1M") (after "1W") = none ∧
    legOffset bareLib bareTable (.midnight 0) 2 (after "1M") = some 30 ∧
    legOffset bareLib bareTable (.midnight 0) 2 (after "1W") = some 7 := by
  decide +kernel

/-! ## Priced legs -/

section

variable (lib : GoLib) (fuel : ℕ) (tbl : PricingTable ℚ) (raw : Quote ℚ) (profile : Profile)
  (leg : SwapLeg) (spotDays : ℤ) (now : Time) (customerID : String)

inductive SwapPointOf : Margin ℚ → Prop
  | tenor (h : leg.valueDate = "") : SwapPointOf (tbl.lookupSwap raw.pair leg.tenor)
  | valueDate (h : leg.valueDate ≠ "") {vd : Time} {interp : SwapInterpolation ℚ}
      (hvd : parseValueDate lib leg.valueDate = .ok vd)
      (hinterp : interpolateSwap tbl raw.pair
        (offsetOf tbl vd now (if spotDays ≤ 0 then 2 else spotDays)) = .ok interp) :
      SwapPointOf interp.margin

/-- The quote of a leg was computed with the swap point `swap`. -/
structure PricedWith (cq : CustomerQuote ℚ) (swap : Margin ℚ) : Prop where
  swapPoint : SwapPointOf lib tbl raw leg spotDays now swap
  quote : ∃ windows, tbl.activeWindows lib.env fuel now = some windows ∧
    cq = applyMargins tbl raw profile cq.tenor swap customerID windows

lemma effectiveNow_self : effectiveNow now now = now := by
  unfold effectiveNow
  split_ifs <;> rfl

variable {lib fuel tbl raw profile leg spotDays now customerID}

lemma applyLeg_priced {priced : PricedLeg}
    (h : applyLeg lib fuel tbl raw profile leg spotDays now customerID = some (.ok priced)) :
    ∃ swap, PricedWith lib fuel tbl raw profile leg spotDays now customerID priced.cq swap ∧
      priced.interp.map (·.margin) = if leg.valueDate = "" then none else some swap := by
  unfold applyLeg priceLeg at h
  by_cases hleg : leg.valueDate = ""
  · rw [if_neg (not_not.mpr hleg)] at h
    obtain ⟨cq, hcq, hpriced⟩ := map_eq_some_iff.mp h
    cases hpriced
    obtain ⟨windows, hwindows, rfl⟩ := map_eq_some_iff.mp hcq
    rw [effectiveNow_self] at hwindows
    exact ⟨_, ⟨.tenor hleg, windows, hwindows, rfl⟩, by rw [if_pos hleg]; rfl⟩
  · rw [if_pos hleg] at h
    split at h
    · cases h
    rename_i vd hvd
    obtain ⟨r, hr, hpriced⟩ := map_eq_some_iff.mp h
    simp only [applyForValueDate, effectiveNow_self] at hr
    split at hr
    · cases hr
      cases hpriced
    rename_i interp hinterp
    obtain ⟨windows, hwindows, rfl⟩ := map_eq_some_iff.mp hr
    cases hpriced
    exact ⟨_, ⟨.valueDate hleg hvd hinterp, windows, hwindows, rfl⟩, by rw [if_neg hleg]; rfl⟩

end

/-- **When the response shows the swap points that were applied**: for a value date, and for a tenor
only if they are 0. -/
theorem reported_swap_iff (lib : GoLib) (fuel : ℕ) (req : SwapLockRequest) (profile : Profile)
    (rawBid rawAsk : ℚ) (spotDays : ℤ) (now : Time) (validUntil : ℤ) (tbl : PricingTable ℚ)
    (near far : PricedLeg) (ids : SwapIDs)
    (hfar : applyLeg lib fuel tbl ⟨req.pair, rawBid, rawAsk, now, 0, 0⟩ profile req.far spotDays now
      req.customerID = some (.ok far)) :
    let out := (swapResponse req near far rawBid rawAsk now validUntil tbl ids).far
    out.bid = far.cq.bid ∧ out.ask = far.cq.ask ∧
      ∃ swap, PricedWith lib fuel tbl ⟨req.pair, rawBid, rawAsk, now, 0, 0⟩ profile req.far spotDays
          now req.customerID far.cq swap ∧
        (out.swapBid = swap.bidAmount ∧ out.swapAsk = swap.askAmount ↔
          req.far.valueDate ≠ "" ∨ (swap.bidAmount = 0 ∧ swap.askAmount = 0)) := by
  obtain ⟨swap, hpriced, hinterp⟩ := applyLeg_priced hfar
  refine ⟨rfl, rfl, swap, hpriced, ?_⟩
  show (far.interp.map _).getD 0 = _ ∧ (far.interp.map _).getD 0 = _ ↔ _
  by_cases hleg : req.far.valueDate = ""
  · rw [if_pos hleg] at hinterp
    rw [map_eq_none_iff.mp hinterp]
    simp [hleg, eq_comm]
  · rw [if_neg hleg] at hinterp
    obtain ⟨interp, hsome, rfl⟩ := map_eq_some_iff.mp hinterp
    rw [hsome]
    simp [hleg]

/-- Swap points of one and two weeks. -/
def weekTable : PricingTable ℚ :=
  { bareTable with
    swapPoint := (AList.singleton ⟨"USD/KRW", "1W"⟩ ⟨2, 3, 0, 0⟩).insert ⟨"USD/KRW", "2W"⟩
      ⟨9, 17, 0, 0⟩ }

def datedSwap : SwapLockRequest :=
  ⟨"USD/KRW", after "SPOT", on "2026-01-20", "WEB.SEOUL.VIP", "", "buy_sell"⟩

def datedLeg : Option (Except String PricedLeg) :=
  applyLeg bareLib 1 weekTable ⟨"USD/KRW", 1380, 1382, .midnight 20458, 0, 0⟩
    ⟨"WEB", "SEOUL", "VIP"⟩ (on "2026-01-20") 2 (.midnight 20458) ""

theorem reported_swap_iff_dated : ∃ far swap, datedLeg = some (.ok far) ∧
    PricedWith bareLib 1 weekTable ⟨"USD/KRW", 1380, 1382, .midnight 20458, 0, 0⟩
      ⟨"WEB", "SEOUL", "VIP"⟩ (on "2026-01-20") 2 (.midnight 20458) "" far.cq swap ∧
    (let out := (swapResponse datedSwap far far 1380 1382 (.midnight 20458) 0 weekTable
        ⟨"", "", ""⟩).far;
      (out.bid, out.ask, out.swapBid, out.swapAsk) = (1376, 1389, 4, 7) ∧
      (out.swapBid = swap.bidAmount ∧ out.swapAsk = swap.askAmount ↔
        "2026-01-20" ≠ "" ∨ (swap.bidAmount = 0 ∧ swap.askAmount = 0))) := by
  have hout : (datedLeg.bind Except.toOption).map (fun far => (far.cq.bid, far.cq.ask,
      (far.interp.map (·.margin.bidAmount)).getD 0, (far.interp.map (·.margin.askAmount)).getD 0)) =
      some (1376, 1389, 4, 7) := by decide +kernel
  rcases hfar : datedLeg with _ | _ | far
  · rw [hfar] at hout
    cases hout
  · rw [hfar] at hout
    cases hout
  · rw [hfar] at hout
    obtain ⟨-, -, swap, hpriced, hiff⟩ := reported_swap_iff bareLib 1 datedSwap
      ⟨"WEB", "SEOUL", "VIP"⟩ 1380 1382 2 (.midnight 20458) 0 weekTable far far ⟨"", "", ""⟩ hfar
    exact ⟨far, swap, rfl, hpriced, some.inj hout, hiff⟩

def monthServer : Server :=
  { quietServer with
    table := some { bareTable with swapPoint := AList.singleton ⟨"USD/KRW", "1M"⟩ ⟨2, 3, 0, 0⟩ } }

def monthSwap : Request SwapLockRequest :=
  ⟨"POST", .ok ⟨"USD/KRW", after "SPOT", after "1M", "WEB.SEOUL.VIP", "", "buy_sell"⟩⟩

theorem reported_swap_zero :
    ((exec lockObject
      (swapLock bareLib 1 ⟨false, true, false, some "A", true, true, 0, 2⟩ monthSwap)
      (List.replicate 12 ⟨⟨1000000000, 0⟩, .same _, .ok ()⟩) monthServer).bind fun
        | (_, .ok out) => some (out.far.rawBid - out.far.bid, out.far.ask - out.far.rawAsk,
            out.far.swapBid, out.far.swapAsk)
        | _ => none) = some (2, 3, 0, 0) := by
  decide +kernel

end Wtg.Price.SwapLegs
