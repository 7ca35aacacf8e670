import Wtg.Pricing.SwapCurve
import Wtg.QuoteId.Registry

/-! # Quotes for customers

`ApplyForCustomer` and `ApplyForValueDate` of `pkg/pricing/engine.go`. Both find the active windows,
match a customer rule and add up margins; they differ in where the swap point comes from. -/

namespace Wtg.Pricing.Engine

open Lib Pricing.BusinessDays Pricing.Table Pricing.SwapCurve
open QuoteId.Registry (Profile)

structure Quote (R : Type*) where
  pair : String
  bid : R
  ask : R
  ts : Time
  bidSize : R
  askSize : R
deriving DecidableEq, Repr

structure CustomerQuote (R : Type*) where
  pair : String
  profile : Profile
  tenor : String
  bid : R
  ask : R
  ts : Time
  rawBid : R
  rawAsk : R
  bidSize : R
  askSize : R
  tableVersion : ℤ
deriving DecidableEq, Repr

variable {R : Type*}

/-- `matchCustomerRule`: the first rule for the customer, the pair and an active window. -/
def matchCustomerRule (t : PricingTable R) (customerID pair : String)
    (activeWindows : List String) : Option (CustomerRule R) :=
  if customerID = "" then none
  else
    t.customerMargin.find? fun r =>
      r.customerID = customerID ∧ (r.pair = "" ∨ r.pair = pair) ∧
        (r.window = "" ∨ r.window ∈ activeWindows)

/-! ## Quotes -/

variable [Zero R] [Add R] [Sub R] [Mul R] [Div R] [IntCast R] [OfNat R 2]

def bidOf (raw : Quote R) (total : Margin R) : R :=
  raw.bid + total.skewAmount - total.bidAmount - total.spreadAmount / 2

def askOf (raw : Quote R) (total : Margin R) : R :=
  raw.ask + total.skewAmount + total.askAmount + total.spreadAmount / 2

def totalMargin (swap hq site : Margin R) : Option (CustomerRule R) → Margin R
  | some rule => if rule.mode = "override" then swap + rule.delta else swap + hq + site + rule.delta
  | none => swap + hq + site

def customerQuote (t : PricingTable R) (raw : Quote R) (profile : Profile) (tenor : String)
    (total : Margin R) : CustomerQuote R where
  pair := raw.pair
  profile := profile
  tenor := tenor
  bid := bidOf raw total
  ask := askOf raw total
  ts := raw.ts
  rawBid := raw.bid
  rawAsk := raw.ask
  bidSize := raw.bidSize
  askSize := raw.askSize
  tableVersion := t.version

def applyMargins (t : PricingTable R) (raw : Quote R) (profile : Profile) (tenor : String)
    (swap : Margin R) (customerID : String) (activeWindows : List String) : CustomerQuote R :=
  customerQuote t raw profile tenor
    (totalMargin swap (t.lookupHQ raw.pair profile.tier activeWindows)
      (t.lookupSite raw.pair profile.channel profile.site activeWindows)
      (matchCustomerRule t customerID raw.pair activeWindows))

def effectiveNow (clock now : Time) : Time := if now.isZero then clock else now

variable (env : Env) (fuel : ℕ) (clock : Time) (t : PricingTable R) (raw : Quote R)
  (profile : Profile)

def applyForCustomer (tenor : String) (now : Time) (customerID : String) :
    Option (CustomerQuote R) :=
  (t.activeWindows env fuel (effectiveNow clock now)).map
    (applyMargins t raw profile tenor (t.lookupSwap raw.pair tenor) customerID)

def applyAt (tenor : String) (now : Time) : Option (CustomerQuote R) :=
  applyForCustomer env fuel clock t raw profile tenor now ""

def offsetOf (valueDate now : Time) (spotDays : ℤ) : ℤ :=
  businessDaysBetweenCal (spotDateCal now spotDays t.cal) valueDate t.cal

def applyForValueDate (valueDate now : Time) (spotDays : ℤ) (customerID : String) :
    Option (Except (SwapErr × SwapInterpolation R) (CustomerQuote R × SwapInterpolation R)) :=
  let now := effectiveNow clock now
  let offsetDays := offsetOf t valueDate now spotDays
  match interpolateSwap t raw.pair offsetDays with
  | .error (err, _) => some (.error (err, .empty offsetDays))
  | .ok interp =>
    (t.activeWindows env fuel now).map fun activeWindows =>
      .ok (applyMargins t raw profile (if interp.exact then interp.fromTenor else "") interp.margin
        customerID activeWindows, interp)

end Wtg.Pricing.Engine
