import Wtg.Price.Best
import Wtg.Pricing.Doc
import Wtg.Pricing.Engine
import Wtg.QuoteId.Ids
import Wtg.QuoteId.Interface

/-! # Locking a quote

The three places that issue quote ids in `internal/price`: `ForwardLockHandler` and
`SwapLockHandler`, which price one leg or two from the best quote of the moment, and `attachQuoteID`
of the pricing consumer. -/

namespace Wtg.Price.Lock

open Lib Lib.Program Pricing.BusinessDays Pricing.Table Pricing.SwapCurve
open Pricing.Engine Price.Best QuoteId.Registry QuoteId.Interface

structure CrossSnap where
  bid : ℚ
  ask : ℚ
  isStale : Bool
deriving DecidableEq, Repr

inductive LockCall
  | stats
  | latestCross (pair : String)
  | load
  | now
  | next
  | nextSequence
  | put (rec : Record)
  | putSwap (rec : SwapRecord)
  | delete (id : QuoteID)

def Answer : LockCall → Type
  | .stats => String → Option (BestSymbolStat ℚ)
  | .latestCross _ => Option CrossSnap
  | .load => Option (PricingTable ℚ)
  | .now => Time
  | .next => QuoteID
  | .nextSequence => UInt64
  | .put _ => Except RegErr Unit
  | .putSwap _ => Except RegErr Unit
  | .delete _ => Except RegErr Unit

abbrev Issuer := Prog LockCall Answer

namespace Call

def stats : Issuer (String → Option (BestSymbolStat ℚ)) := Prog.perform LockCall.stats

def latestCross (pair : String) : Issuer (Option CrossSnap) :=
  Prog.perform (LockCall.latestCross pair)

def load : Issuer (Option (PricingTable ℚ)) := Prog.perform LockCall.load

def now : Issuer Time := Prog.perform LockCall.now

def next : Issuer QuoteID := Prog.perform LockCall.next

def nextSequence : Issuer UInt64 := Prog.perform LockCall.nextSequence

def put (rec : Record) : Issuer (Except RegErr Unit) := Prog.perform (LockCall.put rec)

def putSwap (rec : SwapRecord) : Issuer (Except RegErr Unit) := Prog.perform (LockCall.putSwap rec)

def delete (id : QuoteID) : Issuer (Except RegErr Unit) := Prog.perform (LockCall.delete id)

end Call

/-- A request: its method, and its body decoded or the text of the error. -/
structure Request (α : Type) where
  method : String
  body : Except String α

inductive Reply (α : Type)
  | noContent
  | error (code : ℕ) (text : String)
  | ok (a : α)
  | stuck
deriving DecidableEq

/-- What the handlers take from Go's library, besides that of the pricing engine: parsing of an
RFC 3339 time, and `%q` of `fmt`. -/
structure GoLib where
  env : Env
  parseRFC3339 : String → Option Time
  quoted : String → String

def bareLib : GoLib := ⟨⟨id, fun _ => none⟩, fun _ => none, id⟩

def trim (s : String) : String := String.ofList (Wtg.Pricing.Doc.trimSpace s.toList)

def symbolOf (pair : String) : String := String.ofList (pair.toList.filter (· ≠ '/'))

def parseProfileKey (lib : GoLib) (key : String) : Except String Profile :=
  match key.toList.splitOn '.' with
  | [channel, site, tier] =>
    .ok ⟨String.ofList channel, String.ofList site, String.ofList tier⟩
  | _ => .error ("session: profile key 형식 오류 (CHANNEL.SITE.TIER 기대): " ++ lib.quoted key)

def parseValueDate (lib : GoLib) (s : String) : Except String Time :=
  match Wtg.Pricing.Doc.parseHolidayDate s with
  | some day => .ok (Time.midnight day)
  | none =>
    match lib.parseRFC3339 s with
    | some t => .ok (startOfDay t)
    | none => .error "date 형식 (YYYY-MM-DD 또는 RFC3339)"

structure ForwardLockInterpolation where
  offsetDays : ℤ
  fromTenor : String
  toTenor : String
  weight : ℚ
  swapBid : ℚ
  swapAsk : ℚ
  exact : Bool
deriving DecidableEq, Repr

def toInterpolation (interp : SwapInterpolation ℚ) : ForwardLockInterpolation where
  offsetDays := interp.offsetDays
  fromTenor := interp.fromTenor
  toTenor := interp.toTenor
  weight := interp.weight
  swapBid := interp.margin.bidAmount
  swapAsk := interp.margin.askAmount
  exact := interp.exact

def withBody {α β : Type} (devMode : Bool) (r : Request α) (handle : α → Issuer (Reply β)) :
    Issuer (Reply β) :=
  if devMode ∧ r.method = "OPTIONS" then return .noContent
  else if r.method ≠ "POST" then return .error 405 "POST required"
  else
    match r.body with
    | .error text => return .error 400 ("JSON 파싱: " ++ text)
    | .ok req => handle req

def validityOf (validity : ℤ) : ℤ := if validity ≤ 0 then 500 * 1000000 else validity

def buildRecord (id : QuoteID) (cq : CustomerQuote ℚ) (profile : Profile) (seq : UInt64)
    (issuer : String) (issuedAt validUntil : ℤ) : Record where
  quoteID := id
  pair := cq.pair
  profile := profile
  tenor := cq.tenor
  bid := cq.bid
  ask := cq.ask
  issuedAt := issuedAt
  validUntil := validUntil
  sequence := seq.toNat
  issuer := issuer

def attachQuoteID (issuer : String) (validity : ℤ) (cq : CustomerQuote ℚ) (prof : Profile) :
    Issuer (QuoteID × ℤ) := do
  let id ← Call.next
  let validUntil := cq.ts.nanos + validity
  let seq ← Call.nextSequence
  let _ ← Call.put (buildRecord id cq prof seq issuer cq.ts.nanos validUntil)
  return (id, validUntil)

/-- A priced leg; a leg with a value date comes with its interpolation. -/
structure PricedLeg where
  cq : CustomerQuote ℚ
  interp : Option (SwapInterpolation ℚ)

def priceLeg (lib : GoLib) (fuel : ℕ) (badDate notPriced : String) (tbl : PricingTable ℚ)
    (raw : Quote ℚ) (profile : Profile) (tenor valueDate : String) (spotDays : ℤ) (now : Time)
    (customerID : String) : Option (Except String PricedLeg) :=
  if valueDate ≠ "" then
    match parseValueDate lib valueDate with
    | .error text => some (.error (badDate ++ text))
    | .ok vd =>
      (applyForValueDate lib.env fuel now tbl raw profile vd now spotDays customerID).map fun
        | .error err => .error (notPriced ++ err.1.text)
        | .ok q => .ok ⟨q.1, some q.2⟩
  else
    (applyForCustomer lib.env fuel now tbl raw profile tenor now customerID).map fun cq =>
      .ok ⟨cq, none⟩

structure ForwardLockRequest where
  pair : String
  tenor : String
  valueDate : String
  profile : String
  customerID : String
  side : String
deriving DecidableEq, Repr

structure ForwardLockResponse where
  quoteID : String
  pair : String
  tenor : String
  valueDate : String
  profile : String
  customerID : String
  side : String
  bid : ℚ
  ask : ℚ
  rawBid : ℚ
  rawAsk : ℚ
  issuedUnixNano : ℤ
  validUntilUnixNano : ℤ
  tableVersion : ℤ
  interpolation : Option ForwardLockInterpolation
deriving DecidableEq, Repr

structure ForwardLockDeps where
  devMode : Bool
  best : Bool
  gen : Option String
  reg : Bool
  validity : ℤ

def ForwardLockRequest.normalized (req : ForwardLockRequest) : ForwardLockRequest :=
  let tenor := trim req.tenor
  let valueDate := trim req.valueDate
  { req with
    pair := trim req.pair
    tenor := if tenor = "" ∧ valueDate = "" then "SPOT" else tenor
    valueDate := valueDate
    profile := trim req.profile }

def zeroUnixNano : ℤ := -6795364578871345152

def issueForward (deps : ForwardLockDeps) (profile : Profile) (cq : CustomerQuote ℚ) (now : Time) :
    Issuer (QuoteID × ℤ) :=
  match deps.gen with
  | some issuer =>
    if deps.reg then do
      let id ← Call.next
      let validUntil := now.nanos + validityOf deps.validity
      let seq ← Call.nextSequence
      let _ ← Call.put (buildRecord id cq profile seq issuer now.nanos validUntil)
      return (id, validUntil)
    else return ("", zeroUnixNano)
  | none => return ("", zeroUnixNano)

def forwardResponse (req : ForwardLockRequest) (spot : BestSymbolStat ℚ) (leg : PricedLeg)
    (now : Time) (tbl : PricingTable ℚ) (issued : QuoteID × ℤ) : ForwardLockResponse where
  quoteID := issued.1
  pair := req.pair
  tenor := leg.cq.tenor
  valueDate := req.valueDate
  profile := req.profile
  customerID := req.customerID
  side := req.side
  bid := leg.cq.bid
  ask := leg.cq.ask
  rawBid := spot.bestBid
  rawAsk := spot.bestAsk
  issuedUnixNano := now.nanos
  validUntilUnixNano := issued.2
  tableVersion := tbl.version
  interpolation := leg.interp.map toInterpolation

def lockForward (lib : GoLib) (fuel : ℕ) (deps : ForwardLockDeps) (req : ForwardLockRequest)
    (profile : Profile) (spot : BestSymbolStat ℚ) : Issuer (Reply ForwardLockResponse) := do
  let loaded ← Call.load
  match loaded with
  | none => return .error 503 "PricingTable 미로드"
  | some tbl =>
    let now ← Call.now
    let raw : Quote ℚ := ⟨req.pair, spot.bestBid, spot.bestAsk, now, 0, 0⟩
    match priceLeg lib fuel "invalid value_date: " "value_date 처리: " tbl raw profile req.tenor
        req.valueDate 2 now req.customerID with
    | none => return .stuck
    | some (.error text) => return .error 400 text
    | some (.ok leg) =>
      let issued ← issueForward deps profile leg.cq now
      return .ok (forwardResponse req spot leg now tbl issued)

def forwardLock (lib : GoLib) (fuel : ℕ) (deps : ForwardLockDeps)
    (r : Request ForwardLockRequest) : Issuer (Reply ForwardLockResponse) :=
  withBody deps.devMode r fun body =>
    let req := body.normalized
    if req.pair = "" ∨ req.profile = "" then return .error 400 "pair, profile 필수"
    else
      match parseProfileKey lib req.profile with
      | .error text => return .error 400 ("invalid profile: " ++ text)
      | .ok profile =>
        if deps.best then do
          let best ← Call.stats
          match best (symbolOf req.pair) with
          | none => return .error 404 ("no BEST snapshot for " ++ symbolOf req.pair)
          | some spot => lockForward lib fuel deps req profile spot
        else return .error 503 "BEST consumer 미활성"

structure SwapLeg where
  tenor : String
  valueDate : String
deriving DecidableEq, Repr

structure SwapLockRequest where
  pair : String
  near : SwapLeg
  far : SwapLeg
  profile : String
  customerID : String
  side : String
deriving DecidableEq, Repr

structure SwapLegResult where
  quoteID : String
  tenor : String
  valueDate : String
  bid : ℚ
  ask : ℚ
  rawBid : ℚ
  rawAsk : ℚ
  swapBid : ℚ
  swapAsk : ℚ
  interpolation : Option ForwardLockInterpolation
deriving DecidableEq, Repr

structure SwapLockResponse where
  swapID : String
  pair : String
  profile : String
  customerID : String
  side : String
  issuedUnixNano : ℤ
  validUntilUnixNano : ℤ
  tableVersion : ℤ
  near : SwapLegResult
  far : SwapLegResult
  bidDiff : ℚ
  askDiff : ℚ
deriving DecidableEq, Repr

structure SwapLockDeps where
  devMode : Bool
  best : Bool
  cross : Bool
  gen : Option String
  reg : Bool
  idx : Bool
  validity : ℤ
  spotDays : ℤ

def SwapLockRequest.normalized (req : SwapLockRequest) : SwapLockRequest :=
  { req with
    pair := trim req.pair
    profile := trim req.profile
    near := ⟨trim req.near.tenor, trim req.near.valueDate⟩
    far := ⟨trim req.far.tenor, trim req.far.valueDate⟩ }

inductive LegKind
  | missing
  | tenor
  | valueDate
deriving DecidableEq, Repr

def legKind (l : SwapLeg) : LegKind :=
  if l.valueDate ≠ "" then .valueDate else if l.tenor ≠ "" then .tenor else .missing

def errSwapSameLeg : String := "near 와 far 가 동일 결제 — 단일 leg 거래는 /forward/lock 사용"

def errSwapLegInvert : String := "near 결제일이 far 보다 늦음 — leg 순서 invert"

def errSwapLegMissing : String := "near/far 의 tenor 또는 value_date 중 하나는 필수"

/-- `validateSwapLegs`: the text of the error, if any. -/
def validateSwapLegs (lib : GoLib) (near far : SwapLeg) : Option String :=
  match legKind near, legKind far with
  | .missing, _ => some errSwapLegMissing
  | _, .missing => some errSwapLegMissing
  | .tenor, .tenor => if near.tenor = far.tenor then some errSwapSameLeg else none
  | .valueDate, .valueDate =>
    if near.valueDate = far.valueDate then some errSwapSameLeg
    else
      match parseValueDate lib near.valueDate, parseValueDate lib far.valueDate with
      | .error text, _ => some ("near.value_date: " ++ text)
      | .ok _, .error text => some ("far.value_date: " ++ text)
      | .ok nv, .ok fv => if nv.nanos < fv.nanos then none else some errSwapLegInvert
  | _, _ => none

def applyLeg (lib : GoLib) (fuel : ℕ) (tbl : PricingTable ℚ) (raw : Quote ℚ) (profile : Profile)
    (leg : SwapLeg) (spotDays : ℤ) (now : Time) (customerID : String) :
    Option (Except String PricedLeg) :=
  priceLeg lib fuel "invalid value_date: " "" tbl raw profile leg.tenor leg.valueDate
    (if spotDays ≤ 0 then 2 else spotDays) now customerID

def lookupSpotRawForSwap (deps : SwapLockDeps) (best : String → Option (BestSymbolStat ℚ))
    (pair : String) : Issuer (Option (ℚ × ℚ)) :=
  match best (symbolOf pair) with
  | some s => return some (s.bestBid, s.bestAsk)
  | none =>
    if deps.cross then do
      let snap ← Call.latestCross pair
      match snap with
      | some c => return if c.isStale then none else some (c.bid, c.ask)
      | none => return none
    else return none

def putSwapAtomic (near far : Record) (sw : SwapRecord) : Issuer (Option String) := do
  let putNear ← Call.put near
  match putNear with
  | .error err => return some ("near leg 등록 실패: " ++ err.text)
  | .ok _ =>
    let putFar ← Call.put far
    match putFar with
    | .error err =>
      let _ ← Call.delete near.quoteID
      return some ("far leg 등록 실패: " ++ err.text)
    | .ok _ =>
      let putSwap ← Call.putSwap sw
      match putSwap with
      | .error err =>
        let _ ← Call.delete near.quoteID
        let _ ← Call.delete far.quoteID
        return some ("swap_id 인덱스 등록 실패: " ++ err.text)
      | .ok _ => return none

def buildLegResult (id : QuoteID) (leg : PricedLeg) (rawBid rawAsk : ℚ) (valueDate : String)
    (isFar : Bool) : SwapLegResult where
  quoteID := id
  tenor := leg.cq.tenor
  valueDate := valueDate
  bid := leg.cq.bid
  ask := leg.cq.ask
  rawBid := rawBid
  rawAsk := rawAsk
  swapBid := if isFar then (leg.interp.map (·.margin.bidAmount)).getD 0 else 0
  swapAsk := if isFar then (leg.interp.map (·.margin.askAmount)).getD 0 else 0
  interpolation := leg.interp.map toInterpolation

structure SwapIDs where
  near : QuoteID
  far : QuoteID
  swap : String

def swapResponse (req : SwapLockRequest) (near far : PricedLeg) (rawBid rawAsk : ℚ) (now : Time)
    (validUntil : ℤ) (tbl : PricingTable ℚ) (ids : SwapIDs) : SwapLockResponse where
  swapID := ids.swap
  pair := req.pair
  profile := req.profile
  customerID := req.customerID
  side := req.side
  issuedUnixNano := now.nanos
  validUntilUnixNano := validUntil
  tableVersion := tbl.version
  near := buildLegResult ids.near near rawBid rawAsk req.near.valueDate false
  far := buildLegResult ids.far far rawBid rawAsk req.far.valueDate true
  bidDiff := far.cq.bid - near.cq.bid
  askDiff := far.cq.ask - near.cq.ask

def issueSwap (issuer : String) (req : SwapLockRequest) (profile : Profile) (near far : PricedLeg)
    (rawBid rawAsk : ℚ) (now : Time) (validUntil : ℤ) (tbl : PricingTable ℚ) :
    Issuer (Reply SwapLockResponse) := do
  let nearID ← Call.next
  let nearSeq ← Call.nextSequence
  let farID ← Call.next
  let farSeq ← Call.nextSequence
  let swapNext ← Call.next
  let swapID := "SW-" ++ swapNext
  let failed ← putSwapAtomic
    (buildRecord nearID near.cq profile nearSeq issuer now.nanos validUntil)
    (buildRecord farID far.cq profile farSeq issuer now.nanos validUntil)
    ⟨swapID, nearID, farID, now.nanos, validUntil, issuer⟩
  match failed with
  | some text => return .error 503 text
  | none =>
    return .ok (swapResponse req near far rawBid rawAsk now validUntil tbl ⟨nearID, farID, swapID⟩)

def lockSwap (lib : GoLib) (fuel : ℕ) (deps : SwapLockDeps) (req : SwapLockRequest)
    (profile : Profile) (rawBid rawAsk : ℚ) : Issuer (Reply SwapLockResponse) := do
  let loaded ← Call.load
  match loaded with
  | none => return .error 503 "PricingTable 미로드"
  | some tbl =>
    let now ← Call.now
    let raw : Quote ℚ := ⟨req.pair, rawBid, rawAsk, now, 0, 0⟩
    match applyLeg lib fuel tbl raw profile req.near deps.spotDays now req.customerID with
    | none => return .stuck
    | some (.error text) => return .error 400 ("near leg: " ++ text)
    | some (.ok near) =>
      match applyLeg lib fuel tbl raw profile req.far deps.spotDays now req.customerID with
      | none => return .stuck
      | some (.error text) => return .error 400 ("far leg: " ++ text)
      | some (.ok far) =>
        match deps.gen, deps.reg, deps.idx with
        | some issuer, true, true =>
          issueSwap issuer req profile near far rawBid rawAsk now
            (now.nanos + validityOf deps.validity) tbl
        | _, _, _ => return .error 503 "quoteid Generator/Registry/SwapIndex 미주입"

def swapLock (lib : GoLib) (fuel : ℕ) (deps : SwapLockDeps) (r : Request SwapLockRequest) :
    Issuer (Reply SwapLockResponse) :=
  withBody deps.devMode r fun body =>
    let req := body.normalized
    if req.pair = "" ∨ req.profile = "" then return .error 400 "pair, profile 필수"
    else
      match validateSwapLegs lib req.near req.far with
      | some text => return .error 400 text
      | none =>
        match parseProfileKey lib req.profile with
        | .error text => return .error 400 ("invalid profile: " ++ text)
        | .ok profile =>
          if deps.best then do
            let best ← Call.stats
            let raw ← lookupSpotRawForSwap deps best req.pair
            match raw with
            | none => return .error 404 ("no BEST/cross snapshot for " ++ req.pair)
            | some (rawBid, rawAsk) => lockSwap lib fuel deps req profile rawBid rawAsk
          else return .error 503 "BEST consumer 미활성"

structure CrossEmit where
  bid : ℚ
  ask : ℚ
  ts : ℤ

/-- What the issuers share: the best quotes, the cross rates, the pricing table, the generator, and
the records passed to `Put` so far. -/
structure Server where
  best : BestConsumer ℚ
  crossStaleness : ℤ
  lastEmits : GoMap String CrossEmit
  table : Option (PricingTable ℚ)
  gen : Wtg.QuoteId.Ids.Generator
  puts : List Record

/-- What the outside decides of a call: the time, the order of the range over the sources, and
whether the registry fails. -/
structure Outside where
  time : Time
  order : RangeOrder (SourceQuote ℚ)
  registry : Except RegErr Unit

def unixMilli (t : Time) : ℤ := t.nanos / 1000000

def Server.latestCross (s : Server) (now : Time) (pair : String) : Option CrossSnap :=
  (s.lastEmits.lookup pair).map fun c => ⟨c.bid, c.ask, s.crossStaleness < now.nanos - c.ts⟩

def lockObject : Object LockCall Answer Server Outside := fun e s c =>
  match c with
  | .stats => (s, s.best.stats e.time.nanos e.order)
  | .latestCross pair => (s, s.latestCross e.time pair)
  | .load => (s, s.table)
  | .now => (s, e.time)
  | .next => ({ s with gen := (s.gen.next (unixMilli e.time)).1 }, (s.gen.next (unixMilli e.time)).2)
  | .nextSequence => (s, s.gen.nextSequence)
  | .put rec => ({ s with puts := s.puts ++ [rec] }, e.registry)
  | .putSwap _ => (s, e.registry)
  | .delete _ => (s, e.registry)

end Wtg.Price.Lock
