import Wtg.Lib.GoMap
import Wtg.Quote.Envelope

/-! # The best quote of several feeds

`BestConsumer` of `internal/price/best.go`: the latest quote of every feed is cached by symbol and
source, and every raw tick has the best bid and ask of its symbol recomputed and sent on as a tick
of the source `BEST`, unless the dedup filter drops it. -/

namespace Wtg.Price.Best

open Lib Quote.Envelope

structure Tick where
  marketID : UInt64
  symbol : String
  seqNum : UInt32
  mask : UInt32
  type : UInt8
  flag : UInt8
  body : List UInt8
  received : ℤ
  source : String
deriving DecidableEq, Repr

def sourceBest : String := "BEST"

def sourceCross : String := "CROSS"

structure DedupOptions (R : Type*) where
  enabled : Bool
  tickSizeMultiplier : R
  tickSizeOverride : GoMap String R

structure LastEmit (R : Type*) where
  bid : R
  ask : R
  hasValue : Bool

structure SourceQuote (R : Type*) [LinearOrder R] [Zero R] where
  bid : R
  ask : R
  bidSize : R
  askSize : R
  ts : ℤ
  pos : 0 < bid
  le : bid ≤ ask

structure TradeVal (R : Type*) where
  px : R
  qty : R

structure BestConsumer (R : Type*) [LinearOrder R] [Zero R] where
  maxStaleness : ℤ
  cache : GoMap String (GoMap String (SourceQuote R))
  dedup : DedupOptions R
  lastEmitted : GoMap String (LastEmit R)
  lastTrade : GoMap String (TradeVal R)

variable {R : Type*} [LinearOrder R] [Zero R]

/-- `NewBestConsumer`; a staleness of 0 is the default of 30 seconds. -/
def newBestConsumer (maxStaleness : ℤ) (dedup : DedupOptions R) : BestConsumer R where
  maxStaleness := if maxStaleness = 0 then 30 * 1000000000 else maxStaleness
  cache := ∅
  dedup :=
    { dedup with
      tickSizeMultiplier :=
        if dedup.tickSizeMultiplier < 0 then 0 else dedup.tickSizeMultiplier }
  lastEmitted := ∅
  lastTrade := ∅

/-- A feed counts: it is not silent for longer than `maxStaleness`, or that is negative. -/
def SourceQuote.active (maxStaleness now : ℤ) (sq : SourceQuote R) : Bool :=
  !decide (0 ≤ maxStaleness ∧ maxStaleness < now - sq.ts)

structure Scan (R : Type*) [LinearOrder R] [Zero R] where
  first : Bool
  bid : R
  ask : R
  bidSize : R
  askSize : R
  srcCount : ℤ
  newest : Option (SourceQuote R)

def Scan.start : Scan R := ⟨true, 0, 0, 0, 0, 0, none⟩

def Scan.prices (s : Scan R) (sq : SourceQuote R) : Scan R :=
  if s.first then
    { s with
      bid := sq.bid, ask := sq.ask, bidSize := sq.bidSize, askSize := sq.askSize, first := false }
  else
    let s := if s.bid < sq.bid then { s with bid := sq.bid, bidSize := sq.bidSize } else s
    if sq.ask < s.ask then { s with ask := sq.ask, askSize := sq.askSize } else s

def newer : Option (SourceQuote R) → SourceQuote R → SourceQuote R
  | none, sq => sq
  | some n, sq => if n.ts < sq.ts then sq else n

def Scan.take (s : Scan R) (sq : SourceQuote R) : Scan R :=
  { s.prices sq with srcCount := s.srcCount + 1, newest := some (newer s.newest sq) }

def scan (maxStaleness now : ℤ) (sqs : List (SourceQuote R)) : Scan R :=
  sqs.foldl (fun s sq => if sq.active maxStaleness now then s.take sq else s) .start

/-- The results of `recomputeLocked`; a negative count marks the fallback. -/
structure BestQuote (R : Type*) where
  bid : R
  ask : R
  bidSize : R
  askSize : R
  srcCount : ℤ
deriving DecidableEq, Repr

def recompute (maxStaleness now : ℤ) (sqs : List (SourceQuote R)) : BestQuote R :=
  let s := scan maxStaleness now sqs
  match s.newest with
  | some n =>
    if 1 < s.srcCount ∧ s.ask < s.bid then ⟨n.bid, n.ask, n.bidSize, n.askSize, -s.srcCount⟩
    else ⟨s.bid, s.ask, s.bidSize, s.askSize, s.srcCount⟩
  | none => ⟨s.bid, s.ask, s.bidSize, s.askSize, s.srcCount⟩

/-! ## The consumer -/

section

variable [Sub R] [Mul R] [OfScientific R]

def absDiff (a b : R) : R := if b < a then a - b else b - a

def upperByte (c : UInt8) : UInt8 := if 97 ≤ c ∧ c ≤ 122 then c - 32 else c

def symbolQuoteTickSize (symbol : String) : R :=
  let bytes := symbol.toUTF8.toList
  if bytes.length < 6 then 0
  else
    let quote := (bytes.drop (bytes.length - 3)).map upperByte
    if quote ∈ ["JPY", "KRW", "CNY", "TWD", "IDR", "VND"].map (·.toUTF8.toList) then 0.01
    else 0.0001

def BestConsumer.tickSizeFor (b : BestConsumer R) (symbol : String) : R :=
  match b.dedup.tickSizeOverride.lookup symbol with
  | some v => if 0 < v then v else symbolQuoteTickSize symbol
  | none => symbolQuoteTickSize symbol

def BestConsumer.shouldDedup (b : BestConsumer R) (symbol : String) (bid ask : R) : Bool :=
  if !b.dedup.enabled then false
  else
    match b.lastEmitted.lookup symbol with
    | none => false
    | some prev =>
      if !prev.hasValue then false
      else if prev.bid = bid ∧ prev.ask = ask then true
      else if 0 < b.dedup.tickSizeMultiplier then
        let ts := b.tickSizeFor symbol
        let threshold := ts * b.dedup.tickSizeMultiplier
        decide (0 < ts ∧ absDiff prev.bid bid < threshold ∧ absDiff prev.ask ask < threshold)
      else false

structure Clock where
  cached : ℤ
  scanned : ℤ
  stamped : ℤ
  sent : ℤ

structure Input (R : Type*) [LinearOrder R] [Zero R] where
  tick : Tick
  clock : Clock
  order : RangeOrder (SourceQuote R)

def accept (wire : Wire R) (t : Tick) : Option (ValidEnvelope R) :=
  if t.symbol = "" ∨ t.source = "" ∨ t.source = sourceBest then none
  else (decodeJSONEnvelope wire t.body).toOption

def toSourceQuote (env : ValidEnvelope R) (now : ℤ) : SourceQuote R :=
  ⟨env.bid, env.ask, env.bidSize, env.askSize, now, env.pos, env.le⟩

def BestConsumer.bySource (b : BestConsumer R) (symbol : String) : GoMap String (SourceQuote R) :=
  (b.cache.lookup symbol).getD ∅

structure Emission (R : Type*) where
  tick : Tick
  env : JSONEnvelope R

def emission (wire : Wire R) (t : Tick) (clock : Clock) (best : BestQuote R) (trade : TradeVal R) :
    Option (Emission R) :=
  let env : JSONEnvelope R :=
    { sym := t.symbol, bid := best.bid, ask := best.ask, ts := clock.stamped, src := sourceBest
      seq := t.seqNum.toUInt64, last := trade.px, lastQty := trade.qty
      bidSize := best.bidSize, askSize := best.askSize }
  match wire.marshal env with
  | .error _ => none
  | .ok body => some ⟨{ t with body := body, received := clock.sent, source := sourceBest }, env⟩

/-- The quotes of the symbol's sources once the tick is cached. -/
def BestConsumer.cached (b : BestConsumer R) (i : Input R) (env : ValidEnvelope R) :
    GoMap String (SourceQuote R) :=
  (b.bySource i.tick.symbol).insert i.tick.source (toSourceQuote env i.clock.cached)

def BestConsumer.recomputed (b : BestConsumer R) (i : Input R) (env : ValidEnvelope R) :
    BestQuote R :=
  recompute b.maxStaleness i.clock.scanned
    (i.order.list ((b.cached i env).entries.map Sigma.snd))

def BestConsumer.update (wire : Wire R) (b : BestConsumer R) (i : Input R)
    (env : ValidEnvelope R) : BestConsumer R × Option (Emission R) :=
  let symbol := i.tick.symbol
  let lastTrade :=
    if 0 < env.last then b.lastTrade.insert symbol ⟨env.last, env.lastQty⟩ else b.lastTrade
  let trade := (lastTrade.lookup symbol).getD ⟨0, 0⟩
  let best := b.recomputed i env
  let skip := b.shouldDedup symbol best.bid best.ask
  ({ b with
      cache := b.cache.insert symbol (b.cached i env)
      lastTrade := lastTrade
      lastEmitted :=
        if skip then b.lastEmitted
        else b.lastEmitted.insert symbol ⟨best.bid, best.ask, true⟩ },
    if skip ∨ best.srcCount = 0 then none else emission wire i.tick i.clock best trade)

def BestConsumer.onTick (wire : Wire R) (b : BestConsumer R) (i : Input R) :
    BestConsumer R × Option (Emission R) :=
  match accept wire i.tick with
  | none => (b, none)
  | some env => b.update wire i env

end

structure BestSymbolStat (R : Type*) where
  activeSources : ℤ
  bestBid : R
  bestAsk : R
  crossedFallback : Bool
deriving DecidableEq, Repr

/-- The entry of a symbol in `Stats().Symbols`: every symbol of the cache has one. -/
def BestConsumer.stats (b : BestConsumer R) (now : ℤ) (order : RangeOrder (SourceQuote R))
    (symbol : String) : Option (BestSymbolStat R) :=
  (b.cache.lookup symbol).map fun bySource =>
    let best := recompute b.maxStaleness now (order.list (bySource.entries.map Sigma.snd))
    ⟨if best.srcCount < 0 then -best.srcCount else best.srcCount, best.bid, best.ask,
      best.srcCount < 0⟩

end Wtg.Price.Best
