import Wtg.Lib.RingBuffer
import Wtg.Lib.Transition
import Wtg.Price.AlgoKeys

/-! # The algo feed

`internal/price/algo.go`: one producer numbers each quote in its stream, keeps it in the ring of the
stream and hands it to the subscribers; a call of `SubscribeAlgo` registers, replays from the rings
what came after `from_seq`, and then passes on what was handed to it, leaving out what it has
replayed. -/

namespace Wtg.Price.Algo

open Lib Quote.Envelope Price.Best Price.AlgoKeys

structure AlgoQuote (R : Type*) where
  sym : String
  bid : R
  ask : R
  seq : Int64
  tsSourceUnixNs : ℤ
  tsWtgUnixNs : ℤ
  isBackfill : Bool
  last : R
  lastQty : R
  mid : R
  source : String
  tenor : String
  bidSize : R
  askSize : R
deriving DecidableEq

variable {R : Type*}

def AlgoQuote.stream (q : AlgoQuote R) : Stream := ⟨q.source, q.sym, q.tenor⟩

def AlgoQuote.key (q : AlgoQuote R) : String := streamKeyFor q.source q.sym q.tenor

abbrev AlgoRing (R : Type*) := RingBuffer (AlgoQuote R)

/-- `snapshot`: the quotes after `fromSeq`, the oldest number there is, and whether quotes after
`fromSeq` were overwritten. -/
def snapshot (r : AlgoRing R) (fromSeq : Int64) : List (AlgoQuote R) × Int64 × Bool :=
  match r.contents with
  | [] => ([], 0, false)
  | oldest :: rest =>
    if fromSeq + 1 < oldest.seq then ([], oldest.seq, true)
    else ((oldest :: rest).filter fun q => fromSeq < q.seq, oldest.seq, false)

structure AlgoStreamServer (R : Type*) where
  seqGens : GoMap String UInt64
  rings : GoMap String (AlgoRing R)
  ringSize : ℕ
  clientBufSize : ℕ
  ringSize_pos : 0 < ringSize
  clientBufSize_pos : 0 < clientBufSize

def newAlgoStreamServer (ringSize clientBufferSize : ℤ) : AlgoStreamServer R where
  seqGens := ∅
  rings := ∅
  ringSize := if ringSize ≤ 0 then 100000 else ringSize.toNat
  clientBufSize := if clientBufferSize ≤ 0 then 1024 else clientBufferSize.toNat
  ringSize_pos := by split <;> omega
  clientBufSize_pos := by split <;> omega

namespace AlgoStreamServer

def nextSeq (s : AlgoStreamServer R) (key : String) : AlgoStreamServer R × Int64 :=
  let n := (s.seqGens.lookup key).getD 0 + 1
  ({ s with seqGens := s.seqGens.insert key n }, n.toInt64)

def ringFor (s : AlgoStreamServer R) (key : String) : AlgoStreamServer R × AlgoRing R :=
  match s.rings.lookup key with
  | some ring => (s, ring)
  | none => ({ s with rings := s.rings.insert key (.empty s.ringSize) }, .empty s.ringSize)

def push (s : AlgoStreamServer R) (key : String) (q : AlgoQuote R) : AlgoStreamServer R :=
  { s with rings := s.rings.insert key ((s.ringFor key).2.push q) }

end AlgoStreamServer

structure AlgoSubscribeRequest where
  symbols : List String
  fromSeq : Int64
  sources : List String
  tenors : List String

def AlgoSubscribeRequest.sub (req : AlgoSubscribeRequest) : AlgoSub where
  symbolSet := .ofList req.symbols
  sources := .ofList req.sources
  tenorSet := .ofList req.tenors

def algoQuote [Add R] [Div R] [OfNat R 2] (t : Tick) (env : JSONEnvelope R) (tenor : String)
    (bid ask : R) (seq : Int64) : AlgoQuote R where
  sym := t.symbol
  bid := bid
  ask := ask
  seq := seq
  tsSourceUnixNs := env.ts
  tsWtgUnixNs := t.received
  isBackfill := false
  last := env.last
  lastQty := env.lastQty
  mid := (bid + ask) / 2
  source := t.source
  tenor := tenor
  bidSize := env.bidSize
  askSize := env.askSize

inductive Stage (R : Type*)
  | idle
  | numbered (q : AlgoQuote R)
  | located (q : AlgoQuote R)
  | pushed (q : AlgoQuote R)
deriving DecidableEq

inductive Phase
  | start
  | registered
  | replaying (keys : List String)
  | live
  | gap
deriving DecidableEq

def Phase.subscribed : Phase → Bool
  | .start | .gap => false
  | _ => true

/-- The server with its producer and a subscriber: its channel, whether a quote was dropped because
the channel was full, `replayEndSeq`, and what was sent to the client. -/
structure State (R : Type*) where
  server : AlgoStreamServer R
  stage : Stage R
  emitted : List (AlgoQuote R)
  phase : Phase
  ch : List (AlgoQuote R)
  dropped : Bool
  replayEndSeq : GoMap String Int64
  received : List (AlgoQuote R)

def start (server : AlgoStreamServer R) : State R := ⟨server, .idle, [], .start, [], false, ∅, []⟩

inductive Action (R : Type*)
  | number (t : Tick) (env : JSONEnvelope R) (tenor : String) (bid ask : R)
  | locate
  | push
  | fanout
  | register
  | enumerate (o : KeyOrders)
  | replay
  | receive

def fanout (sub : AlgoSub) (s : State R) (q : AlgoQuote R) : State R :=
  if s.phase.subscribed ∧ sub.accepts q.stream then
    if s.ch.length < s.server.clientBufSize then { s with ch := s.ch ++ [q] }
    else { s with dropped := true }
  else s

def AlgoQuote.backfill (q : AlgoQuote R) : AlgoQuote R := { q with isBackfill := true }

def replayOne (key : String) (s : State R) (orig : AlgoQuote R) : State R :=
  let q := orig.backfill
  { s with
    received := s.received ++ [q]
    replayEndSeq :=
      if (s.replayEndSeq.lookup key).getD 0 < q.seq then s.replayEndSeq.insert key q.seq
      else s.replayEndSeq }

def replayKey (fromSeq : Int64) (s : State R) (key : String) (keys : List String) : State R :=
  let found := s.server.ringFor key
  match snapshot found.2 fromSeq with
  | (_, _, true) => { s with server := found.1, phase := .gap }
  | (ticks, _, false) =>
    { ticks.foldl (replayOne key) { s with server := found.1 } with phase := .replaying keys }

def skipped (replayEndSeq : GoMap String Int64) (q : AlgoQuote R) : Bool :=
  (replayEndSeq.lookup q.key).any fun last => q.seq ≤ last

def step [Add R] [Div R] [OfNat R 2] (req : AlgoSubscribeRequest) (s : State R) :
    Action R → Option (State R)
  | .number t env tenor bid ask =>
    match s.stage with
    | .idle =>
      let (server, seq) := s.server.nextSeq (streamKeyFor t.source t.symbol tenor)
      some { s with server := server, stage := .numbered (algoQuote t env tenor bid ask seq) }
    | _ => none
  | .locate =>
    match s.stage with
    | .numbered q => some { s with server := (s.server.ringFor q.key).1, stage := .located q }
    | _ => none
  | .push =>
    match s.stage with
    | .located q =>
      some { s with
        server := s.server.push q.key q, stage := .pushed q, emitted := s.emitted ++ [q] }
    | _ => none
  | .fanout =>
    match s.stage with
    | .pushed q => some { fanout req.sub s q with stage := .idle }
    | _ => none
  | .register =>
    match s.phase with
    | .start => some { s with phase := .registered }
    | _ => none
  | .enumerate o =>
    match s.phase with
    | .registered =>
      if 0 < req.fromSeq then
        some { s with phase := .replaying (replayKeys req.sub o s.server.rings.keys) }
      else some { s with phase := .live }
    | _ => none
  | .replay =>
    match s.phase with
    | .replaying [] => some { s with phase := .live }
    | .replaying (key :: keys) => some (replayKey req.fromSeq s key keys)
    | _ => none
  | .receive =>
    match s.phase, s.ch with
    | .live, q :: ch =>
      some { s with
        ch := ch
        received := if skipped s.replayEndSeq q then s.received else s.received ++ [q] }
    | _, _ => none

end Wtg.Price.Algo
