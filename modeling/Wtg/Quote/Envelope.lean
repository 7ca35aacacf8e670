import Mathlib.Order.Lattice

/-! # Quote envelopes

`JSONEnvelope` of `pkg/quote/codec.go`, the payload in which a feed publishes a quote, and
`DecodeJSONEnvelope`, the check that every raw quote passes before a consumer sees it. -/

namespace Wtg.Quote.Envelope

structure JSONEnvelope (R : Type*) where
  sym : String
  bid : R
  ask : R
  ts : ℤ
  src : String
  seq : UInt64
  last : R
  lastQty : R
  bidSize : R
  askSize : R
deriving DecidableEq, Repr

/-- Go's `bytes.TrimSpace`, `json.Unmarshal` and `json.Marshal` of an envelope; errors are texts. -/
structure Wire (R : Type*) where
  trimSpace : List UInt8 → List UInt8
  unmarshal : List UInt8 → Except String (JSONEnvelope R)
  marshal : JSONEnvelope R → Except String (List UInt8)

inductive EnvelopeErr
  | empty
  | invalidBidAsk
  | missingSym
  | parse (text : String)
deriving DecidableEq, Repr

variable {R : Type*} [LinearOrder R] [Zero R]

structure ValidEnvelope (R : Type*) [LinearOrder R] [Zero R] extends JSONEnvelope R where
  named : sym ≠ ""
  pos : 0 < bid
  le : bid ≤ ask

def checkEnvelope (env : JSONEnvelope R) : Except EnvelopeErr (ValidEnvelope R) :=
  if hsym : env.sym = "" then .error .missingSym
  else if hprice : env.bid ≤ 0 ∨ env.ask ≤ 0 ∨ env.ask < env.bid then .error .invalidBidAsk
  else .ok { env with
    named := hsym
    pos := not_le.mp fun h => hprice (.inl h)
    le := not_lt.mp fun h => hprice (.inr (.inr h)) }

def trimNul (body : List UInt8) : List UInt8 := (body.reverse.dropWhile (· = 0)).reverse

def decodeJSONEnvelope (wire : Wire R) (body : List UInt8) :
    Except EnvelopeErr (ValidEnvelope R) :=
  if body = [] then .error .empty
  else
    let body := wire.trimSpace (trimNul body)
    if body = [] then .error .empty
    else
      match wire.unmarshal body with
      | .error text => .error (.parse text)
      | .ok env => checkEnvelope env

end Wtg.Quote.Envelope
