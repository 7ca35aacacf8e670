import Mathlib.Data.Rat.Defs
import Mathlib.Data.List.Pairwise

/-! # Quote records and the answers of a registry

The data of `pkg/quoteid`: the record of a published quote, the `swap_id` index entry, and the
answers of the `Registry` interface. -/

namespace Wtg.QuoteId.Registry

abbrev QuoteID := String

def second : ℤ := 1000000000

structure Profile where
  channel : String
  site : String
  tier : String
deriving DecidableEq, Repr

structure Record where
  quoteID : QuoteID
  pair : String
  profile : Profile
  tenor : String
  bid : ℚ
  ask : ℚ
  issuedAt : ℤ
  validUntil : ℤ
  sequence : ℕ
  issuer : String
deriving DecidableEq, Repr

def Record.zero : Record := ⟨"", "", ⟨"", "", ""⟩, "", 0, 0, 0, 0, 0, ""⟩

def Record.validAt (r : Record) (t : ℤ) : Bool := decide (r.issuedAt ≤ t) && decide (t < r.validUntil)

lemma Record.validAt_iff {r : Record} {t : ℤ} :
    r.validAt t = true ↔ r.issuedAt ≤ t ∧ t < r.validUntil := by
  simp [Record.validAt]

def sampleQuote : Record :=
  { quoteID := "q1", pair := "USD/KRW", profile := ⟨"web", "seoul", "vip"⟩, tenor := "SPOT"
    bid := 1380, ask := 1381, issuedAt := 0, validUntil := 10 * second, sequence := 1
    issuer := "e1" }

def Record.wellFormed (r : Record) : Bool :=
  decide (r.issuedAt < r.validUntil) && decide (r.quoteID ≠ "")

structure SwapRecord where
  swapID : String
  nearID : QuoteID
  farID : QuoteID
  issuedAt : ℤ
  validUntil : ℤ
  issuer : String
deriving DecidableEq, Repr

inductive Err
  | notFound
  | invalidRecord
  | swapNotFound
deriving DecidableEq, Repr

def Err.text : Err → String
  | .notFound => "quoteid: not found"
  | .invalidRecord => "quoteid: invalid record"
  | .swapNotFound => "quoteid: swap not found"

inductive ConsumeStatus
  | unknown
  | ok
  | alreadyDone
  | notFound
  | expired
deriving DecidableEq, Repr

structure ConsumeResult where
  status : ConsumeStatus
  record : Record := Record.zero
  consumedBy : String := ""
deriving DecidableEq, Repr

structure ConsumeRequest where
  quoteID : QuoteID
  consumerID : String
deriving DecidableEq, Repr

structure LookupResult where
  found : Bool := false
  record : Record := Record.zero
  consumed : Bool := false
  consumedBy : String := ""
deriving DecidableEq, Repr

structure ConsumeEvent where
  time : ℤ
  request : ConsumeRequest
  result : ConsumeResult
deriving DecidableEq, Repr

namespace ConsumeEvent

def IsOk (e : ConsumeEvent) (id : QuoteID) : Prop :=
  e.request.quoteID = id ∧ e.result.status = .ok

instance (e : ConsumeEvent) (id : QuoteID) : Decidable (e.IsOk id) :=
  inferInstanceAs (Decidable (_ ∧ _))

end ConsumeEvent

/-- **Use only once**: no two events of the history are a `ConsumeOK` for `id`. -/
def UsedOnce (id : QuoteID) (h : List ConsumeEvent) : Prop :=
  h.Pairwise fun e e' => ¬ (e.IsOk id ∧ e'.IsOk id)

instance (id : QuoteID) (h : List ConsumeEvent) : Decidable (UsedOnce id h) :=
  inferInstanceAs (Decidable (h.Pairwise fun e e' => ¬ (e.IsOk id ∧ e'.IsOk id)))

end Wtg.QuoteId.Registry
