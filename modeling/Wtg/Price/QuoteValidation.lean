import Wtg.QuoteId.Interface

/-! # The quote validation service

`QuoteValidationServer` of `internal/price/quote_validation.go`: the RPCs a matching engine calls to
validate and consume quotes. -/

namespace Wtg.Price.QuoteValidation

open Lib Lib.Program QuoteId.Registry QuoteId.Interface

inductive ValidationStatus
  | STATUS_UNSPECIFIED
  | OK
  | NOT_FOUND
  | EXPIRED
  | ALREADY_CONSUMED
deriving DecidableEq, Repr

structure QuoteRecord where
  quoteId : String
  pair : String
  channel : String
  site : String
  tier : String
  tenor : String
  bid : ℚ
  ask : ℚ
  issuedUnixNano : ℤ
  validUntilUnixNano : ℤ
  sequence : ℕ
  issuer : String
deriving DecidableEq, Repr

def recordToProto (r : Record) : QuoteRecord where
  quoteId := r.quoteID
  pair := r.pair
  channel := r.profile.channel
  site := r.profile.site
  tier := r.profile.tier
  tenor := r.tenor
  bid := r.bid
  ask := r.ask
  issuedUnixNano := r.issuedAt
  validUntilUnixNano := r.validUntil
  sequence := r.sequence
  issuer := r.issuer

inductive Code
  | invalidArgument
  | permissionDenied
  | unimplemented
  | internal
deriving DecidableEq, Repr

structure Status where
  code : Code
  message : String
deriving DecidableEq, Repr

def internalError (label : String) (err : RegErr) : Status := ⟨.internal, label ++ ": " ++ err.text⟩

structure ValidateResponse where
  status : ValidationStatus := .STATUS_UNSPECIFIED
  record : Option QuoteRecord := none
  ordRejReason : ℤ := 0
  rejectText : String := ""
deriving DecidableEq, Repr

structure MarkConsumedResponse where
  status : ValidationStatus := .STATUS_UNSPECIFIED
  record : Option QuoteRecord := none
  consumedBy : String := ""
  ordRejReason : ℤ := 0
  rejectText : String := ""
deriving DecidableEq, Repr

def ordRejReasonNotFound : ℤ := 5

def ordRejReasonExpired : ℤ := 13

def ordRejReasonDuplicate : ℤ := 6

def MaxBatchValidateSize : ℕ := 1000

def MaxBatchConsumeSize : ℕ := 1000

structure EngineMeta where
  permissions : List String := []
  expiresAt : String := ""
deriving DecidableEq, Repr

def permValidate : String := "validate"

def permMarkConsumed : String := "mark_consumed"

def EngineMeta.hasPermission (m : EngineMeta) (op : String) : Bool :=
  m.permissions.isEmpty || m.permissions.contains op

/-- What a handler reads of `QuoteValidationServer`: the engine allowlist (none if RBAC is off),
whether a swap index is set, and the RFC 3339 parser of the standard library. -/
structure QuoteValidationServer where
  engineAllowlist : Option (GoMap String EngineMeta)
  swapIdx : Bool
  parseRFC3339 : String → Option ℤ

namespace QuoteValidationServer

variable (s : QuoteValidationServer)

def expiredAt (m : EngineMeta) (t : ℤ) : Bool :=
  if m.expiresAt = "" then false
  else
    match s.parseRFC3339 m.expiresAt with
    | none => false
    | some exp => decide (exp ≤ t)

def checkEngine (engineID op : String) : Handler (Option String) :=
  match s.engineAllowlist with
  | none => return none
  | some mp =>
    match mp.lookup engineID with
    | none => return some "engine_id not in allowlist"
    | some meta_ => do
      let now ← Reg.now
      if s.expiredAt meta_ now then return some "engine_id expired"
      if !meta_.hasPermission op then return some ("engine_id lacks " ++ op ++ " permission")
      return none

def permissionDenied (reason : String) : Status :=
  ⟨.permissionDenied, if reason = "" then "engine_id rejected" else reason⟩

def lookupToValidateResponse (lr : LookupResult) : Handler ValidateResponse := do
  if !lr.found then
    return { status := .NOT_FOUND, ordRejReason := ordRejReasonNotFound
             rejectText := "quote_id not found" }
  let now ← Reg.now
  if !lr.record.validAt now then
    return { status := .EXPIRED, record := some (recordToProto lr.record)
             ordRejReason := ordRejReasonExpired, rejectText := "quote_id expired" }
  if lr.consumed then
    return { status := .ALREADY_CONSUMED, record := some (recordToProto lr.record)
             ordRejReason := ordRejReasonDuplicate, rejectText := "quote_id already consumed" }
  return { status := .OK, record := some (recordToProto lr.record) }

def consumeToProto (unknownText : String) (r : ConsumeResult) : MarkConsumedResponse :=
  match r.status with
  | .ok => { status := .OK, record := some (recordToProto r.record) }
  | .alreadyDone =>
    { status := .ALREADY_CONSUMED, record := some (recordToProto r.record)
      consumedBy := r.consumedBy, ordRejReason := ordRejReasonDuplicate
      rejectText := "quote_id already consumed" }
  | .notFound =>
    { status := .NOT_FOUND, ordRejReason := ordRejReasonNotFound
      rejectText := "quote_id not found" }
  | .expired =>
    { status := .EXPIRED, record := some (recordToProto r.record)
      ordRejReason := ordRejReasonExpired, rejectText := "quote_id expired" }
  | .unknown => { status := .STATUS_UNSPECIFIED, rejectText := unknownText }

def consumeResultToProto : ConsumeResult → MarkConsumedResponse := consumeToProto "internal error"

def validate (engineID quoteID : String) : Handler (Except Status ValidateResponse) := do
  if let some reason ← s.checkEngine engineID permValidate then
    return .error (permissionDenied reason)
  if quoteID = "" then
    return .ok { status := .NOT_FOUND, ordRejReason := ordRejReasonNotFound
                 rejectText := "quote_id required" }
  match ← Reg.lookup quoteID with
  | .error err => return .error (internalError "registry" err)
  | .ok lr => return .ok (← lookupToValidateResponse lr)

def markConsumed (engineID quoteID consumerID : String) :
    Handler (Except Status MarkConsumedResponse) := do
  if let some reason ← s.checkEngine engineID permMarkConsumed then
    return .error (permissionDenied reason)
  if quoteID = "" then
    return .ok { status := .NOT_FOUND, ordRejReason := ordRejReasonNotFound
                 rejectText := "quote_id required" }
  match ← Reg.markConsumed ⟨quoteID, consumerID⟩ with
  | .error err => return .error (internalError "registry" err)
  | .ok res => return .ok (consumeToProto "unknown ConsumeStatus" res)

def validateAll : List LookupResult → Handler (List ValidateResponse)
  | [] => return []
  | lr :: lrs => do
    let resp ← lookupToValidateResponse lr
    let rest ← validateAll lrs
    return resp :: rest

def batchTooLarge (n max : ℕ) : Status :=
  ⟨.invalidArgument, "batch size " ++ toString n ++ " exceeds max " ++ toString max⟩

def batchValidate (engineID : String) (ids : List QuoteID) :
    Handler (Except Status (List ValidateResponse)) := do
  if let some reason ← s.checkEngine engineID permValidate then
    return .error (permissionDenied reason)
  if ids.length = 0 then return .ok []
  if MaxBatchValidateSize < ids.length then
    return .error (batchTooLarge ids.length MaxBatchValidateSize)
  match ← Reg.lookupMany ids with
  | .error err => return .error (internalError "registry" err)
  | .ok lookups => return .ok (← validateAll lookups)

def batchMarkConsumed (engineID : String) (items : List ConsumeRequest) :
    Handler (Except Status (List MarkConsumedResponse)) := do
  if let some reason ← s.checkEngine engineID permMarkConsumed then
    return .error (permissionDenied reason)
  if items.length = 0 then return .ok []
  if MaxBatchConsumeSize < items.length then
    return .error (batchTooLarge items.length MaxBatchConsumeSize)
  match ← Reg.markConsumedMany items with
  | .error err => return .error (internalError "registry" err)
  | .ok results => return .ok (results.map consumeResultToProto)

end QuoteValidationServer

end Wtg.Price.QuoteValidation
