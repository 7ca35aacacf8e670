import Wtg.Api.Frames
import Wtg.Idempotency.Stores

/-! # Answers to a transaction

`Transaction` of `internal/api/handlers/transaction.go` from the request to the answer. -/

namespace Wtg.Api.Http

open Svcio Idempotency.Stores Api.Frames

structure HttpRequest where
  contentType : String := "application/json"
  aliasHeader : String := ""
  exchangeHeader : String := ""
  routingKeyHeader : String := ""
  body : Wire.Bytes := []

def HttpRequest.rawMode (req : HttpRequest) : Bool :=
  "application/octet-stream".toList.isPrefixOf req.contentType.toList

structure Reply where
  errn : ℕ := 0
  errMsg : String := ""
  body : Wire.Bytes := []

structure Codec where
  /-- `json.Unmarshal` into an envelope. -/
  decode : Wire.Bytes → Option Envelope
  /-- `writeError`: the document with a code and a message. -/
  encodeError : String → String → Wire.Bytes
  /-- `FromReply`, with the reply parsed by the layout if there is one. -/
  encodeReply : Reply → Option Wire.SvcSpec → Wire.Bytes
  /-- `Error()` of a broker error with a number and a message. -/
  errorText : ℕ → String → String
  sha256 : Wire.Bytes → Hash

variable (C : Codec)

def envelopeOf (req : HttpRequest) : Option Envelope :=
  if req.rawMode then
    some { aliasName := req.aliasHeader, exchange := req.exchangeHeader
           routingKey := req.routingKeyHeader }
  else C.decode req.body

def accepted (req : HttpRequest) : Option Envelope :=
  (envelopeOf C req).filter fun env => env.validateRequest.isNone

inductive CallErr
  | mq (errn : ℕ) (text : String)
  | reconnecting
  | clientClosed
  | other (text : String)

def Reply.asError (reply : Reply) : Option CallErr :=
  if reply.errn = 0 ∧ reply.errMsg = "" then none
  else some (.mq reply.errn (C.errorText reply.errn reply.errMsg))

def mapBrokerError : CallErr → Failure
  | .mq errn text =>
    if errn = 1020 then ⟨401, "auth", text⟩
    else if errn = 1021 ∨ errn = 1029 then ⟨504, "timeout", text⟩
    else if errn = 1027 then ⟨400, "no_service", text⟩
    else if errn = 1013 then ⟨413, "too_big", text⟩
    else if errn = 1010 then ⟨400, "bad_argument", text⟩
    else ⟨422, "broker_error", text⟩
  | .reconnecting => ⟨503, "reconnecting", "broker 재연결 중"⟩
  | .clientClosed => ⟨503, "broker_unavailable", "broker connection 종료됨"⟩
  | .other text => ⟨500, "internal", text⟩

def CallErr.errn : CallErr → ℕ
  | .mq errn _ => errn
  | _ => 0

structure Response where
  status : ℕ
  contentType : String
  errnHeader : Option ℕ
  body : Wire.Bytes
  deriving DecidableEq

def jsonType : String := "application/json; charset=utf-8"

def textType : String := "text/plain; charset=utf-8"

def octetType : String := "application/octet-stream"

def writeJSON (status : ℕ) (body : Wire.Bytes) : Response := ⟨status, jsonType, none, body⟩

def writeRawError (status errn : ℕ) (message : String) : Response :=
  ⟨status, textType, some errn, utf8 message⟩

def fail (raw : Bool) (failure : Failure) (errn : ℕ) : Response :=
  if raw then writeRawError failure.status errn failure.message
  else writeJSON failure.status (C.encodeError failure.code failure.message)

def answerCall (raw : Bool) (spec : Option Wire.SvcSpec) : Except CallErr Reply → Response
  | .error err => fail C raw (mapBrokerError err) err.errn
  | .ok reply =>
    match reply.asError C with
    | none =>
      if raw then ⟨200, octetType, some reply.errn, reply.body⟩
      else writeJSON 200 (C.encodeReply reply spec)
    | some err =>
      if raw then
        if reply.body = [] then
          writeRawError (mapBrokerError err).status reply.errn (mapBrokerError err).message
        else ⟨200, octetType, some reply.errn, reply.body⟩
      else writeJSON (mapBrokerError err).status (C.encodeReply reply none)

/-! ## Requests and answers -/

section

variable (W : World) (deps : Deps) (now : ℤ) (p : Principal) (traceIDHex : String)

def requestFrame (req : HttpRequest) (env : Envelope) : Except Failure Frame :=
  if req.rawMode then
    (frameFor W deps now p traceIDHex env).map fun frame => { frame with body := req.body }
  else transaction W deps now p traceIDHex env

def answer (req : HttpRequest) (env : Envelope) (call : Frame → Except CallErr Reply) : Response :=
  match requestFrame W deps now p traceIDHex req env with
  | .error failure => fail C req.rawMode failure 0
  | .ok frame =>
    let spec := if req.rawMode then none else (layout W deps p env frame.rkey).map Prod.snd
    answerCall C req.rawMode spec (call frame)

end

/-- A codec whose documents are tagged by their first byte: `1` is an order, all else is malformed.
-/
def toyCodec : Codec where
  decode := fun body => if body.head? = some 1 then some { routingKey := "NEW" } else none
  encodeError := fun _ _ => [0]
  encodeReply := fun reply _ => reply.body
  errorText := fun _ text => text
  sha256 := fun _ => zeroHash

variable {C}

lemma fail_json (failure : Failure) (errn : ℕ) :
    (fail C false failure errn).contentType = jsonType ∧
      (fail C false failure errn).errnHeader = none := ⟨rfl, rfl⟩

variable {call : Frame → Except CallErr Reply} {traceIDHex : String}

lemma answer_json {W : World} {deps : Deps} {now : ℤ} {p : Principal}
    {req : HttpRequest} {env : Envelope} (h : req.rawMode = false) :
    (answer C W deps now p traceIDHex req env call).contentType = jsonType ∧
      (answer C W deps now p traceIDHex req env call).errnHeader = none := by
  have hcall : ∀ spec result, (answerCall C false spec result).contentType = jsonType ∧
      (answerCall C false spec result).errnHeader = none := by
    intro spec result
    rcases result with err | reply
    · exact fail_json _ _
    · simp only [answerCall]
      rcases reply.asError C with _ | err <;> exact ⟨rfl, rfl⟩
  unfold answer
  rw [h]
  rcases requestFrame W deps now p traceIDHex req env with failure | frame
  · exact fail_json _ _
  · exact hcall _ _

lemma answer_raw {W : World} {deps : Deps} {now : ℤ} {p : Principal}
    {req : HttpRequest} {env : Envelope} (h : req.rawMode = true) :
    (answer C W deps now p traceIDHex req env call).contentType ≠ jsonType := by
  have htext : textType ≠ jsonType := by decide
  have hoctet : octetType ≠ jsonType := by decide
  have hcall : ∀ spec result, (answerCall C true spec result).contentType ≠ jsonType := by
    intro spec result
    rcases result with err | reply
    · exact htext
    · simp only [answerCall, if_true]
      rcases reply.asError C with _ | err
      · exact hoctet
      · dsimp only
        split_ifs
        · exact htext
        · exact hoctet
  unfold answer
  rw [h]
  rcases requestFrame W deps now p traceIDHex req env with failure | frame
  · exact htext
  · exact hcall _ _

end Wtg.Api.Http
