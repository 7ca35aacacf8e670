import Wtg.Policy.Operations
import Wtg.Routing.Rules
import Wtg.Svcio.Wire

/-! # From envelopes to frames

What `Transaction` (`internal/api/handlers/transaction.go`, a JSON body) and `processBulkItem`
(`bulk.go`) do with an envelope before they call the broker: the envelope is validated, the policy
is asked, the alias is resolved and the frame is built (`transform/envelope.go`), and the cookie is
attached. -/

namespace Wtg.Api.Frames

open Lib Mymq.Codec Policy.Operations Routing.Rules Svcio

inductive Keyc
  | send
  | prev
  | next
  deriving DecidableEq, Repr

structure Envelope where
  aliasName : String := ""
  exchange : String := ""
  routingKey : String := ""
  keyc : String := ""
  pkey : String := ""
  nkey : String := ""
  data : Wire.Bytes := []
  header : Wire.Object := []

structure Frame where
  keyc : Keyc
  xchg : String
  rkey : String
  traceIDHex : String
  pkey : String
  nkey : String
  cookie : Option Cookie
  body : Wire.Bytes
  deriving DecidableEq

namespace Envelope

variable (e : Envelope)

def validateRequest : Option String :=
  if e.aliasName = "" ∧ e.routingKey = "" then some "alias 또는 routing_key 필요"
  else if 64 < e.aliasName.utf8ByteSize then some "alias too long"
  else if e.aliasName = "" ∧ LRkey < e.routingKey.utf8ByteSize then some "routing_key too long"
  else if e.aliasName = "" ∧ LXchg < e.exchange.utf8ByteSize then some "exchange too long"
  else if LSkey < e.pkey.utf8ByteSize ∨ LSkey < e.nkey.utf8ByteSize then some "pkey/nkey too long"
  else none

def keycValue : Keyc :=
  match e.keyc.toList with
  | 'P' :: _ | 'p' :: _ => .prev
  | 'N' :: _ | 'n' :: _ => .next
  | _ => .send

end Envelope

def utf8 (s : String) : Wire.Bytes := s.toUTF8.data.toList

/-- `DataBytes`: the content of a JSON text (`null` decodes to the empty text), else the data as
they are. -/
def dataBytes (E : Wire.Encodings) (data : Wire.Bytes) : Wire.Bytes :=
  if data = [] then []
  else
    match E.parse data with
    | some (.str s) => utf8 s
    | some .null => []
    | _ => data

inductive BuildErr
  | invalid (message : String)
  | unknownAlias (aliasName : String)
  deriving DecidableEq

def Envelope.target (e : Envelope) (routes : Option Registry) : Except BuildErr (String × String) :=
  if e.aliasName ≠ "" then
    match resolve routes e.aliasName with
    | .ok rule => .ok (rule.exchange, rule.routingKey)
    | .error _ => .error (.unknownAlias e.aliasName)
  else .ok (e.exchange, e.routingKey)

def Envelope.buildFrame (e : Envelope) (E : Wire.Encodings) (traceIDHex : String)
    (routes : Option Registry) : Except BuildErr Frame :=
  match e.validateRequest with
  | some message => .error (.invalid message)
  | none =>
    match e.target routes with
    | .error err => .error err
    | .ok (exchange, rkey) => .ok
      { keyc := e.keycValue, xchg := exchange, rkey := rkey, traceIDHex := traceIDHex
        pkey := e.pkey, nkey := e.nkey, cookie := none, body := dataBytes E e.data }

structure Principal where
  usid : String
  channel : String
  cookie : Option Cookie
  usid_ne : usid ≠ ""

structure Deps where
  policy : Option Engine
  routes : Option Registry
  svcio : Option (GoMap String Wire.SvcSpec)

structure Failure where
  status : ℕ
  code : String
  message : String
  deriving DecidableEq, Repr

/-- The packages the handlers rest on: texts, encodings, and `json.Unmarshal` into a structure with
the one field `symbol`. -/
structure World where
  text : Text
  enc : Wire.Encodings
  probe : Wire.Bytes → Option String

/-! ## From an envelope to a frame -/

section

variable (W : World) (deps : Deps) (now : ℤ) (p : Principal) (traceIDHex : String) (env : Envelope)

def extractSymbol (data : Wire.Bytes) : String :=
  if data = [] then "" else (W.probe data).getD ""

def policyRequest : Request := ⟨p.channel, env.routingKey, extractSymbol W env.data⟩

def policyFailure : Option Failure :=
  match deps.policy with
  | none => none
  | some e =>
    match e.check W.text now (policyRequest W p env) with
    | .allow => none
    | .block reason message =>
      let status := if reason = .killSwitch ∨ reason = .maintenance then 503 else 403
      some ⟨status, reason.code, message⟩

def frameFor : Except Failure Frame :=
  match env.validateRequest with
  | some message => .error ⟨400, "validation", message⟩
  | none =>
    match policyFailure W deps now p env with
    | some failure => .error failure
    | none =>
      match env.buildFrame W.enc traceIDHex deps.routes with
      | .error (.unknownAlias aliasName) =>
        .error ⟨404, "unknown_alias", "alias 미등록 또는 비활성: " ++ W.text.quote aliasName⟩
      | .error (.invalid message) => .error ⟨400, "build_frame", message⟩
      | .ok frame => .ok { frame with cookie := p.cookie }

def processBulkItem : Except Failure Frame := frameFor W deps now p traceIDHex env

end

/-! ## Bodies that are laid out -/

section

variable (W : World)

def ctypForChannel (channel : String) : String :=
  match W.text.fold channel with
  | "EMP" => "E"
  | "HTS" => "1"
  | "MTS" => "2"
  | "WTS" => "3"
  | "SPI" => "S"
  | _ => "A"

def wireHeaderDefaults (rkey usid channel : String) : Wire.Object :=
  [("trxc", .str rkey), ("usid", .str usid), ("ctyp", .str (ctypForChannel W channel)),
    ("cont", .str "H"), ("rtyp", .str "M"), ("ltyp", .str "KR")]

def wireHeader (rkey enforceUsid channel : String) (clientHeader : Wire.Object) : Wire.Object :=
  let usid := if enforceUsid ≠ "" then enforceUsid
    else match clientHeader.lookup "usid" with
      | some (.str s) => s
      | _ => ""
  (clientHeader.filter fun kv =>
      !(kv.1 = "usid" ∧ enforceUsid ≠ "") && !(kv.1 = "trxc") && !(kv.1 = "ctyp")) ++
    wireHeaderDefaults W rkey usid channel

def mapIrec (input : List Wire.Field) (obj : Wire.Object) : Wire.Object :=
  match obj.lookup "_irec" with
  | none => obj
  | some irec =>
    let obj' := match input.find? fun f => f.rep ≠ 0 ∧ f.children ≠ [] with
      | some f => if (obj.lookup f.name).isSome then obj else (f.name, irec) :: obj
      | none => obj
    obj'.filter fun kv => kv.1 ≠ "_irec"

def objectOf : Option Wire.Json → Option Wire.Object
  | some (.obj members) => some members
  | some .null => some []
  | _ => none

/-- `wireBuildBody`, which never returns an error; `none` if there is nothing to lay out. -/
def wireBuildBody (reg : Option (GoMap String Wire.SvcSpec)) (rkey enforceUsid channel : String)
    (clientHeader : Wire.Object) (data : Wire.Bytes) : Option (Wire.Bytes × Wire.SvcSpec) :=
  match reg with
  | none => none
  | some specs =>
    if rkey = "" ∨ data = [] then none
    else
      match objectOf (W.enc.parse data) with
      | none => none
      | some obj =>
        match specs.lookup rkey with
        | none => none
        | some spec =>
          some (Wire.serializeWithHeader W.enc spec.headerFields
            (wireHeader W rkey enforceUsid channel clientHeader) spec.input
            (mapIrec spec.input obj), spec)

variable (deps : Deps) (now : ℤ) (p : Principal) (traceIDHex : String) (env : Envelope)

def layout (rkey : String) : Option (Wire.Bytes × Wire.SvcSpec) :=
  wireBuildBody W deps.svcio rkey p.usid p.channel env.header env.data

def withLayout (frame : Frame) : Frame :=
  match layout W deps p env frame.rkey with
  | some (b :: bs, _) => { frame with body := b :: bs }
  | _ => frame

/-- The frame that `Transaction` hands to `MQ.Call`, for a JSON body. -/
def transaction : Except Failure Frame :=
  (frameFor W deps now p traceIDHex env).map (withLayout W deps p env)

end

def asciiWorld : World where
  text := .ascii
  enc :=
    { parse := fun data => if data = utf8 "\x7b\x7d" then some (.obj []) else none
      number := id
      sprint := fun _ => ""
      cp949 := fun c => some [c.toNat.toUInt8]
      runes := ⟨id, id⟩ }
  probe := fun _ => none

def webUser : Principal := ⟨"u1", "WEB", none, by decide⟩

end Wtg.Api.Frames
