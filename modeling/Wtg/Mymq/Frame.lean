import Wtg.Mymq.Codec

/-! # MyMQ frames

`EncodeFrame` and `DecodeFrame` of `pkg/mymq/frame.go`. A frame is a header of 100 bytes, the
navigation entries, and the sections ERRM, PKEY, NKEY, COOKIE and BODY one after the other. -/

namespace Wtg.Mymq.Frame

open Lib.Buffer Mymq.Codec

inductive FrameErr
  | frameTooShort
  | frameTooLong
  | invalidLength (header buffer : ℕ)
  | invalidNavi
  | invalidOffset
  | keyTooLong
deriving DecidableEq, Repr

/-- The first 100 bytes of a frame. -/
structure Header where
  length : UInt32
  func : UInt8
  subc : UInt8
  nvia : UInt8
  dirf : UInt8
  msgf : UInt8
  ctlf : UInt8
  keyc : UInt8
  xchg : Fixed LXchg
  rkey : Fixed LRkey
  ckey : UInt32
  clid : UInt32
  wkey : Fixed 8
  chan : Fixed 4
  errn : UInt32
  coffZipf : UInt8 := 0
  coffOff : UInt32 := 0
  soffZipf : UInt8 := 0
  soffOff : UInt32 := 0
  errmLen : UInt16 := 0
  errmOff : UInt16 := 0
  pkeyLen : UInt16 := 0
  pkeyOff : UInt16 := 0
  nkeyLen : UInt16 := 0
  nkeyOff : UInt16 := 0
  bodyZipf : UInt8 := 0
  bodyOff : UInt32 := 0
  traceID : Fixed TraceIDSize
deriving DecidableEq

/-- The fields with their offsets; byte 10 is reserved. -/
def Header.fields (h : Header) : List (ℕ × Bytes) :=
  [(0, putU32 h.length), (4, [h.func]), (5, [h.subc]), (6, [h.nvia]), (7, [h.dirf]), (8, [h.msgf]),
    (9, [h.ctlf]), (10, [0]), (11, [h.keyc]), (12, h.xchg.toList), (20, h.rkey.toList),
    (36, putU32 h.ckey), (40, putU32 h.clid), (44, h.wkey.toList), (52, h.chan.toList),
    (56, putU32 h.errn), (60, encodeWhere h.coffZipf h.coffOff),
    (64, encodeWhere h.soffZipf h.soffOff), (68, encodeSzoff h.errmLen h.errmOff),
    (72, encodeSzoff h.pkeyLen h.pkeyOff), (76, encodeSzoff h.nkeyLen h.nkeyOff),
    (80, encodeWhere h.bodyZipf h.bodyOff), (84, h.traceID.toList)]

def encodeHeader (dst : Bytes) (h : Header) : Except FrameErr Bytes :=
  if dst.length < HdrSize then .error .frameTooShort else .ok (writes dst h.fields)

def decodeHeader (src : Bytes) : Except FrameErr Header :=
  if src.length < HdrSize then .error .frameTooShort
  else .ok {
    length := getU32 (slice src 0 4)
    func := src.getD 4 0
    subc := src.getD 5 0
    nvia := src.getD 6 0
    dirf := src.getD 7 0
    msgf := src.getD 8 0
    ctlf := src.getD 9 0
    keyc := src.getD 11 0
    xchg := padCopy LXchg (slice src 12 LXchg)
    rkey := padCopy LRkey (slice src 20 LRkey)
    ckey := getU32 (slice src 36 4)
    clid := getU32 (slice src 40 4)
    wkey := padCopy 8 (slice src 44 8)
    chan := padCopy 4 (slice src 52 4)
    errn := getU32 (slice src 56 4)
    coffZipf := (decodeWhere (slice src 60 4)).1
    coffOff := (decodeWhere (slice src 60 4)).2
    soffZipf := (decodeWhere (slice src 64 4)).1
    soffOff := (decodeWhere (slice src 64 4)).2
    errmLen := (decodeSzoff (slice src 68 4)).1
    errmOff := (decodeSzoff (slice src 68 4)).2
    pkeyLen := (decodeSzoff (slice src 72 4)).1
    pkeyOff := (decodeSzoff (slice src 72 4)).2
    nkeyLen := (decodeSzoff (slice src 76 4)).1
    nkeyOff := (decodeSzoff (slice src 76 4)).2
    bodyZipf := (decodeWhere (slice src 80 4)).1
    bodyOff := (decodeWhere (slice src 80 4)).2
    traceID := padCopy TraceIDSize (slice src 84 TraceIDSize) }

/-- What a caller hands to `EncodeFrame`. -/
structure FrameInput where
  func : UInt8
  subc : UInt8
  dirf : UInt8
  keyc : UInt8
  msgf : UInt8
  ctlf : UInt8
  xchg : Bytes
  rkey : Bytes
  ckey : UInt32
  clid : UInt32
  wkey : Fixed 8
  chan : Fixed 4
  traceID : Fixed TraceIDSize
  navis : List Navi
  errn : UInt32
  errMsg : Bytes
  pkey : Bytes
  nkey : Bytes
  cookie : Option Cookie
  body : Bytes
deriving DecidableEq

def FrameInput.size (f : FrameInput) : ℕ :=
  HdrSize + NaviSize * f.navis.length + f.errMsg.length + f.pkey.length + f.nkey.length +
    (if f.cookie.isSome then CookieWire else 0) + f.body.length

/-- The frame so far: `cur` is where the next section goes. -/
structure Draft where
  buf : Bytes
  hdr : Header
  cur : ℕ

def draft (f : FrameInput) : Draft where
  buf := List.replicate f.size 0
  hdr := { length := 0, func := f.func, subc := f.subc, nvia := .ofNat f.navis.length
           dirf := f.dirf, msgf := f.msgf, ctlf := f.ctlf, keyc := f.keyc
           xchg := padCopy LXchg f.xchg, rkey := padCopy LRkey f.rkey, ckey := f.ckey
           clid := f.clid, wkey := f.wkey, chan := f.chan, errn := f.errn, traceID := f.traceID }
  cur := HdrSize + NaviSize * f.navis.length

namespace Draft

variable (d : Draft)

def append (bs : Bytes) : Draft := { d with buf := write d.buf d.cur bs, cur := d.cur + bs.length }

def putErrm (errMsg : Bytes) : Draft :=
  if 0 < errMsg.length then
    { d.append errMsg with
      hdr := { d.hdr with msgf := d.hdr.msgf ||| MsgfErr, errmLen := .ofNat errMsg.length
                          errmOff := .ofNat d.cur } }
  else d

def putPkey (pkey : Bytes) : Draft :=
  if 0 < pkey.length then
    { d.append pkey with
      hdr := { d.hdr with pkeyLen := .ofNat pkey.length, pkeyOff := .ofNat d.cur } }
  else d

def putNkey (nkey : Bytes) : Draft :=
  if 0 < nkey.length then
    { d.append nkey with
      hdr := { d.hdr with nkeyLen := .ofNat nkey.length, nkeyOff := .ofNat d.cur } }
  else d

def putCookie : Option Cookie → Draft
  | none => d
  | some c =>
    { d.append (encodeCookie (slice d.buf d.cur CookieWire) c) with
      hdr := { d.hdr with coffZipf := 0, coffOff := .ofNat d.cur } }

def putBody (body : Bytes) : Draft :=
  if 0 < body.length then
    { d.append body with hdr := { d.hdr with bodyZipf := 0, bodyOff := .ofNat d.cur } }
  else d

end Draft

def encodeNavis : Bytes → ℕ → List Navi → Bytes
  | buf, _, [] => buf
  | buf, off, n :: ns =>
    encodeNavis (write buf off (encodeNavi (slice buf off NaviSize) n)) (off + NaviSize) ns

def sections (f : FrameInput) : Draft :=
  (((((draft f).putErrm f.errMsg).putPkey f.pkey).putNkey f.nkey).putCookie f.cookie).putBody f.body

def encodeFrame (f : FrameInput) : Except FrameErr Bytes :=
  if MaxVia < f.navis.length then .error .invalidNavi
  else if LSkey < f.pkey.length ∨ LSkey < f.nkey.length then .error .keyTooLong
  else if MaxMsgSize < f.size then .error .frameTooLong
  else
    let d := sections f
    match encodeHeader (slice d.buf 0 HdrSize) { d.hdr with length := .ofNat d.cur } with
    | .error e => .error e
    | .ok hdr => .ok ((encodeNavis (write d.buf 0 hdr) HdrSize f.navis).take d.cur)

structure DecodedFrame where
  header : Header
  navis : List Navi
  errMsg : Bytes
  pkey : Bytes
  nkey : Bytes
  cookie : Option Cookie
  body : Bytes
  bodyZipf : UInt8
deriving DecidableEq

def decodeNavis (frame : Bytes) : ℕ → ℕ → List Navi
  | _, 0 => []
  | off, n + 1 => decodeNavi (slice frame off NaviSize) :: decodeNavis frame (off + NaviSize) n

def readNavis (frame : Bytes) (nvia : UInt8) : Except FrameErr (List Navi) :=
  if 0 < nvia then
    if MaxVia < nvia.toNat then .error .invalidNavi
    else if frame.length < HdrSize + NaviSize * nvia.toNat then .error .invalidOffset
    else .ok (decodeNavis frame HdrSize nvia.toNat)
  else .ok []

/-- A section with length or offset 0 is empty. -/
def readSzoff (frame : Bytes) (len off : UInt16) : Except FrameErr Bytes :=
  if 0 < len ∧ 0 < off then
    if frame.length < off.toNat + len.toNat then .error .invalidOffset
    else .ok (slice frame off.toNat len.toNat)
  else .ok []

/-- A compressed cookie is left out. -/
def readCookie (frame : Bytes) (zipf : UInt8) (off : UInt32) : Except FrameErr (Option Cookie) :=
  if 0 < off then
    if zipf ≠ 0 then .ok none
    else if frame.length < off.toNat + CookieWire then .error .invalidOffset
    else .ok (some (decodeCookie (slice frame off.toNat CookieWire)))
  else .ok none

/-- The body ends with the frame. -/
def readBody (frame : Bytes) (off : UInt32) : Except FrameErr Bytes :=
  if 0 < off then
    if frame.length < off.toNat then .error .invalidOffset else .ok (frame.drop off.toNat)
  else .ok []

def decodeFrame (frame : Bytes) : Except FrameErr DecodedFrame := do
  if frame.length < HdrSize then throw .frameTooShort
  let hdr ← decodeHeader (slice frame 0 HdrSize)
  if hdr.length.toNat ≠ frame.length then throw (.invalidLength hdr.length.toNat frame.length)
  let navis ← readNavis frame hdr.nvia
  let errMsg ← readSzoff frame hdr.errmLen hdr.errmOff
  let pkey ← readSzoff frame hdr.pkeyLen hdr.pkeyOff
  let nkey ← readSzoff frame hdr.nkeyLen hdr.nkeyOff
  let cookie ← readCookie frame hdr.coffZipf hdr.coffOff
  let body ← readBody frame hdr.bodyOff
  return ⟨hdr, navis, errMsg, pkey, nkey, cookie, body, hdr.bodyZipf⟩

end Wtg.Mymq.Frame
