import Wtg.Lib.Buffer

/-! # Fields of the MyMQ wire format

The constants of `pkg/mymq/types.go` and the field codecs of `pkg/mymq/codec.go`: big-endian numbers
of two, three and four bytes, `WHERE` (compression and offset) and `SZOFF` (length and offset), the
navigation entry and the cookie. -/

namespace Wtg.Mymq.Codec

open Lib.Buffer

abbrev LRkey : ℕ := 16

abbrev LXchg : ℕ := 8

abbrev LSkey : ℕ := 80

abbrev CookieSize : ℕ := 256

abbrev MaxMsgSize : ℕ := 1024 * 2048 + 256

abbrev MaxVia : ℕ := 16

abbrev HdrSize : ℕ := 100

abbrev NaviSize : ℕ := 32

abbrev CookieWire : ℕ := 16 + 12 + 24 + 20 + 20 + 4 + 256

abbrev TraceIDSize : ℕ := 16

/-- The flag of a frame with an error text. -/
def MsgfErr : UInt8 := 0x01

def putU32 (v : UInt32) : Bytes := bigEndian 4 v.toNat

def getU32 (b : Bytes) : UInt32 := .ofNat (ofBigEndian b)

def putU16 (v : UInt16) : Bytes := bigEndian 2 v.toNat

def getU16 (b : Bytes) : UInt16 := .ofNat (ofBigEndian b)

/-- Three bytes: the highest of the four is lost. -/
def putU24 (v : UInt32) : Bytes := bigEndian 3 v.toNat

def getU24 (b : Bytes) : UInt32 := .ofNat (ofBigEndian b)

variable (v : UInt32)

@[simp] lemma length_putU32 : (putU32 v).length = 4 := length_bigEndian ..

@[simp] lemma length_putU16 (v : UInt16) : (putU16 v).length = 2 := length_bigEndian ..

@[simp] lemma length_putU24 : (putU24 v).length = 3 := length_bigEndian ..

@[simp] lemma getU32_putU32 : getU32 (putU32 v) = v := by
  unfold getU32 putU32
  have hv : v.toNat % 256 ^ 4 = v.toNat := Nat.mod_eq_of_lt v.toNat_lt
  rw [ofBigEndian_bigEndian, hv, UInt32.ofNat_toNat]

@[simp] lemma getU16_putU16 (v : UInt16) : getU16 (putU16 v) = v := by
  unfold getU16 putU16
  have hv : v.toNat % 256 ^ 2 = v.toNat := Nat.mod_eq_of_lt v.toNat_lt
  rw [ofBigEndian_bigEndian, hv, UInt16.ofNat_toNat]

lemma getU24_putU24 {v : UInt32} (h : v.toNat < 2 ^ 24) : getU24 (putU24 v) = v := by
  unfold getU24 putU24
  have hv : v.toNat % 256 ^ 3 = v.toNat := Nat.mod_eq_of_lt h
  rw [ofBigEndian_bigEndian, hv, UInt32.ofNat_toNat]

/-- `WHERE`: a compression flag and an offset. -/
def encodeWhere (zipf : UInt8) (off : UInt32) : Bytes := zipf :: putU24 off

def decodeWhere (b : Bytes) : UInt8 × UInt32 := (b.headD 0, getU24 (slice b 1 3))

/-- `SZOFF`: a length and an offset. -/
def encodeSzoff (length off : UInt16) : Bytes := putU16 length ++ putU16 off

def decodeSzoff (b : Bytes) : UInt16 × UInt16 := (getU16 (slice b 0 2), getU16 (slice b 2 2))

@[simp] lemma length_encodeWhere (zipf : UInt8) (off : UInt32) :
    (encodeWhere zipf off).length = 4 := by simp [encodeWhere]

variable (length off : UInt16)

@[simp] lemma length_encodeSzoff :
    (encodeSzoff length off).length = 4 := by simp [encodeSzoff]

lemma decodeWhere_encodeWhere {zipf : UInt8} {off : UInt32} (h : off.toNat < 2 ^ 24) :
    decodeWhere (encodeWhere zipf off) = (zipf, off) := by
  have hs : slice (encodeWhere zipf off) 1 3 = putU24 off := by
    have := slice_append (a := [zipf]) (b := putU24 off) (c := []) rfl (length_putU24 off)
    simpa [encodeWhere] using this
  unfold decodeWhere
  rw [hs, getU24_putU24 h]
  rfl

@[simp] lemma decodeSzoff_encodeSzoff :
    decodeSzoff (encodeSzoff length off) = (length, off) := by
  have h1 : slice (encodeSzoff length off) 0 2 = putU16 length :=
    slice_append (a := []) rfl (length_putU16 length)
  have h2 : slice (encodeSzoff length off) 2 2 = putU16 off := by
    have := slice_append (a := putU16 length) (b := putU16 off) (c := []) (length_putU16 length)
      (length_putU16 off)
    simpa [encodeSzoff] using this
  unfold decodeSzoff
  rw [h1, h2, getU16_putU16, getU16_putU16]

/-- One hop of a frame, 32 bytes. -/
structure Navi where
  xchg : Fixed LXchg
  rkey : Fixed LRkey
  scid : UInt32
  iama : UInt8
  eatt : UInt8
  zipf : UInt8
  ncid : UInt8
deriving DecidableEq

def Navi.fields (n : Navi) : List (ℕ × Bytes) :=
  [(0, n.xchg.toList), (LXchg, n.rkey.toList), (LXchg + LRkey, putU32 n.scid),
    (LXchg + LRkey + 4, [n.iama]), (LXchg + LRkey + 5, [n.eatt]), (LXchg + LRkey + 6, [n.zipf]),
    (LXchg + LRkey + 7, [n.ncid])]

def encodeNavi (dst : Bytes) (n : Navi) : Bytes := writes dst n.fields

def decodeNavi (src : Bytes) : Navi where
  xchg := padCopy LXchg (slice src 0 LXchg)
  rkey := padCopy LRkey (slice src LXchg LRkey)
  scid := getU32 (slice src (LXchg + LRkey) 4)
  iama := src.getD (LXchg + LRkey + 4) 0
  eatt := src.getD (LXchg + LRkey + 5) 0
  zipf := src.getD (LXchg + LRkey + 6) 0
  ncid := src.getD (LXchg + LRkey + 7) 0

lemma Navi.contiguous (n : Navi) : Contiguous 0 n.fields := by
  simp [Navi.fields, Contiguous]

lemma Navi.length_written (n : Navi) : (written n.fields).length = NaviSize := by
  have h : (written n.fields).length = LXchg + (LRkey + 8) := by simp [Navi.fields, written]
  exact h

/-- **A navigation entry is read back.** -/
lemma decodeNavi_encodeNavi {dst : Bytes} (h : dst.length = NaviSize) (n : Navi) :
    decodeNavi (encodeNavi dst n) = n := by
  have hlen : (written n.fields).length ≤ dst.length := by rw [n.length_written, h]
  have hx : slice (encodeNavi dst n) 0 LXchg = n.xchg.toList :=
    slice_writes n.contiguous hlen (by simp [Navi.fields]) (by simp)
  have hr : slice (encodeNavi dst n) LXchg LRkey = n.rkey.toList :=
    slice_writes n.contiguous hlen (by simp [Navi.fields]) (by simp)
  have hs : slice (encodeNavi dst n) (LXchg + LRkey) 4 = putU32 n.scid :=
    slice_writes n.contiguous hlen (by simp [Navi.fields]) (by simp)
  have h4 : (encodeNavi dst n).getD (LXchg + LRkey + 4) 0 = n.iama :=
    getD_writes n.contiguous hlen (by simp [Navi.fields])
  have h5 : (encodeNavi dst n).getD (LXchg + LRkey + 5) 0 = n.eatt :=
    getD_writes n.contiguous hlen (by simp [Navi.fields])
  have h6 : (encodeNavi dst n).getD (LXchg + LRkey + 6) 0 = n.zipf :=
    getD_writes n.contiguous hlen (by simp [Navi.fields])
  have h7 : (encodeNavi dst n).getD (LXchg + LRkey + 7) 0 = n.ncid :=
    getD_writes n.contiguous hlen (by simp [Navi.fields])
  unfold decodeNavi
  rw [hx, hr, hs, h4, h5, h6, h7, padCopy_toList, padCopy_toList, getU32_putU32]

/-- The user behind a terminal. -/
structure Cookie where
  usid : Fixed 16
  name : Fixed 12
  maca : Fixed 24
  pcip : Fixed 20
  svip : Fixed 20
  clid : UInt32
  coki : Fixed CookieSize
deriving DecidableEq

def Cookie.fields (c : Cookie) : List (ℕ × Bytes) :=
  [(0, c.usid.toList), (16, c.name.toList), (28, c.maca.toList), (52, c.pcip.toList),
    (72, c.svip.toList), (92, putU32 c.clid), (96, c.coki.toList)]

def encodeCookie (dst : Bytes) (c : Cookie) : Bytes := writes dst c.fields

def decodeCookie (src : Bytes) : Cookie where
  usid := padCopy 16 (slice src 0 16)
  name := padCopy 12 (slice src 16 12)
  maca := padCopy 24 (slice src 28 24)
  pcip := padCopy 20 (slice src 52 20)
  svip := padCopy 20 (slice src 72 20)
  clid := getU32 (slice src 92 4)
  coki := padCopy CookieSize (slice src 96 CookieSize)

lemma Cookie.contiguous (c : Cookie) : Contiguous 0 c.fields := by
  simp [Cookie.fields, Contiguous]

lemma Cookie.length_written (c : Cookie) : (written c.fields).length = CookieWire := by
  have h : (written c.fields).length = 16 + (12 + (24 + (20 + (20 + (4 + CookieSize))))) := by
    simp [Cookie.fields, written]
  exact h

/-- **A cookie is read back.** -/
lemma decodeCookie_encodeCookie {dst : Bytes} (h : dst.length = CookieWire) (c : Cookie) :
    decodeCookie (encodeCookie dst c) = c := by
  have hlen : (written c.fields).length ≤ dst.length := by rw [c.length_written, h]
  have hread : ∀ {off n : ℕ} (bs : Bytes), (off, bs) ∈ c.fields → bs.length = n →
      slice (encodeCookie dst c) off n = bs := fun _ hm hn => slice_writes c.contiguous hlen hm hn
  unfold decodeCookie
  rw [hread c.usid.toList (by simp [Cookie.fields]) (by simp),
    hread c.name.toList (by simp [Cookie.fields]) (by simp),
    hread c.maca.toList (by simp [Cookie.fields]) (by simp),
    hread c.pcip.toList (by simp [Cookie.fields]) (by simp),
    hread c.svip.toList (by simp [Cookie.fields]) (by simp),
    hread (putU32 c.clid) (by simp [Cookie.fields]) (by simp),
    hread c.coki.toList (by simp [Cookie.fields]) (by simp)]
  simp only [padCopy_toList, getU32_putU32]

end Wtg.Mymq.Codec
