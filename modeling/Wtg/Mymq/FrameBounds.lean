import Wtg.Mymq.Frame
import Wtg.Mymq.Lzo

/-! # What `DecodeFrame` reads

In Go a slice out of range panics; `slice` of the model is total. `decodeFrameGo` is `DecodeFrame`
with slices that may panic, and it never does: it is `decodeFrame` (`decodeFrameGo_eq`). -/

namespace Wtg.Mymq.FrameBounds

open Lib.Buffer Mymq.Codec Mymq.Frame List

abbrev Go := ExceptT FrameErr Option

def noPanic {α : Type} (x : Except FrameErr α) : Go α := ExceptT.mk (some x)

lemma noPanic_bind {α β : Type} (x : Except FrameErr α) (f : α → Except FrameErr β) :
    (noPanic x >>= fun a => noPanic (f a)) = noPanic (x >>= f) := by
  cases x with
  | error e => rfl
  | ok a => rfl

lemma noPanic_ok_bind {α β : Type} (a : α) (f : α → Go β) : noPanic (.ok a) >>= f = f a := rfl

def cut (src : Bytes) (off n : ℕ) : Go Bytes :=
  if off + n ≤ src.length then pure (slice src off n) else ExceptT.mk none

def decodeNavisGo (frame : Bytes) : ℕ → ℕ → Go (List Navi)
  | _, 0 => pure []
  | off, n + 1 => do
    let src ← cut frame off NaviSize
    let navis ← decodeNavisGo frame (off + NaviSize) n
    return decodeNavi src :: navis

def readNavisGo (frame : Bytes) (nvia : UInt8) : Go (List Navi) :=
  if 0 < nvia then
    if MaxVia < nvia.toNat then throw .invalidNavi
    else if frame.length < HdrSize + NaviSize * nvia.toNat then throw .invalidOffset
    else decodeNavisGo frame HdrSize nvia.toNat
  else pure []

def readSzoffGo (frame : Bytes) (len off : UInt16) : Go Bytes :=
  if 0 < len ∧ 0 < off then
    if frame.length < off.toNat + len.toNat then throw .invalidOffset
    else cut frame off.toNat len.toNat
  else pure []

def readCookieGo (frame : Bytes) (zipf : UInt8) (off : UInt32) : Go (Option Cookie) :=
  if 0 < off then
    if zipf ≠ 0 then pure none
    else if frame.length < off.toNat + CookieWire then throw .invalidOffset
    else do return some (decodeCookie (← cut frame off.toNat CookieWire))
  else pure none

def readBodyGo (frame : Bytes) (off : UInt32) : Go Bytes :=
  if 0 < off then
    if frame.length < off.toNat then throw .invalidOffset
    else cut frame off.toNat (frame.length - off.toNat)
  else pure []

/-- `DecodeFrame` with slices that may panic. -/
def decodeFrameGo (frame : Bytes) : Go DecodedFrame :=
  if frame.length < HdrSize then throw .frameTooShort
  else do
    let hdr ← noPanic (decodeHeader (← cut frame 0 HdrSize))
    if hdr.length.toNat ≠ frame.length then throw (.invalidLength hdr.length.toNat frame.length)
    else
      let navis ← readNavisGo frame hdr.nvia
      let errMsg ← readSzoffGo frame hdr.errmLen hdr.errmOff
      let pkey ← readSzoffGo frame hdr.pkeyLen hdr.pkeyOff
      let nkey ← readSzoffGo frame hdr.nkeyLen hdr.nkeyOff
      let cookie ← readCookieGo frame hdr.coffZipf hdr.coffOff
      let body ← readBodyGo frame hdr.bodyOff
      return ⟨hdr, navis, errMsg, pkey, nkey, cookie, body, hdr.bodyZipf⟩

lemma cut_eq {src : Bytes} {off n : ℕ} (h : off + n ≤ src.length) :
    cut src off n = noPanic (.ok (slice src off n)) := if_pos h

lemma decodeNavisGo_eq (frame : Bytes) : ∀ (n off : ℕ), off + NaviSize * n ≤ frame.length →
    decodeNavisGo frame off n = noPanic (.ok (decodeNavis frame off n))
  | 0, _, _ => rfl
  | n + 1, off, h => by
    have hn : NaviSize * (n + 1) = NaviSize * n + NaviSize := Nat.mul_succ _ _
    rw [decodeNavisGo, cut_eq (by omega), decodeNavisGo_eq frame n (off + NaviSize) (by omega)]
    rfl

lemma readNavisGo_eq (frame : Bytes) (nvia : UInt8) :
    readNavisGo frame nvia = noPanic (readNavis frame nvia) := by
  unfold readNavisGo readNavis
  split_ifs with _ _ hlen
  · rfl
  · rfl
  · exact decodeNavisGo_eq frame _ _ (not_lt.mp hlen)
  · rfl

lemma readSzoffGo_eq (frame : Bytes) (len off : UInt16) :
    readSzoffGo frame len off = noPanic (readSzoff frame len off) := by
  unfold readSzoffGo readSzoff
  split_ifs with _ hlen
  · rfl
  · exact cut_eq (not_lt.mp hlen)
  · rfl

lemma readCookieGo_eq (frame : Bytes) (zipf : UInt8) (off : UInt32) :
    readCookieGo frame zipf off = noPanic (readCookie frame zipf off) := by
  unfold readCookieGo readCookie
  split_ifs with _ _ hlen
  · rfl
  · rfl
  · rw [cut_eq (not_lt.mp hlen)]
    rfl
  · rfl

lemma readBodyGo_eq (frame : Bytes) (off : UInt32) :
    readBodyGo frame off = noPanic (readBody frame off) := by
  unfold readBodyGo readBody
  split_ifs with _ hlen
  · rfl
  · rw [cut_eq (by omega), slice, take_of_length_le (by rw [length_drop])]
  · rfl

def readSections (frame : Bytes) (hdr : Header) : Except FrameErr DecodedFrame := do
  let navis ← readNavis frame hdr.nvia
  let errMsg ← readSzoff frame hdr.errmLen hdr.errmOff
  let pkey ← readSzoff frame hdr.pkeyLen hdr.pkeyOff
  let nkey ← readSzoff frame hdr.nkeyLen hdr.nkeyOff
  let cookie ← readCookie frame hdr.coffZipf hdr.coffOff
  let body ← readBody frame hdr.bodyOff
  return ⟨hdr, navis, errMsg, pkey, nkey, cookie, body, hdr.bodyZipf⟩

lemma decodeFrame_eq (frame : Bytes) : decodeFrame frame =
    if frame.length < HdrSize then .error .frameTooShort
    else decodeHeader (slice frame 0 HdrSize) >>= fun hdr =>
      if hdr.length.toNat ≠ frame.length then
        .error (.invalidLength hdr.length.toNat frame.length)
      else readSections frame hdr := by
  unfold decodeFrame
  split_ifs with hmin
  · rfl
  rcases decodeHeader (slice frame 0 HdrSize) with e | hdr
  · rfl
  show (if hdr.length.toNat ≠ frame.length then _ else _) = ite _ _ _
  split_ifs
  · rfl
  · rfl

lemma decodeFrameGo_eq (frame : Bytes) : decodeFrameGo frame = noPanic (decodeFrame frame) := by
  rw [decodeFrame_eq, decodeFrameGo]
  split_ifs with hmin
  · rfl
  rw [cut_eq (by omega), noPanic_ok_bind]
  rcases decodeHeader (slice frame 0 HdrSize) with e | hdr
  · rfl
  show ite _ _ _ = noPanic (ite _ _ _)
  split_ifs
  · rfl
  have hpure : ∀ df : DecodedFrame, (pure df : Go DecodedFrame) = noPanic (pure df) := fun _ => rfl
  simp only [readNavisGo_eq, readSzoffGo_eq, readCookieGo_eq, readBodyGo_eq, hpure, noPanic_bind,
    readSections]

abbrev Present (len off : UInt16) : Prop := 0 < len ∧ 0 < off

/-- What the header announces lies in the frame. -/
structure Fits (frame : Bytes) (hdr : Header) : Prop where
  length : hdr.length.toNat = frame.length
  nvia : hdr.nvia.toNat ≤ MaxVia
  navis : HdrSize + NaviSize * hdr.nvia.toNat ≤ frame.length
  errm : Present hdr.errmLen hdr.errmOff → hdr.errmOff.toNat + hdr.errmLen.toNat ≤ frame.length
  pkey : Present hdr.pkeyLen hdr.pkeyOff → hdr.pkeyOff.toNat + hdr.pkeyLen.toNat ≤ frame.length
  nkey : Present hdr.nkeyLen hdr.nkeyOff → hdr.nkeyOff.toNat + hdr.nkeyLen.toNat ≤ frame.length
  cookie : 0 < hdr.coffOff → hdr.coffZipf = 0 → hdr.coffOff.toNat + CookieWire ≤ frame.length
  body : hdr.bodyOff.toNat ≤ frame.length

def parsed (frame : Bytes) (hdr : Header) : DecodedFrame where
  header := hdr
  navis := (List.range hdr.nvia.toNat).map fun i =>
    decodeNavi (slice frame (HdrSize + NaviSize * i) NaviSize)
  errMsg := if Present hdr.errmLen hdr.errmOff then
    slice frame hdr.errmOff.toNat hdr.errmLen.toNat else []
  pkey := if Present hdr.pkeyLen hdr.pkeyOff then
    slice frame hdr.pkeyOff.toNat hdr.pkeyLen.toNat else []
  nkey := if Present hdr.nkeyLen hdr.nkeyOff then
    slice frame hdr.nkeyOff.toNat hdr.nkeyLen.toNat else []
  cookie := if 0 < hdr.coffOff ∧ hdr.coffZipf = 0 then
    some (decodeCookie (slice frame hdr.coffOff.toNat CookieWire)) else none
  body := if 0 < hdr.bodyOff then frame.drop hdr.bodyOff.toNat else []
  bodyZipf := hdr.bodyZipf

/-! ## When a reader succeeds -/

section

variable {frame : Bytes}

lemma decodeNavis_eq (frame : Bytes) : ∀ (n off : ℕ), decodeNavis frame off n =
    (range n).map fun i => decodeNavi (slice frame (off + NaviSize * i) NaviSize)
  | 0, _ => rfl
  | n + 1, off => by
    rw [decodeNavis, decodeNavis_eq frame n, range_succ_eq_map, map_cons, map_map]
    refine congrArg _ (map_congr_left fun i _ => ?_)
    simp only [Function.comp, Nat.mul_succ]
    rw [Nat.add_right_comm, Nat.add_assoc off]

lemma readNavis_ok_iff {nvia : UInt8} {ns : List Navi} (hmin : HdrSize ≤ frame.length) :
    readNavis frame nvia = .ok ns ↔
      (nvia.toNat ≤ MaxVia ∧ HdrSize + NaviSize * nvia.toNat ≤ frame.length) ∧
        decodeNavis frame HdrSize nvia.toNat = ns := by
  unfold readNavis
  split_ifs with hpos hvia hlen
  · simp [not_le.mpr hvia]
  · simp [not_le.mpr hlen]
  · simp [not_lt.mp hvia, not_lt.mp hlen]
  · have hzero : nvia.toNat = 0 := Nat.eq_zero_of_not_pos (UInt8.lt_iff_toNat_lt.not.mp hpos)
    simp [hzero, hmin, decodeNavis]

lemma readSzoff_ok_iff {len off : UInt16} {bs : Bytes} : readSzoff frame len off = .ok bs ↔
    (Present len off → off.toNat + len.toNat ≤ frame.length) ∧
      (if Present len off then slice frame off.toNat len.toNat else []) = bs := by
  unfold readSzoff
  by_cases hpos : Present len off
  · rw [if_pos hpos, if_pos hpos]
    by_cases hlen : frame.length < off.toNat + len.toNat
    · simp [hpos, hlen]
    · simp [hlen, not_lt.mp hlen]
  · rw [if_neg hpos, if_neg hpos]
    simp [hpos]

lemma readCookie_ok_iff {zipf : UInt8} {off : UInt32} {c : Option Cookie} :
    readCookie frame zipf off = .ok c ↔
      (0 < off → zipf = 0 → off.toNat + CookieWire ≤ frame.length) ∧
        (if 0 < off ∧ zipf = 0 then some (decodeCookie (slice frame off.toNat CookieWire))
          else none) = c := by
  unfold readCookie
  by_cases hpos : 0 < off
  · by_cases hzipf : zipf = 0
    · by_cases hlen : frame.length < off.toNat + CookieWire
      · simp [hpos, hzipf, hlen]
      · simp [hpos, hzipf, hlen, not_lt.mp hlen]
    · simp [hpos, hzipf]
  · simp [hpos]

lemma readBody_ok_iff {off : UInt32} {bs : Bytes} : readBody frame off = .ok bs ↔
    off.toNat ≤ frame.length ∧ (if 0 < off then frame.drop off.toNat else []) = bs := by
  unfold readBody
  by_cases hpos : 0 < off
  · by_cases hlen : frame.length < off.toNat
    · simp [hpos, hlen]
    · simp [hpos, hlen, not_lt.mp hlen]
  · have hzero : off.toNat = 0 := Nat.eq_zero_of_not_pos (UInt32.lt_iff_toNat_lt.not.mp hpos)
    simp [hpos, hzero]

end

/-- **Frame parsing is total and bounded.** -/
theorem decodeFrame_bounded (frame : Bytes) :
    decodeFrameGo frame = noPanic (decodeFrame frame) ∧
      ∀ df, decodeFrame frame = .ok df ↔ HdrSize ≤ frame.length ∧ ∃ hdr,
        decodeHeader (slice frame 0 HdrSize) = .ok hdr ∧ Fits frame hdr ∧ df = parsed frame hdr := by
  refine ⟨decodeFrameGo_eq frame, fun df => ?_⟩
  rw [decodeFrame_eq]
  split_ifs with hmin
  · simp [hmin]
  rw [Lzo.bind_eq_ok, and_iff_right (not_lt.mp hmin)]
  refine exists_congr fun hdr => and_congr_right fun _ => ?_
  by_cases hlen : hdr.length.toNat ≠ frame.length
  · rw [if_pos hlen]
    exact ⟨fun h => (nomatch h), fun h => absurd h.1.length hlen⟩
  rw [if_neg hlen]
  simp only [readSections, Lzo.bind_eq_ok, readNavis_ok_iff (not_lt.mp hmin), readSzoff_ok_iff,
    readCookie_ok_iff, readBody_ok_iff]
  constructor
  · rintro ⟨_, ⟨⟨hvia, hnavis⟩, rfl⟩, _, ⟨herrm, rfl⟩, _, ⟨hpkey, rfl⟩, _, ⟨hnkey, rfl⟩, _,
      ⟨hcookie, rfl⟩, _, ⟨hbody, rfl⟩, h⟩
    cases h
    refine ⟨⟨not_not.mp hlen, hvia, hnavis, herrm, hpkey, hnkey, hcookie, hbody⟩, ?_⟩
    rw [parsed, decodeNavis_eq]
  · rintro ⟨h, rfl⟩
    exact ⟨_, ⟨⟨h.nvia, h.navis⟩, rfl⟩, _, ⟨h.errm, rfl⟩, _, ⟨h.pkey, rfl⟩, _, ⟨h.nkey, rfl⟩, _,
      ⟨h.cookie, rfl⟩, _, ⟨h.body, rfl⟩, by rw [parsed, decodeNavis_eq]; rfl⟩

def strayCookie : Bytes :=
  [0, 0, 0, 100] ++ List.replicate 56 0 ++ [1, 255, 255, 255] ++ List.replicate 36 0

theorem decodeFrame_strayCookie : strayCookie.length = 100 ∧
    ∃ df, decodeFrame strayCookie = .ok df ∧ df.header.coffOff.toNat = 0xFFFFFF := by
  refine ⟨by decide, _, rfl, by decide⟩

end Wtg.Mymq.FrameBounds
