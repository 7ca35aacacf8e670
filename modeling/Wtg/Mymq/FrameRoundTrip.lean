import Wtg.Mymq.FrameBounds

/-! # Which frames survive the wire

`encodeFrame_eq` computes the frame: it is the concatenation of header, navigation entries and
sections (`layout`), under the header `header f`. -/

namespace Wtg.Mymq.FrameRoundTrip

open List hiding sections
open Lib.Buffer Mymq.Codec Mymq.Frame UInt32
open Mymq.FrameBounds (readNavis_ok_iff readSzoff_ok_iff readCookie_ok_iff readBody_ok_iff)

lemma contiguous_fields (h : Header) : Contiguous 0 h.fields := by
  simp only [Header.fields, Contiguous, length_cons, length_nil, length_putU32,
    List.Vector.toList_length, length_encodeWhere, length_encodeSzoff]
  decide

lemma length_written_fields (h : Header) : (written h.fields).length = HdrSize := by
  simp only [Header.fields, written, flatMap_cons, flatMap_nil, length_append,
    length_cons, length_nil, length_putU32, List.Vector.toList_length, length_encodeWhere,
    length_encodeSzoff]
  decide

structure Narrow (h : Header) : Prop where
  coff : h.coffOff.toNat < 2 ^ 24
  soff : h.soffOff.toNat < 2 ^ 24
  body : h.bodyOff.toNat < 2 ^ 24

lemma decodeHeader_written {h : Header} (hn : Narrow h) :
    decodeHeader (written h.fields) = .ok h := by
  have hread : ∀ fld ∈ h.fields, slice (written h.fields) fld.1 fld.2.length = fld.2 := by
    intro fld hm
    simpa using slice_contiguous [] [] rfl (contiguous_fields h) hm
  have hlen : (written h.fields).length = 100 := length_written_fields h
  generalize written h.fields = buf at hread hlen ⊢
  simp (disch := omega) only [Header.fields, forall_mem_cons, length_cons, length_nil,
    length_putU32, List.Vector.toList_length, length_encodeWhere, length_encodeSzoff, zero_add,
    slice_one, cons.injEq, and_true] at hread
  unfold decodeHeader
  rw [if_neg (by rw [hlen]; decide)]
  simp only [hread, padCopy_toList, getU32_putU32, decodeWhere_encodeWhere hn.coff,
    decodeWhere_encodeWhere hn.soff, decodeWhere_encodeWhere hn.body, decodeSzoff_encodeSzoff]

variable (f : FrameInput)

def cookieBytes : Option Cookie → Bytes
  | none => []
  | some c => written c.fields

def naviBytes (navis : List Navi) : Bytes := navis.flatMap fun n => written n.fields

def errmAt : ℕ := HdrSize + NaviSize * f.navis.length

def pkeyAt : ℕ := errmAt f + f.errMsg.length

def nkeyAt : ℕ := pkeyAt f + f.pkey.length

def cookieAt : ℕ := nkeyAt f + f.nkey.length

def bodyAt : ℕ := cookieAt f + (cookieBytes f.cookie).length

lemma errmAt_pos : 0 < errmAt f := Nat.add_pos_left (by decide) _

def szoffLen (bs : Bytes) : UInt16 := if 0 < bs.length then .ofNat bs.length else 0

def szoffOff (bs : Bytes) (off : ℕ) : UInt16 := if 0 < bs.length then .ofNat off else 0

def header : Header where
  length := .ofNat f.size
  func := f.func
  subc := f.subc
  nvia := .ofNat f.navis.length
  dirf := f.dirf
  msgf := if 0 < f.errMsg.length then f.msgf ||| MsgfErr else f.msgf
  ctlf := f.ctlf
  keyc := f.keyc
  xchg := padCopy LXchg f.xchg
  rkey := padCopy LRkey f.rkey
  ckey := f.ckey
  clid := f.clid
  wkey := f.wkey
  chan := f.chan
  errn := f.errn
  coffOff := if f.cookie.isSome then .ofNat (cookieAt f) else 0
  errmLen := szoffLen f.errMsg
  errmOff := szoffOff f.errMsg (errmAt f)
  pkeyLen := szoffLen f.pkey
  pkeyOff := szoffOff f.pkey (pkeyAt f)
  nkeyLen := szoffLen f.nkey
  nkeyOff := szoffOff f.nkey (nkeyAt f)
  bodyOff := if 0 < f.body.length then .ofNat (bodyAt f) else 0
  traceID := f.traceID

def tail : Bytes := f.errMsg ++ (f.pkey ++ (f.nkey ++ (cookieBytes f.cookie ++ f.body)))

def layout : Bytes := written (header f).fields ++ (naviBytes f.navis ++ tail f)

lemma length_cookieBytes (c : Option Cookie) :
    (cookieBytes c).length = if c.isSome then CookieWire else 0 := by
  cases c with
  | none => rfl
  | some c => exact c.length_written

lemma length_naviBytes (navis : List Navi) :
    (naviBytes navis).length = NaviSize * navis.length := by
  induction navis with
  | nil => rfl
  | cons n ns ih =>
    have hcons : naviBytes (n :: ns) = written n.fields ++ naviBytes ns := rfl
    rw [hcons, length_append, n.length_written, ih, length_cons]
    ring

lemma length_layout : (layout f).length = f.size := by
  simp only [layout, tail, length_append, length_written_fields, length_naviBytes,
    length_cookieBytes, FrameInput.size]
  omega

lemma size_eq : f.size = bodyAt f + f.body.length := by
  simp only [FrameInput.size, bodyAt, cookieAt, nkeyAt, pkeyAt, errmAt, length_cookieBytes]

def sectionWrites : List (ℕ × Bytes) :=
  [(errmAt f, f.errMsg), (pkeyAt f, f.pkey), (nkeyAt f, f.nkey), (cookieAt f, cookieBytes f.cookie),
    (bodyAt f, f.body)]

lemma contiguous_sectionWrites : Contiguous (errmAt f) (sectionWrites f) :=
  ⟨rfl, rfl, rfl, rfl, rfl, trivial⟩

lemma written_sectionWrites : written (sectionWrites f) = tail f := by
  simp [written, sectionWrites, tail]

/-! ## One write after another -/

section

variable (d : Draft)

lemma putErrm_eq (e : Bytes) : d.putErrm e =
    ⟨write d.buf d.cur e,
      { d.hdr with
        msgf := if 0 < e.length then d.hdr.msgf ||| MsgfErr else d.hdr.msgf
        errmLen := if 0 < e.length then .ofNat e.length else d.hdr.errmLen
        errmOff := if 0 < e.length then .ofNat d.cur else d.hdr.errmOff }, d.cur + e.length⟩ := by
  unfold Draft.putErrm
  split_ifs with h
  · rfl
  · rw [eq_nil_of_length_eq_zero (by omega : e.length = 0), write_nil]
    rfl

lemma putPkey_eq (k : Bytes) : d.putPkey k =
    ⟨write d.buf d.cur k,
      { d.hdr with
        pkeyLen := if 0 < k.length then .ofNat k.length else d.hdr.pkeyLen
        pkeyOff := if 0 < k.length then .ofNat d.cur else d.hdr.pkeyOff }, d.cur + k.length⟩ := by
  unfold Draft.putPkey
  split_ifs with h
  · rfl
  · rw [eq_nil_of_length_eq_zero (by omega : k.length = 0), write_nil]
    rfl

lemma putNkey_eq (k : Bytes) : d.putNkey k =
    ⟨write d.buf d.cur k,
      { d.hdr with
        nkeyLen := if 0 < k.length then .ofNat k.length else d.hdr.nkeyLen
        nkeyOff := if 0 < k.length then .ofNat d.cur else d.hdr.nkeyOff }, d.cur + k.length⟩ := by
  unfold Draft.putNkey
  split_ifs with h
  · rfl
  · rw [eq_nil_of_length_eq_zero (by omega : k.length = 0), write_nil]
    rfl

lemma putCookie_eq {c : Option Cookie} (h : d.cur + (cookieBytes c).length ≤ d.buf.length)
    (hz : d.hdr.coffZipf = 0) : d.putCookie c =
    ⟨write d.buf d.cur (cookieBytes c),
      { d.hdr with coffOff := if c.isSome then .ofNat d.cur else d.hdr.coffOff },
      d.cur + (cookieBytes c).length⟩ := by
  cases c with
  | none => simp [Draft.putCookie, cookieBytes]
  | some c =>
    have hlen : (slice d.buf d.cur CookieWire).length = (written c.fields).length := by
      rw [c.length_written]
      rw [length_cookieBytes] at h
      exact length_slice h
    have henc : encodeCookie (slice d.buf d.cur CookieWire) c = written c.fields :=
      writes_full c.contiguous hlen
    simp only [Draft.putCookie, Draft.append, henc, cookieBytes, Option.isSome_some, if_true, hz]

lemma putBody_eq (b : Bytes) (hz : d.hdr.bodyZipf = 0) : d.putBody b =
    ⟨write d.buf d.cur b,
      { d.hdr with bodyOff := if 0 < b.length then .ofNat d.cur else d.hdr.bodyOff },
      d.cur + b.length⟩ := by
  unfold Draft.putBody
  split_ifs with h
  · simp only [Draft.append, hz]
  · rw [eq_nil_of_length_eq_zero (by omega : b.length = 0), write_nil]
    rfl

end

lemma sections_eq : sections f =
    ⟨writes (replicate f.size 0) (sectionWrites f), { header f with length := 0 }, f.size⟩ := by
  have hsize := size_eq f
  have hb : bodyAt f = cookieAt f + (cookieBytes f.cookie).length := rfl
  have hc : cookieAt f = nkeyAt f + f.nkey.length := rfl
  have hn : nkeyAt f = pkeyAt f + f.pkey.length := rfl
  have hp : pkeyAt f = errmAt f + f.errMsg.length := rfl
  -- the buffer the cookie is written into
  have hlen : (write (write (write (replicate f.size 0) (errmAt f) f.errMsg) (pkeyAt f) f.pkey)
      (nkeyAt f) f.nkey).length = f.size := by
    have h0 : (replicate f.size (0 : UInt8)).length = f.size := length_replicate
    have h1 : (write (replicate f.size 0) (errmAt f) f.errMsg).length = _ :=
      length_write (by omega)
    have h2 : (write (write (replicate f.size 0) (errmAt f) f.errMsg) (pkeyAt f) f.pkey).length =
      _ := length_write (by omega)
    rw [length_write (by omega), h2, h1, h0]
  unfold sections
  rw [putErrm_eq, putPkey_eq, putNkey_eq, putCookie_eq, putBody_eq]
  · exact Draft.mk.injEq .. |>.mpr ⟨rfl, rfl, hsize.symm⟩
  · rfl
  · show cookieAt f + (cookieBytes f.cookie).length ≤ (write (write (write (replicate f.size 0)
      (errmAt f) f.errMsg) (pkeyAt f) f.pkey) (nkeyAt f) f.nkey).length
    omega
  · rfl

lemma encodeNavis_eq : ∀ (navis : List Navi) (a z c : Bytes),
    z.length = NaviSize * navis.length →
    encodeNavis (a ++ (z ++ c)) a.length navis = a ++ (naviBytes navis ++ c)
  | [], a, z, c, hz => by
    obtain rfl : z = [] := eq_nil_of_length_eq_zero hz
    rfl
  | n :: ns, a, z, c, hz => by
    rw [length_cons, Nat.mul_succ] at hz
    obtain ⟨z₁, z₂, rfl, hz₁⟩ : ∃ z₁ z₂, z = z₁ ++ z₂ ∧ z₁.length = NaviSize :=
      ⟨z.take NaviSize, z.drop NaviSize, (take_append_drop ..).symm, by
        rw [length_take]; omega⟩
    rw [length_append] at hz
    have hslice : slice (a ++ (z₁ ++ z₂ ++ c)) a.length NaviSize = z₁ := by
      rw [append_assoc]
      exact slice_append rfl hz₁
    have henc : encodeNavi z₁ n = written n.fields :=
      writes_full n.contiguous (by rw [hz₁, n.length_written])
    have hwrite : write (a ++ (z₁ ++ z₂ ++ c)) a.length (written n.fields) =
        (a ++ written n.fields) ++ (z₂ ++ c) := by
      rw [append_assoc, write_append rfl (by rw [hz₁, n.length_written]), append_assoc]
    have hoff : a.length + NaviSize = (a ++ written n.fields).length := by
      rw [length_append, n.length_written]
    rw [encodeNavis, hslice, henc, hwrite, hoff, encodeNavis_eq ns _ z₂ c (by omega)]
    simp [naviBytes]

def Accepted : Prop :=
  f.navis.length ≤ MaxVia ∧ f.pkey.length ≤ LSkey ∧ f.nkey.length ≤ LSkey ∧ f.size ≤ MaxMsgSize

lemma encodeFrame_eq (h : Accepted f) : encodeFrame f = .ok (layout f) := by
  obtain ⟨hn, hp, hk, hs⟩ := h
  have hsize : f.size = HdrSize + (naviBytes f.navis).length + (tail f).length := by
    have := length_layout f
    rw [layout, length_append, length_append, length_written_fields] at this
    omega
  have htail : errmAt f + (tail f).length = f.size := by
    rw [hsize, length_naviBytes]
    rfl
  have hbuf : writes (replicate f.size 0) (sectionWrites f) =
      replicate HdrSize 0 ++ (replicate (NaviSize * f.navis.length) 0 ++ tail f) := by
    have hlen : errmAt f + (written (sectionWrites f)).length ≤
        (replicate f.size (0 : UInt8)).length := by
      rw [written_sectionWrites, htail, length_replicate]
    rw [writes_contiguous (contiguous_sectionWrites f) hlen, written_sectionWrites, htail,
      drop_eq_nil_of_le (by rw [length_replicate]), append_nil, take_replicate,
      min_eq_left (by omega), errmAt, replicate_add, append_assoc]
  have hhdr : encodeHeader (slice (sections f).buf 0 HdrSize)
      { (sections f).hdr with length := .ofNat (sections f).cur } =
        .ok (written (header f).fields) := by
    have hslice : slice (sections f).buf 0 HdrSize = replicate HdrSize 0 := by
      rw [sections_eq, hbuf]
      exact slice_append (a := []) rfl length_replicate
    rw [hslice, sections_eq]
    show encodeHeader (replicate HdrSize 0) (header f) = _
    have hfull : writes (replicate HdrSize 0) (header f).fields = written (header f).fields :=
      writes_full (contiguous_fields _) (by rw [length_replicate, length_written_fields])
    unfold encodeHeader
    rw [if_neg (by rw [length_replicate]; omega), hfull]
  unfold encodeFrame
  rw [if_neg (by omega), if_neg (by omega), if_neg (by omega)]
  simp only [hhdr]
  congr 1
  have hw : write (sections f).buf 0 (written (header f).fields) = written (header f).fields ++
      (replicate (NaviSize * f.navis.length) 0 ++ tail f) := by
    have hz : (replicate HdrSize (0 : UInt8)).length = (written (header f).fields).length := by
      rw [length_replicate, length_written_fields]
    rw [sections_eq, hbuf]
    exact write_append (a := []) rfl hz
  have hcur : (sections f).cur = (layout f).length := by rw [sections_eq, length_layout]
  have hnavis := encodeNavis_eq f.navis (written (header f).fields)
    (replicate (NaviSize * f.navis.length) 0) (tail f) length_replicate
  rw [length_written_fields] at hnavis
  rw [hw, hnavis, hcur]
  exact take_length

lemma accepted_of_encodeFrame {frame : Bytes} (h : encodeFrame f = .ok frame) : Accepted f := by
  unfold encodeFrame at h
  split_ifs at h with h1 h2 h3
  exact ⟨by omega, by omega, by omega, by omega⟩

lemma decodeNavis_eq : ∀ (navis : List Navi) (a c : Bytes),
    decodeNavis (a ++ (naviBytes navis ++ c)) a.length navis.length = navis
  | [], _, _ => rfl
  | n :: ns, a, c => by
    have hcons : naviBytes (n :: ns) = written n.fields ++ naviBytes ns := rfl
    have hslice : slice (a ++ (naviBytes (n :: ns) ++ c)) a.length NaviSize = written n.fields := by
      rw [hcons, append_assoc]
      exact slice_append rfl n.length_written
    have hn : decodeNavi (written n.fields) = n := by
      have hz : (replicate NaviSize (0 : UInt8)).length = (written n.fields).length := by
        rw [length_replicate, n.length_written]
      rw [← writes_full n.contiguous hz]
      exact decodeNavi_encodeNavi length_replicate n
    have hoff : a.length + NaviSize = (a ++ written n.fields).length := by
      rw [length_append, n.length_written]
    rw [length_cons, decodeNavis, hslice, hn, hoff, hcons, append_assoc,
      ← append_assoc a, decodeNavis_eq ns]

lemma readNavis_layout (h : Accepted f) : readNavis (layout f) (header f).nvia = .ok f.navis := by
  have hvia : MaxVia = 16 := rfl
  have hn : (header f).nvia.toNat = f.navis.length := by
    show (UInt8.ofNat f.navis.length).toNat = _
    rw [UInt8.toNat_ofNat']
    exact Nat.mod_eq_of_lt (by have := h.1; omega)
  have hlen : HdrSize + NaviSize * f.navis.length ≤ (layout f).length := by
    rw [layout, length_append, length_append, length_written_fields, length_naviBytes]
    omega
  refine (readNavis_ok_iff (by omega)).mpr ?_
  rw [hn]
  refine ⟨⟨h.1, hlen⟩, ?_⟩
  rw [layout, ← length_written_fields (header f), decodeNavis_eq]

lemma readSzoff_nil (frame : Bytes) (off : ℕ) :
    readSzoff frame (szoffLen []) (szoffOff [] off) = .ok [] := by
  unfold readSzoff
  rw [if_neg]
  rintro ⟨h, -⟩
  exact absurd h (by decide)

lemma readSzoff_iff {a bs c : Bytes} (ha : 0 < a.length) (hb : bs.length < 2 ^ 16) :
    readSzoff (a ++ (bs ++ c)) (szoffLen bs) (szoffOff bs a.length) = .ok bs ↔
      bs = [] ∨ a.length < 2 ^ 16 ∨ (0 < a.length % 2 ^ 16 ∧
        slice (a ++ (bs ++ c)) (a.length % 2 ^ 16) bs.length = bs) := by
  by_cases hpos : 0 < bs.length
  swap
  · obtain rfl : bs = [] := eq_nil_of_length_eq_zero (by omega)
    simp only [readSzoff_nil, true_or]
  have hne : bs ≠ [] := ne_nil_of_length_pos hpos
  have hlen : (szoffLen bs).toNat = bs.length := by
    rw [szoffLen, if_pos hpos, UInt16.toNat_ofNat']
    exact Nat.mod_eq_of_lt hb
  have hoff : (szoffOff bs a.length).toNat = a.length % 2 ^ 16 := by
    rw [szoffOff, if_pos hpos, UInt16.toNat_ofNat']
  have hin : a.length % 2 ^ 16 + bs.length ≤ (a ++ (bs ++ c)).length := by
    have := Nat.mod_le a.length (2 ^ 16)
    simp only [length_append]
    omega
  have hread : readSzoff (a ++ (bs ++ c)) (szoffLen bs) (szoffOff bs a.length) =
      if 0 < a.length % 2 ^ 16 then .ok (slice (a ++ (bs ++ c)) (a.length % 2 ^ 16) bs.length)
      else .ok [] := by
    have hcond : (0 < szoffLen bs ∧ 0 < szoffOff bs a.length) ↔ 0 < a.length % 2 ^ 16 := by
      rw [UInt16.lt_iff_toNat_lt, UInt16.lt_iff_toNat_lt, hlen, hoff]
      exact and_iff_right hpos
    simp only [readSzoff, hcond, hlen, hoff, if_neg (Nat.not_lt.mpr hin)]
  rw [hread]
  constructor
  · intro h
    split_ifs at h with hz
    · exact .inr (.inr ⟨hz, Except.ok.inj h⟩)
    · exact absurd (Except.ok.inj h).symm hne
  · rintro (h | h | ⟨hz, h⟩)
    · exact absurd h hne
    · rw [Nat.mod_eq_of_lt h, if_pos ha, slice_append rfl rfl]
    · rw [if_pos hz, h]

lemma head_of_readSzoff {a bs c : Bytes} (hb : bs.length < 2 ^ 16) (hne : bs ≠ [])
    (ha : 2 ^ 16 ≤ a.length)
    (h : readSzoff (a ++ (bs ++ c)) (szoffLen bs) (szoffOff bs a.length) = .ok bs) :
    bs.head? = a[a.length % 2 ^ 16]? := by
  have hpos := length_pos_iff.mpr hne
  have hmod : a.length % 2 ^ 16 < a.length := by
    have := Nat.mod_lt a.length (show 0 < 2 ^ 16 by decide)
    omega
  rcases (readSzoff_iff (by omega) hb).mp h with hnil | hlt | ⟨-, hslice⟩
  · exact absurd hnil hne
  · omega
  · calc bs.head? = (slice (a ++ (bs ++ c)) (a.length % 2 ^ 16) bs.length)[0]? := by
          rw [hslice, head?_eq_getElem?]
      _ = (a ++ (bs ++ c))[a.length % 2 ^ 16]? := by
          rw [slice, getElem?_take_of_lt hpos, getElem?_drop, Nat.add_zero]
      _ = a[a.length % 2 ^ 16]? := getElem?_append_left hmod

def preErrm : Bytes := written (header f).fields ++ naviBytes f.navis

def prePkey : Bytes := preErrm f ++ f.errMsg

def preNkey : Bytes := prePkey f ++ f.pkey

def preCookie : Bytes := preNkey f ++ f.nkey

def preBody : Bytes := preCookie f ++ cookieBytes f.cookie

lemma length_preErrm : (preErrm f).length = errmAt f := by
  rw [preErrm, length_append, length_written_fields, length_naviBytes, errmAt]

lemma length_prePkey : (prePkey f).length = pkeyAt f := by
  rw [prePkey, length_append, length_preErrm, pkeyAt]

lemma length_preNkey : (preNkey f).length = nkeyAt f := by
  rw [preNkey, length_append, length_prePkey, nkeyAt]

lemma length_preCookie : (preCookie f).length = cookieAt f := by
  rw [preCookie, length_append, length_preNkey, cookieAt]

lemma length_preBody : (preBody f).length = bodyAt f := by
  rw [preBody, length_append, length_preCookie, bodyAt]

lemma layout_body : layout f = preBody f ++ f.body := by
  simp [layout, tail, preBody, preCookie, preNkey, prePkey, preErrm]

lemma layout_cookie : layout f = preCookie f ++ (cookieBytes f.cookie ++ f.body) := by
  rw [layout_body, preBody, append_assoc]

lemma layout_nkey : layout f = preNkey f ++ (f.nkey ++ (cookieBytes f.cookie ++ f.body)) := by
  rw [layout_cookie, preCookie, append_assoc]

lemma layout_pkey :
    layout f = prePkey f ++ (f.pkey ++ (f.nkey ++ (cookieBytes f.cookie ++ f.body))) := by
  rw [layout_nkey, preNkey, append_assoc]

lemma layout_errm : layout f = preErrm f ++ (f.errMsg ++
    (f.pkey ++ (f.nkey ++ (cookieBytes f.cookie ++ f.body)))) := by
  rw [layout_pkey, prePkey, append_assoc]

lemma toNat_offset {n : ℕ} (h : n ≤ MaxMsgSize) : (ofNat n).toNat = n ∧ n < 2 ^ 24 := by
  have hmax : MaxMsgSize = 2097408 := rfl
  rw [toNat_ofNat']
  exact ⟨Nat.mod_eq_of_lt (by omega), by omega⟩

variable {f}

lemma offsets_le (h : Accepted f) : cookieAt f ≤ MaxMsgSize ∧ bodyAt f ≤ MaxMsgSize := by
  have hs := h.2.2.2
  have hsize := size_eq f
  have hb : bodyAt f = cookieAt f + (cookieBytes f.cookie).length := rfl
  omega

lemma narrow_header (h : Accepted f) : Narrow (header f) := by
  obtain ⟨hc, hb⟩ := offsets_le h
  have hzero : (0 : UInt32).toNat < 2 ^ 24 := by decide
  refine ⟨?_, hzero, ?_⟩
  · show (if f.cookie.isSome then ofNat (cookieAt f) else 0).toNat < 2 ^ 24
    split_ifs
    · rw [(toNat_offset hc).1]; exact (toNat_offset hc).2
    · exact hzero
  · show (if 0 < f.body.length then ofNat (bodyAt f) else 0).toNat < 2 ^ 24
    split_ifs
    · rw [(toNat_offset hb).1]; exact (toNat_offset hb).2
    · exact hzero

lemma readCookie_layout (h : Accepted f) :
    readCookie (layout f) 0 (header f).coffOff = .ok f.cookie := by
  obtain ⟨hc, -⟩ := offsets_le h
  show readCookie (layout f) 0 (if f.cookie.isSome then ofNat (cookieAt f) else 0) = _
  rcases hck : f.cookie with _ | c
  · rfl
  have hat : (ofNat (cookieAt f)).toNat = cookieAt f := (toNat_offset hc).1
  have hslice : slice (layout f) (cookieAt f) CookieWire = written c.fields := by
    rw [layout_cookie, hck]
    exact slice_append (length_preCookie f) c.length_written
  have hdec : decodeCookie (written c.fields) = c := by
    have hz : (replicate CookieWire (0 : UInt8)).length = (written c.fields).length := by
      rw [length_replicate, c.length_written]
    rw [← writes_full c.contiguous hz]
    exact decodeCookie_encodeCookie length_replicate c
  have hpos : 0 < ofNat (cookieAt f) := by
    rw [lt_iff_toNat_lt, hat]
    exact Nat.lt_of_lt_of_le (errmAt_pos f) (by unfold cookieAt nkeyAt pkeyAt; omega)
  rw [Option.isSome_some, if_pos rfl, readCookie_ok_iff, if_pos ⟨hpos, rfl⟩, hat, hslice, hdec]
  refine ⟨fun _ _ => ?_, rfl⟩
  rw [layout_cookie, length_append, length_append, length_preCookie, length_cookieBytes, hck]
  exact Nat.add_le_add_left (Nat.le_add_right ..) _

lemma readBody_layout (h : Accepted f) : readBody (layout f) (header f).bodyOff = .ok f.body := by
  obtain ⟨-, hb⟩ := offsets_le h
  show readBody (layout f) (if 0 < f.body.length then ofNat (bodyAt f) else 0) = _
  have hat : (ofNat (bodyAt f)).toNat = bodyAt f := (toNat_offset hb).1
  by_cases hpos : 0 < f.body.length
  · have hoff : 0 < ofNat (bodyAt f) := by
      rw [lt_iff_toNat_lt, hat]
      exact Nat.lt_of_lt_of_le (errmAt_pos f) (by unfold bodyAt cookieAt nkeyAt pkeyAt; omega)
    rw [if_pos hpos, readBody_ok_iff, if_pos hoff, hat, layout_body, length_append,
      length_preBody, drop_left' (length_preBody f)]
    exact ⟨Nat.le_add_right .., rfl⟩
  · rw [if_neg hpos, eq_nil_of_length_eq_zero (by omega : f.body.length = 0)]
    rfl

lemma decodeFrame_layout (h : Accepted f) : decodeFrame (layout f) = (do
    let errMsg ← readSzoff (layout f) (szoffLen f.errMsg) (szoffOff f.errMsg (errmAt f))
    let pkey ← readSzoff (layout f) (szoffLen f.pkey) (szoffOff f.pkey (pkeyAt f))
    let nkey ← readSzoff (layout f) (szoffLen f.nkey) (szoffOff f.nkey (nkeyAt f))
    return ⟨header f, f.navis, errMsg, pkey, nkey, f.cookie, f.body, 0⟩) := by
  have hmin : ¬ (layout f).length < HdrSize := by
    rw [length_layout]
    unfold FrameInput.size
    omega
  have hhdr : slice (layout f) 0 HdrSize = written (header f).fields :=
    slice_append (a := []) rfl (length_written_fields _)
  have hlength : (header f).length.toNat = (layout f).length := by
    rw [length_layout]
    exact (toNat_offset h.2.2.2).1
  have hcookie : readCookie (layout f) (header f).coffZipf (header f).coffOff = .ok f.cookie :=
    readCookie_layout h
  unfold decodeFrame
  rw [hhdr, decodeHeader_written (narrow_header h)]
  simp only [if_neg hmin, bind, Except.bind, pure, Except.pure, hlength, ne_eq, not_true_eq_false,
    if_false, readNavis_layout f h, hcookie, readBody_layout h]
  rfl

structure Agrees (f : FrameInput) (df : DecodedFrame) : Prop where
  navis : df.navis = f.navis
  errMsg : df.errMsg = f.errMsg
  pkey : df.pkey = f.pkey
  nkey : df.nkey = f.nkey
  cookie : df.cookie = f.cookie
  body : df.body = f.body
  func : df.header.func = f.func
  subc : df.header.subc = f.subc
  dirf : df.header.dirf = f.dirf
  keyc : df.header.keyc = f.keyc
  ctlf : df.header.ctlf = f.ctlf
  ckey : df.header.ckey = f.ckey
  clid : df.header.clid = f.clid
  wkey : df.header.wkey = f.wkey
  chan : df.header.chan = f.chan
  traceID : df.header.traceID = f.traceID
  errn : df.header.errn = f.errn
  xchg : df.header.xchg.toList = f.xchg.take 8 ++ List.replicate (8 - f.xchg.length) 0
  rkey : df.header.rkey.toList = f.rkey.take 16 ++ List.replicate (16 - f.rkey.length) 0
  msgf : df.header.msgf = if f.errMsg ≠ [] then f.msgf ||| MsgfErr else f.msgf

def RoundTrip (f : FrameInput) : Prop :=
  ∃ frame df, encodeFrame f = .ok frame ∧ decodeFrame frame = .ok df ∧ Agrees f df

lemma agrees_header (f : FrameInput) (zipf : UInt8) :
    Agrees f ⟨header f, f.navis, f.errMsg, f.pkey, f.nkey, f.cookie, f.body, zipf⟩ := by
  refine ⟨rfl, rfl, rfl, rfl, rfl, rfl, rfl, rfl, rfl, rfl, rfl, rfl, rfl, rfl, rfl, rfl, rfl, rfl, rfl,
    ?_⟩
  show (if 0 < f.errMsg.length then f.msgf ||| MsgfErr else f.msgf) = _
  simp only [length_pos_iff]

section

variable (h : Accepted f)
include h

lemma roundTrip_iff : RoundTrip f ↔
    readSzoff (layout f) (szoffLen f.errMsg) (szoffOff f.errMsg (errmAt f)) = .ok f.errMsg ∧
    readSzoff (layout f) (szoffLen f.pkey) (szoffOff f.pkey (pkeyAt f)) = .ok f.pkey ∧
    readSzoff (layout f) (szoffLen f.nkey) (szoffOff f.nkey (nkeyAt f)) = .ok f.nkey := by
  constructor
  · rintro ⟨frame, df, henc, hdec, ha⟩
    rw [encodeFrame_eq f h] at henc
    obtain rfl := Except.ok.inj henc
    rw [decodeFrame_layout h] at hdec
    simp only [Lzo.bind_eq_ok] at hdec
    obtain ⟨v1, h1, v2, h2, v3, h3, hdf⟩ := hdec
    cases hdf
    rw [h1, h2, h3, ha.errMsg.symm, ha.pkey.symm, ha.nkey.symm]
    exact ⟨rfl, rfl, rfl⟩
  · rintro ⟨h1, h2, h3⟩
    refine ⟨layout f, _, encodeFrame_eq f h, ?_, agrees_header f 0⟩
    rw [decodeFrame_layout h, h1, h2, h3]
    rfl

lemma errMsg_short (hr : RoundTrip f) : f.errMsg.length < 2 ^ 16 := by
  by_contra hlong
  obtain ⟨h1, -⟩ := (roundTrip_iff h).mp hr
  have hlen : (szoffLen f.errMsg).toNat < f.errMsg.length := by
    rw [szoffLen, if_pos (by omega), UInt16.toNat_ofNat']
    omega
  have hread := congrArg length (readSzoff_ok_iff.mp h1).2
  split_ifs at hread
  · simp only [slice, length_take] at hread
    omega
  · rw [length_nil] at hread
    omega

/-- The section `bs` at `off` is where its 16-bit offset says, or bytes equal to it are. -/
def Found (f : FrameInput) (off : ℕ) (bs : Bytes) : Prop :=
  bs = [] ∨ off < 2 ^ 16 ∨
    (0 < off % 2 ^ 16 ∧ slice (layout f) (off % 2 ^ 16) bs.length = bs)

/-- Error message and keys lie where 16 bits reach. -/
def Fits (f : FrameInput) : Prop :=
  f.errMsg.length < 2 ^ 16 ∧ (f.pkey = [] ∨ pkeyAt f < 2 ^ 16) ∧ (f.nkey = [] ∨ nkeyAt f < 2 ^ 16)

def SameSizes (f g : FrameInput) : Prop :=
  g.navis.length = f.navis.length ∧ g.errMsg.length = f.errMsg.length ∧
    g.pkey.length = f.pkey.length ∧ g.nkey.length = f.nkey.length ∧
    g.cookie.isSome = f.cookie.isSome ∧ g.body.length = f.body.length

lemma readErrm (hs : f.errMsg.length < 2 ^ 16) :
    readSzoff (layout f) (szoffLen f.errMsg) (szoffOff f.errMsg (errmAt f)) = .ok f.errMsg := by
  have hvia : MaxVia = 16 := rfl
  have hat : errmAt f < 2 ^ 16 := by
    have := h.1
    show 100 + 32 * f.navis.length < 2 ^ 16
    omega
  rw [layout_errm, ← length_preErrm]
  refine (readSzoff_iff ?_ hs).mpr (.inr (.inl ?_))
  · rw [length_preErrm]; exact errmAt_pos f
  · rw [length_preErrm]; exact hat

lemma readPkey_iff :
    readSzoff (layout f) (szoffLen f.pkey) (szoffOff f.pkey (pkeyAt f)) = .ok f.pkey ↔
      Found f (pkeyAt f) f.pkey := by
  have hkey : f.pkey.length < 2 ^ 16 := lt_of_le_of_lt h.2.1 (by decide)
  have hpos := errmAt_pos f
  rw [Found, layout_pkey, ← length_prePkey]
  refine readSzoff_iff ?_ hkey
  rw [length_prePkey, pkeyAt]
  omega

lemma readNkey_iff :
    readSzoff (layout f) (szoffLen f.nkey) (szoffOff f.nkey (nkeyAt f)) = .ok f.nkey ↔
      Found f (nkeyAt f) f.nkey := by
  have hkey : f.nkey.length < 2 ^ 16 := lt_of_le_of_lt h.2.2.1 (by decide)
  have hpos := errmAt_pos f
  rw [Found, layout_nkey, ← length_preNkey]
  refine readSzoff_iff ?_ hkey
  rw [length_preNkey, nkeyAt, pkeyAt]
  omega

lemma roundTrip_iff_found : RoundTrip f ↔
    f.errMsg.length < 2 ^ 16 ∧ Found f (pkeyAt f) f.pkey ∧ Found f (nkeyAt f) f.nkey := by
  constructor
  · intro hr
    obtain ⟨-, h2, h3⟩ := (roundTrip_iff h).mp hr
    exact ⟨errMsg_short h hr, (readPkey_iff h).mp h2, (readNkey_iff h).mp h3⟩
  · rintro ⟨h1, h2, h3⟩
    exact (roundTrip_iff h).mpr ⟨readErrm h h1, (readPkey_iff h).mpr h2, (readNkey_iff h).mpr h3⟩

end

namespace SameSizes

variable {g : FrameInput}

lemma accepted (hs : SameSizes f g) (h : Accepted f) : Accepted g := by
  obtain ⟨hn, he, hp, hk, hc, hb⟩ := hs
  obtain ⟨h1, h2, h3, h4⟩ := h
  refine ⟨by omega, by omega, by omega, ?_⟩
  unfold FrameInput.size at h4 ⊢
  rw [hn, he, hp, hk, hc, hb]
  exact h4

lemma fits (hs : SameSizes f g) (h : Fits f) : Fits g := by
  obtain ⟨hn, he, hp, hk, -, -⟩ := hs
  simp only [Fits, nkeyAt, pkeyAt, errmAt, ← length_eq_zero_iff] at h ⊢
  rw [hn, he, hp, hk]
  exact h

end SameSizes

/-- The frame with other keys. -/
def withKeys (f : FrameInput) (pkey nkey : Bytes) : FrameInput :=
  { f with pkey := pkey, nkey := nkey }

section

variable {pkey nkey : Bytes} (hp : pkey.length = f.pkey.length) (hn : nkey.length = f.nkey.length)
include hp hn

lemma sameSizes_withKeys : SameSizes f (withKeys f pkey nkey) := ⟨rfl, rfl, hp, hn, rfl, rfl⟩

lemma prePkey_withKeys : prePkey (withKeys f pkey nkey) = prePkey f := by
  have hheader : header (withKeys f pkey nkey) = header f := by
    simp only [header, withKeys, FrameInput.size, cookieAt, nkeyAt, pkeyAt, errmAt, bodyAt,
      szoffLen, szoffOff, hp, hn]
    rfl
  simp only [prePkey, preErrm, hheader]
  rfl

end

lemma exists_ne_byte (x : Option UInt8) : ∃ b : UInt8, some b ≠ x := by
  by_cases h : x = some 0
  · exact ⟨1, by rw [h]; decide⟩
  · exact ⟨0, Ne.symm h⟩

lemma exists_lost_replicate {a : Bytes} {n : ℕ} (hn : n < 2 ^ 16) (hpos : 0 < n)
    (ha : 2 ^ 16 ≤ a.length) {g : UInt8 → FrameInput} (hg : ∀ b, SameSizes f (g b))
    (hread : ∀ b, RoundTrip (g b) → ∃ c, readSzoff (a ++ (replicate n b ++ c))
      (szoffLen (replicate n b)) (szoffOff (replicate n b) a.length) =
        .ok (replicate n b)) : ∃ g, SameSizes f g ∧ ¬ RoundTrip g := by
  obtain ⟨b, hb⟩ := exists_ne_byte a[a.length % 2 ^ 16]?
  refine ⟨g b, hg b, fun hr => ?_⟩
  obtain ⟨c, h⟩ := hread b hr
  have hlen : (replicate n b).length = n := length_replicate
  have hhead := head_of_readSzoff (by omega) (ne_nil_of_length_pos (by omega)) ha h
  rw [head?_replicate, if_neg (by omega)] at hhead
  exact hb hhead

lemma exists_lost_pkey (h : Accepted f) (hne : f.pkey ≠ []) (hat : 2 ^ 16 ≤ pkeyAt f) :
    ∃ g, SameSizes f g ∧ ¬ RoundTrip g := by
  have hsame := fun b => sameSizes_withKeys (f := f) (length_replicate (a := b)) rfl
  rw [← length_prePkey] at hat
  refine exists_lost_replicate (lt_of_le_of_lt h.2.1 (by decide)) (length_pos_iff.mpr hne) hat
    hsame fun b hr => ?_
  obtain ⟨-, h2, -⟩ := (roundTrip_iff ((hsame b).accepted h)).mp hr
  rw [layout_pkey, ← length_prePkey, prePkey_withKeys length_replicate rfl] at h2
  exact ⟨_, h2⟩

lemma exists_lost_nkey (h : Accepted f) (hne : f.nkey ≠ []) (hat : 2 ^ 16 ≤ nkeyAt f) :
    ∃ g, SameSizes f g ∧ ¬ RoundTrip g := by
  have hsame := fun b => sameSizes_withKeys (f := f) rfl (length_replicate (a := b))
  rw [← length_preNkey] at hat
  refine exists_lost_replicate (lt_of_le_of_lt h.2.2.1 (by decide)) (length_pos_iff.mpr hne) hat
    hsame fun b hr => ?_
  obtain ⟨-, -, h3⟩ := (roundTrip_iff ((hsame b).accepted h)).mp hr
  rw [layout_nkey, ← length_preNkey, preNkey, prePkey_withKeys rfl length_replicate] at h3
  exact ⟨_, h3⟩

lemma exists_lost (h : Accepted f) (hfit : ¬ Fits f) : ∃ g, SameSizes f g ∧ ¬ RoundTrip g := by
  by_cases he : f.errMsg.length < 2 ^ 16
  swap
  · exact ⟨f, ⟨rfl, rfl, rfl, rfl, rfl, rfl⟩, fun hr => he (errMsg_short h hr)⟩
  by_cases hp : f.pkey = [] ∨ pkeyAt f < 2 ^ 16
  swap
  · rw [not_or, Nat.not_lt] at hp
    exact exists_lost_pkey h hp.1 hp.2
  have hk : ¬ (f.nkey = [] ∨ nkeyAt f < 2 ^ 16) := fun hk => hfit ⟨he, hp, hk⟩
  rw [not_or, Nat.not_lt] at hk
  exact exists_lost_nkey h hk.1 hk.2

lemma roundTrip_of_fits (h : Accepted f) (hfit : Fits f) : RoundTrip f := by
  obtain ⟨he, hp, hk⟩ := hfit
  refine (roundTrip_iff_found h).mpr ⟨he, ?_, ?_⟩
  · exact hp.imp_right .inl
  · exact hk.imp_right .inl

/-- **Which frames survive**: those with a short error message whose keys are found; and all frames
of some section lengths exactly if the keys begin below `2 ^ 16`. -/
theorem frame_round_trip_iff (f : FrameInput) (h : ∃ frame, encodeFrame f = .ok frame) :
    (RoundTrip f ↔
      f.errMsg.length < 2 ^ 16 ∧ Found f (pkeyAt f) f.pkey ∧ Found f (nkeyAt f) f.nkey) ∧
    ((∀ g, SameSizes f g → RoundTrip g) ↔ Fits f) := by
  obtain ⟨frame, henc⟩ := h
  have ha := accepted_of_encodeFrame f henc
  refine ⟨roundTrip_iff_found ha, fun hall => ?_, fun hfit g hs => ?_⟩
  · by_contra hfit
    obtain ⟨g, hs, hg⟩ := exists_lost ha hfit
    exact hg (hall g hs)
  · exact roundTrip_of_fits (hs.accepted ha) (hs.fits hfit)

def errorFrame (errMsg : Bytes) : FrameInput where
  func := 1
  subc := 0
  dirf := 2
  keyc := 0
  msgf := 0
  ctlf := 0
  xchg := [80, 82, 73, 67, 69]
  rkey := []
  ckey := 7
  clid := 1
  wkey := padCopy 8 []
  chan := padCopy 4 []
  traceID := padCopy TraceIDSize []
  navis := []
  errn := 9
  errMsg := errMsg
  pkey := []
  nkey := []
  cookie := none
  body := []

lemma accepted_errorFrame {errMsg : Bytes} (h : errMsg.length ≤ 2000000) :
    Accepted (errorFrame errMsg) := by
  refine ⟨Nat.zero_le _, Nat.zero_le _, Nat.zero_le _, ?_⟩
  show 100 + 0 + errMsg.length + 0 + 0 + 0 + 0 ≤ 2097408
  omega

theorem frame_round_trip_short_error :
    (∃ frame, encodeFrame (errorFrame [111, 111, 112, 115]) = .ok frame) ∧
      RoundTrip (errorFrame [111, 111, 112, 115]) := by
  have henc : ∃ frame, encodeFrame (errorFrame [111, 111, 112, 115]) = .ok frame :=
    ⟨_, encodeFrame_eq _ (accepted_errorFrame (by decide))⟩
  exact ⟨henc, (frame_round_trip_iff _ henc).1.mpr ⟨by decide, .inl rfl, .inl rfl⟩⟩

theorem frame_loses_long_error :
    ∃ frame df, encodeFrame (errorFrame (List.replicate (2 ^ 16) 69)) = .ok frame ∧
      decodeFrame frame = .ok df ∧ df.errMsg = [] ∧
      (errorFrame (List.replicate (2 ^ 16) 69)).errMsg ≠ [] := by
  have hlen : (replicate (2 ^ 16) (69 : UInt8)).length = 2 ^ 16 := length_replicate
  have ha := accepted_errorFrame (by omega : (replicate (2 ^ 16) (69 : UInt8)).length ≤ 2000000)
  have hzero : szoffLen (errorFrame (replicate (2 ^ 16) 69)).errMsg = 0 := by
    show (if 0 < (replicate (2 ^ 16) (69 : UInt8)).length then
      UInt16.ofNat (replicate (2 ^ 16) (69 : UInt8)).length else 0) = 0
    rw [hlen]
    decide
  have herr : ∀ off, readSzoff (layout (errorFrame (replicate (2 ^ 16) 69))) 0 off = .ok [] :=
    fun off => by simp [readSzoff]
  have hdec := decodeFrame_layout ha
  rw [hzero, herr] at hdec
  refine ⟨_, _, encodeFrame_eq _ ha, hdec, ?_, ?_⟩
  · rfl
  · exact ne_nil_of_length_pos (by
      show 0 < (replicate (2 ^ 16) (69 : UInt8)).length
      omega)

end Wtg.Mymq.FrameRoundTrip
