import Wtg.Lib.Numeral
import Wtg.Lib.Utf8
import Wtg.Mymq.FrameRoundTrip
import Wtg.QuoteId.Registry

/-! # The routing key of a profile's quotes

`MymqQuotePublisher.PublishQuote` sends the quotes of a profile under its key, which a frame holds
in a field of 16 bytes. Two profiles have different routing keys on the wire exactly if their keys
differ within it (`keys_differ_iff`). -/

namespace Wtg.Price.QuotePublisher

open Lib Lib.Buffer Mymq.Codec Mymq.Frame Mymq.FrameRoundTrip
open QuoteId.Registry (Profile)

variable {p q : Profile} {chan chan' : Fixed 4} {body body' frame frame' : Bytes}

def key (p : Profile) : String := p.channel ++ "." ++ p.site ++ "." ++ p.tier

def rKeyQuote (profileKey : String) : String := profileKey

/-- The frame of a quote, with the defaults of the client; `body` is the quote as JSON. -/
def quoteFrame (chan : Fixed 4) (profile : Profile) (body : Bytes) : FrameInput where
  func := 4
  subc := 0
  dirf := 5
  keyc := 0
  msgf := 0
  ctlf := 0
  xchg := Utf8.encode "QUOTE".toList
  rkey := Utf8.encode (rKeyQuote (key profile)).toList
  ckey := 0
  clid := 0
  wkey := padCopy 8 []
  chan := chan
  traceID := padCopy TraceIDSize []
  navis := []
  errn := 0
  errMsg := []
  pkey := []
  nkey := []
  cookie := none
  body := body

def publishQuote (chan : Fixed 4) (profile : Profile) (body : Bytes) : Except FrameErr Bytes :=
  encodeFrame (quoteFrame chan profile body)

/-- The routing key of a frame on the wire. -/
def wireKey (frame : Bytes) : Bytes := slice frame 20 LRkey

def keyBytes (p : Profile) : Bytes := Utf8.encode (key p).toList

/-- The key of the profile fills the field at most, and has no byte that pads it. -/
def Fits (p : Profile) : Prop := (keyBytes p).length ≤ LRkey ∧ 0 ∉ keyBytes p

def DotFree (p : Profile) : Prop :=
  '.' ∉ p.channel.toList ∧ '.' ∉ p.site.toList ∧ '.' ∉ p.tier.toList

instance (p : Profile) : Decidable (Fits p) := inferInstanceAs (Decidable (_ ∧ _))

instance (p : Profile) : Decidable (DotFree p) := inferInstanceAs (Decidable (_ ∧ _))

lemma wireKey_eq (h : publishQuote chan p body = .ok frame) :
    wireKey frame = (padCopy LRkey (keyBytes p)).toList := by
  have hlayout := encodeFrame_eq _ (accepted_of_encodeFrame _ h)
  obtain rfl : layout _ = frame := Except.ok.inj (hlayout.symm.trans h)
  have hfield : ∀ hdr : Header, (20, hdr.rkey.toList) ∈ hdr.fields := fun hdr => by
    simp [Header.fields]
  have hslice := slice_contiguous [] (naviBytes [] ++ tail (quoteFrame chan p body)) rfl
    (contiguous_fields _) (hfield (header (quoteFrame chan p body)))
  rwa [List.Vector.toList_length] at hslice

lemma padCopy_ne_iff {n : ℕ} {k k' : Bytes} :
    (padCopy n k).toList ≠ (padCopy n k').toList ↔ ∃ i < n, k.getD i 0 ≠ k'.getD i 0 := by
  have hget : ∀ (k : Bytes) {i : ℕ}, i < n → (padCopy n k).toList[i]? = some (k.getD i 0) := by
    intro k i hi
    show (k.take n ++ List.replicate (n - k.length) 0)[i]? = _
    by_cases hk : i < k.length
    · rw [List.getElem?_append_left (by rw [List.length_take]; omega),
        List.getElem?_take_of_lt hi, List.getD_eq_getElem?_getD, List.getElem?_eq_getElem hk,
        Option.getD_some]
    · have hlen : (k.take n).length = k.length := by rw [List.length_take]; omega
      rw [List.getElem?_append_right (by omega), List.getElem?_replicate, if_pos (by omega),
        List.getD_eq_getElem?_getD, List.getElem?_eq_none (by omega), Option.getD_none]
  rw [← not_iff_not, not_not]
  simp only [not_exists, not_and, not_not]
  constructor
  · intro h i hi
    rw [← Option.some_inj, ← hget k hi, ← hget k' hi, h]
  · intro h
    refine List.ext_getElem? fun i => ?_
    by_cases hi : i < n
    · rw [hget k hi, hget k' hi, h i hi]
    · rw [List.getElem?_eq_none (by simpa using hi), List.getElem?_eq_none (by simpa using hi)]

lemma eq_of_padCopy {n : ℕ} {k k' : Bytes} (hk : k.length ≤ n) (hk' : k'.length ≤ n) (h0 : 0 ∉ k)
    (h0' : 0 ∉ k') (h : (padCopy n k).toList = (padCopy n k').toList) : k = k' := by
  have hfilter : ∀ {k : Bytes}, k.length ≤ n → 0 ∉ k →
      (padCopy n k).toList.filter (· ≠ 0) = k := by
    intro k hk h0
    show (k.take n ++ List.replicate (n - k.length) 0).filter (· ≠ 0) = k
    rw [List.take_of_length_le hk, List.filter_append, List.filter_replicate]
    simpa using fun b hb => ne_of_mem_of_not_mem hb h0
  rw [← hfilter hk h0, h, hfilter hk' h0']

lemma key_inj (hp : DotFree p) (hq : DotFree q) (h : key p = key q) : p = q := by
  have hchars : p.channel.toList ++ '.' :: (p.site.toList ++ '.' :: p.tier.toList) =
      q.channel.toList ++ '.' :: (q.site.toList ++ '.' :: q.tier.toList) := by
    simpa [key] using congrArg String.toList h
  obtain ⟨hchannel, hrest⟩ := Numeral.sep_append_inj hp.1 hq.1 hchars
  obtain ⟨hsite, htier⟩ := Numeral.sep_append_inj hp.2.1 hq.2.1 hrest
  cases p
  cases q
  rw [Profile.mk.injEq]
  exact ⟨String.toList_inj.mp hchannel, String.toList_inj.mp hsite, String.toList_inj.mp htier⟩

/-- **When two profiles have different routing keys**: exactly if their keys differ within the first
16 bytes, with NUL for what is missing. Distinct profiles whose keys fit do. -/
theorem keys_differ_iff (h : publishQuote chan p body = .ok frame)
    (h' : publishQuote chan' q body' = .ok frame') :
    (wireKey frame ≠ wireKey frame' ↔ ∃ i < 16, (keyBytes p).getD i 0 ≠ (keyBytes q).getD i 0) ∧
      (DotFree p → DotFree q → p ≠ q → Fits p → Fits q → wireKey frame ≠ wireKey frame') := by
  rw [wireKey_eq h, wireKey_eq h']
  refine ⟨padCopy_ne_iff, fun hp hq hne hpfits hqfits heq => ?_⟩
  have hbytes := eq_of_padCopy hpfits.1 hqfits.1 hpfits.2 hqfits.2 heq
  have hkeys : (key p).toList = (key q).toList := by
    rw [← Option.some_inj, ← Utf8.decode_encode, ← keyBytes, hbytes, keyBytes, Utf8.decode_encode]
  exact hne (key_inj hp hq (String.toList_inj.mp hkeys))

def profileOf (tier : String) : Profile := ⟨"WEB", "BRANCH", tier⟩

lemma publishQuote_profileOf (tier : String) :
    publishQuote (padCopy 4 []) (profileOf tier) [] =
      .ok (layout (quoteFrame (padCopy 4 []) (profileOf tier) [])) :=
  encodeFrame_eq _ ⟨Nat.zero_le _, Nat.zero_le _, Nat.zero_le _, Nat.le_add_right 100 2097308⟩

/-- Two keys that are longer than the field and differ within it. -/
theorem keys_differ_iff_long : ∃ frame frame',
    publishQuote (padCopy 4 []) (profileOf "PLATINUM") [] = .ok frame ∧
      publishQuote (padCopy 4 []) (profileOf "PLAYERS") [] = .ok frame' ∧
      wireKey frame ≠ wireKey frame' := by
  have h := publishQuote_profileOf "PLATINUM"
  have h' := publishQuote_profileOf "PLAYERS"
  exact ⟨_, _, h, h', (keys_differ_iff h h').1.mpr ⟨14, by decide, by decide +kernel⟩⟩

theorem tiers_share_key : ∃ frame frame',
    publishQuote (padCopy 4 []) (profileOf "PLATINUM") [] = .ok frame ∧
      publishQuote (padCopy 4 []) (profileOf "PLATINA") [] = .ok frame' ∧
      wireKey frame = wireKey frame' := by
  have h := publishQuote_profileOf "PLATINUM"
  have h' := publishQuote_profileOf "PLATINA"
  refine ⟨_, _, h, h', ?_⟩
  rw [wireKey_eq h, wireKey_eq h']
  decide +kernel

end Wtg.Price.QuotePublisher
