import Wtg.Mymq.FrameRoundTrip

/-! # The read loop

`readLoop` of `pkg/mymq/client.go` on the bytes of one connection: which frames reach `dispatch`,
and why the loop ends. -/

namespace Wtg.Mymq.ReadLoop

open Lib.Buffer Mymq.Codec Mymq.Frame Mymq.FrameRoundTrip List

/-- What `storeReadErr` is told. -/
inductive ReadErr
  | eof
  | unexpectedEOF
  | invalidLength (n : ℕ)
  | tooLarge (n : ℕ)

/-- The error of `io.ReadFull` when it gets too few bytes. -/
def short (got : ℕ) : ReadErr := if got = 0 then .eof else .unexpectedEOF

def readLoop (input : Bytes) : List DecodedFrame × ReadErr :=
  if input.length < 4 then ([], short input.length)
  else
    let length := (getU32 (input.take 4)).toNat
    if length < 4 then ([], .invalidLength length)
    -- a heartbeat
    else if length = 4 then readLoop (input.drop 4)
    else if MaxMsgSize < length then ([], .tooLarge length)
    else if input.length < length then ([], short (input.length - 4))
    else
      let next := readLoop (input.drop length)
      match decodeFrame (input.take length) with
      | .error _ => next
      | .ok df => (df :: next.1, next.2)
termination_by input.length
decreasing_by all_goals simp only [length_drop]; omega

/-- What a client writes: heartbeats and frames. -/
def Written (b : Bytes) : Prop := b = putU32 4 ∨ ∃ f, encodeFrame f = .ok b

variable {b : Bytes}

lemma Written.length_eq (h : Written b) :
    4 ≤ b.length ∧ b.length ≤ MaxMsgSize ∧ (getU32 (b.take 4)).toNat = b.length := by
  rcases h with rfl | ⟨f, hf⟩
  · decide
  · have ha := accepted_of_encodeFrame f hf
    rw [encodeFrame_eq f ha] at hf
    obtain rfl := Except.ok.inj hf
    have hfirst : layout f = putU32 (header f).length ++ _ := append_assoc ..
    have hmin : 100 ≤ f.size := by
      unfold FrameInput.size HdrSize
      omega
    have hmax : f.size ≤ 1024 * 2048 + 256 := ha.2.2.2
    have hlen : (header f).length = .ofNat f.size := rfl
    rw [length_layout, hfirst, take_left' (length_putU32 _), getU32_putU32, hlen,
      UInt32.toNat_ofNat']
    exact ⟨by omega, hmax, by omega⟩

lemma readLoop_append (hb : Written b) (rest : Bytes) :
    readLoop (b ++ rest) =
      ((decodeFrame b).toOption.toList ++ (readLoop rest).1, (readLoop rest).2) := by
  obtain ⟨hmin, hmax, hlen⟩ := hb.length_eq
  have hlong : b.length ≤ (b ++ rest).length := length_append ▸ Nat.le_add_right _ _
  rw [readLoop, if_neg (by omega)]
  simp only [take_append_of_le_length hmin, hlen, take_left, drop_left, not_lt.mpr hmin,
    not_lt.mpr hmax, not_lt.mpr hlong, if_false]
  split_ifs with h4
  · have hshort : decodeFrame b = .error .frameTooShort := by
      rw [decodeFrame, if_pos (h4 ▸ by decide)]
      rfl
    rw [hshort, drop_left' h4]
    rfl
  · cases decodeFrame b <;> rfl

lemma readLoop_take (hb : Written b) {n : ℕ} (hn : n < b.length) :
    readLoop (b.take n) = ([], short (if n < 4 then n else n - 4)) := by
  obtain ⟨hmin, hmax, hlen⟩ := hb.length_eq
  rw [readLoop, length_take_of_le hn.le]
  split_ifs with h4
  · rfl
  · simp only [take_take, min_eq_left (not_lt.mp h4), hlen, not_lt.mpr hmin, not_lt.mpr hmax, hn,
      if_false, if_true]
    rw [if_neg (by omega)]

/-- **The loop stays in step**: wherever the connection ends, what is handed to `dispatch` are the
frames that came whole, each decoded on its own. -/
theorem readLoop_cut {bs : List Bytes} (hbs : ∀ b ∈ bs, Written b) (hb : Written b) {n : ℕ}
    (hn : n < b.length) : readLoop (bs.flatten ++ b.take n) =
      (bs.filterMap fun b => (decodeFrame b).toOption, short (if n < 4 then n else n - 4)) := by
  induction bs with
  | nil => exact readLoop_take hb hn
  | cons b' bs ih =>
    obtain ⟨hb', hrest⟩ := forall_mem_cons.mp hbs
    rw [flatten_cons, append_assoc, readLoop_append hb', ih hrest, filterMap_cons]
    cases decodeFrame b' <;> rfl

/-- A frame, a heartbeat, and a frame that breaks off after 50 bytes. -/
theorem readLoop_cut_frame : ∃ frame df,
    encodeFrame (errorFrame [111, 111, 112, 115]) = .ok frame ∧ decodeFrame frame = .ok df ∧
      readLoop ([frame, putU32 4].flatten ++ frame.take 50) = ([df], .unexpectedEOF) := by
  have haccepted : Accepted (errorFrame [111, 111, 112, 115]) := accepted_errorFrame (by decide)
  obtain ⟨frame, df, henc, hdec, -⟩ := roundTrip_of_fits haccepted ⟨by decide, .inl rfl, .inl rfl⟩
  have hlong : 50 < frame.length := by
    obtain rfl := Except.ok.inj ((encodeFrame_eq _ haccepted).symm.trans henc)
    rw [length_layout]
    decide
  have hheartbeat : decodeFrame (putU32 4) = .error .frameTooShort := rfl
  have hframe : Written frame := .inr ⟨_, henc⟩
  have hbs : ∀ b ∈ [frame, putU32 4], Written b := by
    rintro b (_ | ⟨_, _ | ⟨_, ⟨⟩⟩⟩)
    · exact hframe
    · exact .inl rfl
  refine ⟨frame, df, henc, hdec, (readLoop_cut hbs hframe hlong).trans ?_⟩
  rw [filterMap_cons, hdec, filterMap_cons, hheartbeat]
  rfl

end Wtg.Mymq.ReadLoop
