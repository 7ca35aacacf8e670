import Wtg.Mymq.Dispatch

/-! # The LZO1X decoder on any input

`decompressLZO1X` is total in the model. On every input it stays inside its two buffers, a match
copies only bytes that are already written, and what it accepts has the declared size and ends at
the end marker (`decompressLZO1X_safe`). `Decompress` honours the declared size with LZO1X, and with
zlib only if the stream does (`decompress_size_iff`). -/

namespace Wtg.Mymq.LzoSafety

open Lib.Buffer Mymq.Codec Mymq.Lzo Mymq.Dispatch List

def copyWritten : ℕ → ℕ → Cursor → Except LzoErr Cursor
  | 0, _, s => .ok s
  | n + 1, mp, s =>
    if s.op ≤ mp then .error .outOfRange
    else match s.out[mp]? with
      | none => .error .outOfRange
      | some b =>
        if s.op < s.out.length then
          copyWritten n (mp + 1) { s with op := s.op + 1, out := s.out.set s.op b }
        else .error .outOfRange

def copyMatchWritten (dist cnt : ℕ) (s : Cursor) : Except LzoErr Cursor :=
  if s.op < dist ∨ s.out.length < s.op + cnt then .error .corrupt
  else copyWritten cnt (s.op - dist) s

lemma copyWritten_eq : ∀ {n mp : ℕ} {s : Cursor}, mp < s.op →
    copyWritten n mp s = copyBytes n mp s
  | 0, _, _, _ => rfl
  | n + 1, mp, s, h => by
    rw [copyWritten, copyBytes, if_neg (by omega)]
    rcases s.out[mp]? with _ | b
    · rfl
    · simp only
      split_ifs
      · exact copyWritten_eq (Nat.succ_lt_succ h)
      · rfl

lemma copyMatchWritten_eq {dist : ℕ} (hd : 1 ≤ dist) (cnt : ℕ) (s : Cursor) :
    copyMatchWritten dist cnt s = copyMatch dist cnt s := by
  unfold copyMatchWritten copyMatch
  split_ifs with h
  · rfl
  · exact copyWritten_eq (by omega)

/-! ## Every access is in bounds -/

section

variable (inp : Bytes) (origSize : ℕ)

lemma stepWith_copyMatchWritten (s : Cursor) (state : ℕ) :
    stepWith inp origSize copyMatchWritten s state = step inp origSize s state := by
  have hput : ∀ {dist : ℕ}, 1 ≤ dist → ∀ cnt trailSrc s,
      putMatchWith inp copyMatchWritten dist cnt trailSrc s =
        putMatchWith inp copyMatch dist cnt trailSrc s := by
    intro dist hd cnt trailSrc s
    rw [putMatchWith, copyMatchWritten_eq hd, putMatchWith]
  unfold step stepWith
  simp (disch := omega) only [hput]

/-- The cursors lie within the input and the output, which has the declared size. -/
structure InBounds (s : Cursor) : Prop where
  ip : s.ip ≤ inp.length
  op : s.op ≤ s.out.length
  length : s.out.length = origSize

def Fine {α : Type} (P : α → Prop) : Except LzoErr α → Prop
  | .ok a => P a
  | .error e => e ≠ .outOfRange

lemma Fine.bind {α β : Type} {P : α → Prop} {Q : β → Prop} {x : Except LzoErr α}
    {f : α → Except LzoErr β} (hx : Fine P x) (hf : ∀ a, x = .ok a → P a → Fine Q (f a)) :
    Fine Q (x >>= f) := by
  cases x with
  | error e => exact hx
  | ok a => exact hf a rfl hx

/-- The cursor after the end marker at `s`: a length that is not used, and a distance. -/
def endOfStream (s : Cursor) : Except LzoErr Cursor := do
  let (t, s) ← readU8 inp s
  let (_, s) ← readLen inp origSize (t &&& 7) 7 s
  let (_, s) ← readU8 inp s
  let (_, s) ← readU8 inp s
  return s

def RoundFine (s : Cursor) : Round → Prop
  | .again s' _ => InBounds inp origSize s'
  | .done out => out.length = origSize ∧
      endOfStream inp origSize s = .ok ⟨inp.length, out.length, out⟩

variable {inp origSize} {s : Cursor}

lemma readU8_fine (h : InBounds inp origSize s) :
    Fine (fun r => InBounds inp origSize r.2) (readU8 inp s) := by
  unfold readU8
  split_ifs with hlen
  · exact fun h => nomatch h
  · rw [getElem?_eq_getElem (not_le.mp hlen)]
    exact ⟨not_le.mp hlen, h.op, h.length⟩

lemma extendLen_fine (base t : ℕ) {s : Cursor} (h : InBounds inp origSize s) :
    Fine (fun r => InBounds inp origSize r.2) (extendLen inp origSize base t s) := by
  have hread := readU8_fine h
  rw [extendLen]
  split
  · rename_i e he
    rwa [he] at hread
  · rename_i b s₁ hb
    rw [hb] at hread
    split_ifs
    · exact fun h => nomatch h
    · obtain ⟨hlt, hip⟩ := readU8_ip inp hb
      exact extendLen_fine base (t + 255) hread
    · exact hread
termination_by inp.length - s.ip

lemma readLen_fine (cnt base : ℕ) (h : InBounds inp origSize s) :
    Fine (fun r => InBounds inp origSize r.2) (readLen inp origSize cnt base s) := by
  unfold readLen
  split_ifs
  · exact extendLen_fine base 0 h
  · exact h

lemma copyLit_fine (cnt : ℕ) (h : InBounds inp origSize s) :
    Fine (InBounds inp origSize) (copyLit inp cnt s) := by
  unfold copyLit
  split_ifs with hroom
  · exact fun h => nomatch h
  · rw [not_or, not_lt, not_lt] at hroom
    have hslice : (slice inp s.ip cnt).length = cnt := length_slice hroom.1
    have hout : (write s.out s.op (slice inp s.ip cnt)).length = s.out.length :=
      length_write (by omega)
    exact ⟨hroom.1, hout.symm ▸ hroom.2, hout.trans h.length⟩

lemma copyBytes_fine : ∀ {n mp : ℕ} {s : Cursor}, mp < s.op → s.op + n ≤ s.out.length →
    InBounds inp origSize s → Fine (InBounds inp origSize) (copyBytes n mp s)
  | 0, _, _, _, _, h => h
  | n + 1, mp, s, hmp, hn, h => by
    rw [copyBytes, getElem?_eq_getElem (by omega)]
    simp only
    rw [if_pos (by omega)]
    have hset : ∀ b, (s.out.set s.op b).length = s.out.length := fun b => length_set
    refine copyBytes_fine (Nat.succ_lt_succ hmp) ?_ ⟨h.ip, ?_, (hset _).trans h.length⟩
    · show s.op + 1 + n ≤ (s.out.set s.op _).length
      rw [hset]
      omega
    · show s.op + 1 ≤ (s.out.set s.op _).length
      rw [hset]
      omega

lemma putMatch_fine {dist : ℕ} (hd : 1 ≤ dist) (cnt trailSrc : ℕ) (h : InBounds inp origSize s)
    {s₀ : Cursor} : Fine (RoundFine inp origSize s₀) (putMatch inp dist cnt trailSrc s) := by
  have hcopy : Fine (InBounds inp origSize) (copyMatch dist cnt s) := by
    unfold copyMatch
    split_ifs with hroom
    · exact fun h => nomatch h
    · exact copyBytes_fine (by omega) (by omega) h
  refine hcopy.bind fun s₁ _ h₁ => ?_
  have htrail : Fine (InBounds inp origSize) (copyTrail inp (trailSrc &&& 3) s₁) := by
    unfold copyTrail
    split_ifs
    · exact copyLit_fine _ h₁
    · exact h₁
  exact htrail.bind fun s₂ _ h₂ => h₂

lemma finish_fine {s₀ : Cursor} (hend : endOfStream inp origSize s₀ = .ok s)
    (h : InBounds inp origSize s) : Fine (RoundFine inp origSize s₀) (finish inp s) := by
  unfold finish
  split_ifs with hip hop
  · exact fun h => nomatch h
  · exact fun h => nomatch h
  · refine ⟨h.length, ?_⟩
    rw [hend, ← not_not.mp hip, ← not_not.mp hop]

lemma step_fine (h : InBounds inp origSize s) (state : ℕ) :
    Fine (RoundFine inp origSize s) (step inp origSize s state) := by
  refine (readU8_fine h).bind fun ⟨t, s₁⟩ ht h₁ => ?_
  dsimp only at h₁ ⊢
  split_ifs
  · refine (readLen_fine t 15 h₁).bind fun ⟨cnt, s₂⟩ _ h₂ => ?_
    exact (copyLit_fine (cnt + 3) h₂).bind fun s₃ _ h₃ => h₃
  · exact (readU8_fine h₁).bind fun ⟨b2, s₂⟩ _ h₂ => putMatch_fine (by omega) 3 t h₂
  · exact (readU8_fine h₁).bind fun ⟨b2, s₂⟩ _ h₂ => putMatch_fine (by omega) 2 t h₂
  · exact (readU8_fine h₁).bind fun ⟨b2, s₂⟩ _ h₂ => putMatch_fine (by omega) _ t h₂
  · refine (readLen_fine (t &&& 31) 31 h₁).bind fun ⟨cnt, s₂⟩ _ h₂ => ?_
    refine (readU8_fine h₂).bind fun ⟨ds1, s₃⟩ _ h₃ => ?_
    exact (readU8_fine h₃).bind fun ⟨ds2, s₄⟩ _ h₄ => putMatch_fine (by omega) (cnt + 2) ds1 h₄
  · refine (readLen_fine (t &&& 7) 7 h₁).bind fun ⟨cnt, s₂⟩ hlen h₂ => ?_
    refine (readU8_fine h₂).bind fun ⟨ds1, s₃⟩ hds1 h₃ => ?_
    refine (readU8_fine h₃).bind fun ⟨ds2, s₄⟩ hds2 h₄ => ?_
    dsimp only
    split_ifs
    · exact finish_fine (bind_eq_ok.mpr ⟨_, ht, bind_eq_ok.mpr ⟨_, hlen,
        bind_eq_ok.mpr ⟨_, hds1, bind_eq_ok.mpr ⟨_, hds2, rfl⟩⟩⟩⟩) h₄
    · exact putMatch_fine (by omega) (cnt + 2) ds1 h₄

end

def start (inp : Bytes) (origSize : ℕ) : Except LzoErr (Cursor × ℕ) :=
  match inp with
  | [] => .error .corrupt
  | b :: _ =>
    if 17 < b then do
      let s ← copyLit inp (b.toNat - 17) ⟨1, 0, List.replicate origSize 0⟩
      return (s, if b.toNat - 17 < 4 then b.toNat - 17 else 4)
    else .ok (⟨0, 0, List.replicate origSize 0⟩, 0)

/-- The states in which a round begins. -/
inductive Reached (inp : Bytes) (origSize : ℕ) : Cursor → ℕ → Prop
  | start {s : Cursor} {state : ℕ} (h : start inp origSize = .ok (s, state)) :
      Reached inp origSize s state
  | again {s s' : Cursor} {state state' : ℕ} (h : Reached inp origSize s state)
      (hstep : step inp origSize s state = .ok (.again s' state')) : Reached inp origSize s' state'

variable (inp : Bytes)

lemma decompressLZO1X_eq (origSize : UInt32) :
    decompressLZO1X inp origSize =
      if origSize = 0 ∨ MaxMsgSize < origSize.toNat then .error .corrupt
      else start inp origSize.toNat >>= fun r => loop inp origSize.toNat r.1 r.2 := by
  unfold decompressLZO1X start
  split_ifs
  · rfl
  rcases inp with _ | ⟨b, rest⟩
  · rfl
  simp only
  split
  · rcases copyLit (b :: rest) (b.toNat - 17) ⟨1, 0, replicate origSize.toNat 0⟩ with e | s
    · rfl
    · rfl
  · rfl

lemma start_fine (origSize : ℕ) :
    Fine (fun r => InBounds inp origSize r.1) (start inp origSize) := by
  unfold start
  rcases inp with _ | ⟨b, rest⟩
  · exact fun h => nomatch h
  have hlen : (replicate origSize (0 : UInt8)).length = origSize := length_replicate
  have hfirst : InBounds (b :: rest) origSize ⟨1, 0, replicate origSize 0⟩ :=
    ⟨Nat.succ_pos _, Nat.zero_le _, hlen⟩
  simp only
  split
  · exact (copyLit_fine _ hfirst).bind fun s _ h => h
  · exact ⟨Nat.zero_le _, Nat.zero_le _, hlen⟩

/-! ## Whole runs -/

section

variable {inp : Bytes} {origSize : ℕ} {s : Cursor} {state : ℕ}

lemma Reached.inBounds (h : Reached inp origSize s state) : InBounds inp origSize s := by
  induction h with
  | start h =>
    have hstart := start_fine inp origSize
    rwa [h] at hstart
  | @again s s' state state' h hstep ih =>
    have hround := step_fine ih state
    rwa [hstep] at hround

lemma Reached.loop {s : Cursor} {state : ℕ} (h : Reached inp origSize s state) :
    Fine (fun out => out.length = origSize ∧ ∃ s state, Reached inp origSize s state ∧
      endOfStream inp origSize s = .ok ⟨inp.length, out.length, out⟩) (loop inp origSize s state) := by
  have hround := step_fine h.inBounds state
  rw [Lzo.loop]
  split
  · rename_i e he
    rwa [he] at hround
  · rename_i out hout
    rw [hout] at hround
    exact ⟨hround.1, s, state, h, hround.2⟩
  · rename_i s' state' hagain
    obtain ⟨hlt, hip⟩ := step_ip inp origSize hagain
    exact (h.again hagain).loop
termination_by inp.length - s.ip

end

lemma decompressLZO1X_fine (origSize : UInt32) :
    Fine (fun out => out.length = origSize.toNat ∧ ∃ s state,
      Reached inp origSize.toNat s state ∧
        endOfStream inp origSize.toNat s = .ok ⟨inp.length, out.length, out⟩)
      (decompressLZO1X inp origSize) := by
  rw [decompressLZO1X_eq]
  split_ifs
  · exact fun h => nomatch h
  have hstart := start_fine inp origSize.toNat
  rcases hs : start inp origSize.toNat with e | ⟨s, state⟩
  · rwa [hs] at hstart
  · exact (Reached.start hs).loop

/-- **LZO1X safety.** -/
theorem decompressLZO1X_safe (inp : Bytes) (origSize : UInt32) :
    (∀ s state, Reached inp origSize.toNat s state → InBounds inp origSize.toNat s ∧
      stepWith inp origSize.toNat copyMatchWritten s state = step inp origSize.toNat s state) ∧
    decompressLZO1X inp origSize ≠ .error .outOfRange ∧
    ∀ out, decompressLZO1X inp origSize = .ok out → out.length = origSize.toNat ∧
      ∃ s state, Reached inp origSize.toNat s state ∧
        endOfStream inp origSize.toNat s = .ok ⟨inp.length, out.length, out⟩ := by
  have hfine := decompressLZO1X_fine inp origSize
  refine ⟨fun s state h => ⟨h.inBounds, stepWith_copyMatchWritten inp _ s state⟩, fun h => ?_,
    fun out h => ?_⟩
  · rw [h] at hfine
    exact hfine rfl
  · rwa [h] at hfine

def declaredSize (src : Bytes) : ℕ := (getU32 (slice src 0 4)).toNat

/-- **When `Decompress` honours the declared size**: always by LZO1X, and by zlib exactly if the
stream happens to inflate to that size. -/
theorem decompress_size_iff (zlib : Zlib) (src : Bytes) (zipf : UInt8)
    (hzipf : zipf = ZipfZlib ∨ zipf = ZipfMlzo) :
    (∀ out, decompress zlib src zipf = .ok out → out.length = declaredSize src) ↔
      zipf = ZipfMlzo ∨ src.length < 4 ∨
        ∀ out, zlib (src.drop 4) = .ok out → out.length = declaredSize src := by
  by_cases hshort : src.length < 4
  · have herr : decompress zlib src zipf = .error .truncatedCompressed := by
      rcases hzipf with rfl | rfl
      · rw [decompress, if_neg (by decide), if_pos hshort]
      · rw [decompress, if_neg (by decide), if_pos hshort]
    refine ⟨fun _ => .inr (.inl hshort), fun _ out h => ?_⟩
    cases herr.symm.trans h
  rcases hzipf with rfl | rfl
  · have hzlib : ∀ out, decompress zlib src ZipfZlib = .ok out ↔ zlib (src.drop 4) = .ok out := by
      intro out
      rw [decompress, if_neg (by decide), if_neg hshort, if_pos rfl, decompressZlib]
      rcases zlib (src.drop 4) with e | plain <;> simp
    simp only [hzlib, hshort, false_or, show ZipfZlib ≠ ZipfMlzo by decide]
  · refine ⟨fun _ => .inl rfl, fun _ out h => ?_⟩
    have hfine := decompressLZO1X_fine (src.drop 4) (getU32 (slice src 0 4))
    rw [decompress, if_neg (by decide), if_neg hshort, if_neg (by decide), if_pos rfl] at h
    split at h
    · cases h
    · rename_i plain hlzo
      cases h
      rw [hlzo] at hfine
      exact hfine.1

theorem decompress_size_iff_two :
    decompress (fun _ => .ok [7, 8]) [0, 0, 0, 2, 1] ZipfZlib = .ok [7, 8] ∧
      ([7, 8] : Bytes).length = declaredSize [0, 0, 0, 2, 1] := by
  have hrun : decompress (fun _ => .ok [7, 8]) [0, 0, 0, 2, 1] ZipfZlib = .ok [7, 8] := by decide
  refine ⟨hrun, (decompress_size_iff _ _ _ (.inl rfl)).mpr (.inr (.inr fun out h => ?_)) _ hrun⟩
  cases h
  decide

theorem decompress_zlib_longer :
    decompress (fun _ => .ok [7, 8, 9]) [0, 0, 0, 2, 1] ZipfZlib = .ok [7, 8, 9] ∧
      declaredSize [0, 0, 0, 2, 1] = 2 := by
  decide

end Wtg.Mymq.LzoSafety
