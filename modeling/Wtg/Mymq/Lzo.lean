import Wtg.Mymq.Codec

/-! # The LZO1X decoder

`decompressLZO1X` of `pkg/mymq/lzo.go`. The decoder keeps two cursors: `ip` into the compressed
input and `op` into the output buffer, which has the declared size from the start. -/

namespace Wtg.Mymq.Lzo

open Lib.Buffer Mymq.Codec

inductive LzoErr
  | corrupt
  | outputMismatch
  | outOfRange
deriving DecidableEq, Repr

structure Cursor where
  ip : ℕ
  op : ℕ
  out : Bytes
deriving DecidableEq

/-! ## Reading and copying -/

section

variable (inp : Bytes) (origSize : ℕ)

def readU8 (s : Cursor) : Except LzoErr (ℕ × Cursor) :=
  if inp.length ≤ s.ip then .error .corrupt
  else match inp[s.ip]? with
    | none => .error .outOfRange
    | some b => .ok (b.toNat, { s with ip := s.ip + 1 })

variable {s s' : Cursor}

lemma readU8_ip {b : ℕ} (h : readU8 inp s = .ok (b, s')) :
    s.ip < inp.length ∧ s'.ip = s.ip + 1 := by
  unfold readU8 at h
  split at h
  · cases h
  · split at h
    · cases h
    · cases h
      exact ⟨by omega, rfl⟩

def extendLen (base t : ℕ) (s : Cursor) : Except LzoErr (ℕ × Cursor) :=
  match _h : readU8 inp s with
  | .error e => .error e
  | .ok (b, s') =>
    if b = 0 then
      if origSize < t + 255 then .error .corrupt else extendLen base (t + 255) s'
    else .ok (t + base + b, s')
termination_by inp.length - s.ip
decreasing_by
  obtain ⟨hlt, hip⟩ := readU8_ip inp _h
  omega

lemma extendLen_zero {base t : ℕ} (h : readU8 inp s = .ok (0, s')) (ho : t + 255 ≤ origSize) :
    extendLen inp origSize base t s = extendLen inp origSize base (t + 255) s' := by
  rw [extendLen]
  split <;> simp_all

lemma extendLen_last {base t b : ℕ} (h : readU8 inp s = .ok (b, s')) (hb : b ≠ 0) :
    extendLen inp origSize base t s = .ok (t + base + b, s') := by
  rw [extendLen]
  split <;> simp_all

def copyLit (cnt : ℕ) (s : Cursor) : Except LzoErr Cursor :=
  if inp.length < s.ip + cnt ∨ s.out.length < s.op + cnt then .error .corrupt
  else .ok ⟨s.ip + cnt, s.op + cnt, write s.out s.op (slice inp s.ip cnt)⟩

def copyBytes : ℕ → ℕ → Cursor → Except LzoErr Cursor
  | 0, _, s => .ok s
  | n + 1, mp, s =>
    match s.out[mp]? with
    | none => .error .outOfRange
    | some b =>
      if s.op < s.out.length then
        copyBytes n (mp + 1) { s with op := s.op + 1, out := s.out.set s.op b }
      else .error .outOfRange

def copyMatch (dist cnt : ℕ) (s : Cursor) : Except LzoErr Cursor :=
  if s.op < dist ∨ s.out.length < s.op + cnt then .error .corrupt
  else copyBytes cnt (s.op - dist) s

inductive Round
  | again (s : Cursor) (state : ℕ)
  | done (out : Bytes)

def copyTrail (state : ℕ) (s : Cursor) : Except LzoErr Cursor :=
  if 0 < state then copyLit inp state s else .ok s

/-- A match of `cnt` bytes by `copy`, and the literals after it. -/
def putMatchWith (copy : ℕ → ℕ → Cursor → Except LzoErr Cursor) (dist cnt trailSrc : ℕ)
    (s : Cursor) : Except LzoErr Round := do
  let s ← copy dist cnt s
  let s ← copyTrail inp (trailSrc &&& 3) s
  return .again s (trailSrc &&& 3)

abbrev putMatch := putMatchWith inp copyMatch

def finish (s : Cursor) : Except LzoErr Round :=
  if s.ip ≠ inp.length then .error .corrupt
  else if s.op ≠ s.out.length then .error .outputMismatch
  else .ok (.done s.out)

def readLen (cnt base : ℕ) (s : Cursor) : Except LzoErr (ℕ × Cursor) :=
  if cnt = 0 then extendLen inp origSize base 0 s else .ok (cnt, s)

/-- A round of the loop of `decompressLZO1X`, with `copy` for the copy of a match. -/
def stepWith (copy : ℕ → ℕ → Cursor → Except LzoErr Cursor) (s : Cursor) (state : ℕ) :
    Except LzoErr Round := do
  let (t, s) ← readU8 inp s
  if t < 16 then
    if state = 0 then
      let (cnt, s) ← readLen inp origSize t 15 s
      let s ← copyLit inp (cnt + 3) s
      return .again s 4
    else if state = 4 then
      let (b2, s) ← readU8 inp s
      putMatchWith inp copy ((t >>> 2) + (b2 <<< 2) + 2049) 3 t s
    else
      let (b2, s) ← readU8 inp s
      putMatchWith inp copy ((t >>> 2) + (b2 <<< 2) + 1) 2 t s
  else if 64 ≤ t then
    let (b2, s) ← readU8 inp s
    putMatchWith inp copy (((t >>> 2) &&& 7) + (b2 <<< 3) + 1) ((t >>> 5) + 1) t s
  else if 32 ≤ t then
    let (cnt, s) ← readLen inp origSize (t &&& 31) 31 s
    let (ds1, s) ← readU8 inp s
    let (ds2, s) ← readU8 inp s
    putMatchWith inp copy ((ds1 >>> 2) + (ds2 <<< 6) + 1) (cnt + 2) ds1 s
  else
    let distHigh := (t &&& 8) <<< 11
    let (cnt, s) ← readLen inp origSize (t &&& 7) 7 s
    let (ds1, s) ← readU8 inp s
    let (ds2, s) ← readU8 inp s
    let d := (ds1 >>> 2) + (ds2 <<< 6)
    if distHigh = 0 ∧ d = 0 then finish inp s
    else putMatchWith inp copy (distHigh + d + 0x4000) (cnt + 2) ds1 s

abbrev step := stepWith inp origSize copyMatch

lemma bind_eq_ok {ε α β : Type} {x : Except ε α} {f : α → Except ε β} {b : β} :
    (x >>= f) = .ok b ↔ ∃ a, x = .ok a ∧ f a = .ok b := by
  cases x with
  | error e => simp [bind, Except.bind]
  | ok a => simp [bind, Except.bind]

lemma extendLen_ip (base t : ℕ) (s : Cursor) {n : ℕ} {s' : Cursor}
    (h : extendLen inp origSize base t s = .ok (n, s')) : s.ip ≤ s'.ip := by
  rw [extendLen] at h
  split at h
  · cases h
  · rename_i b s₁ hread
    obtain ⟨hlt, hip⟩ := readU8_ip inp hread
    split_ifs at h with hz ho
    · have := extendLen_ip base (t + 255) s₁ h
      omega
    · cases h
      omega
termination_by inp.length - s.ip

lemma readLen_ip {cnt base n : ℕ} (h : readLen inp origSize cnt base s = .ok (n, s')) :
    s.ip ≤ s'.ip := by
  unfold readLen at h
  split_ifs at h
  · exact extendLen_ip inp origSize base 0 s h
  · cases h
    exact le_rfl

lemma copyLit_ip {cnt : ℕ} (h : copyLit inp cnt s = .ok s') : s.ip ≤ s'.ip := by
  unfold copyLit at h
  split_ifs at h
  cases h
  exact Nat.le_add_right ..

lemma copyBytes_ip : ∀ {n mp : ℕ} {s s' : Cursor}, copyBytes n mp s = .ok s' → s'.ip = s.ip
  | 0, _, _, _, h => by cases h; rfl
  | n + 1, mp, s, s', h => by
    unfold copyBytes at h
    split at h
    · cases h
    · split_ifs at h
      exact (copyBytes_ip h).trans rfl

lemma putMatch_ip {dist cnt trailSrc state : ℕ}
    (h : putMatch inp dist cnt trailSrc s = .ok (.again s' state)) : s.ip ≤ s'.ip := by
  obtain ⟨s₁, hmatch, h⟩ := bind_eq_ok.mp h
  obtain ⟨s₂, hlit, h⟩ := bind_eq_ok.mp h
  obtain ⟨rfl, -⟩ := Round.again.inj (Except.ok.inj h)
  have h₁ : s₁.ip = s.ip := by
    unfold copyMatch at hmatch
    split_ifs at hmatch
    exact copyBytes_ip hmatch
  have h₂ : s₁.ip ≤ s₂.ip := by
    unfold copyTrail at hlit
    split_ifs at hlit
    · exact copyLit_ip inp hlit
    · cases hlit
      exact le_rfl
  omega

lemma finish_ne_again {state : ℕ} : finish inp s ≠ .ok (.again s' state) := by
  unfold finish
  split_ifs <;> simp

/-! ## Reads inside a step -/

section

variable {s s' : Cursor} {state : ℕ} {k : ℕ × Cursor → Except LzoErr Round}
  (hk : ∀ n s, k (n, s) = .ok (.again s' state) → s.ip ≤ s'.ip)
include hk

lemma readU8_then (h : readU8 inp s >>= k = .ok (.again s' state)) :
    s.ip < inp.length ∧ s.ip < s'.ip := by
  obtain ⟨⟨b, s₁⟩, hread, h⟩ := bind_eq_ok.mp h
  have := readU8_ip inp hread
  have := hk b s₁ h
  omega

lemma readLen_then {cnt base : ℕ}
    (h : readLen inp origSize cnt base s >>= k = .ok (.again s' state)) : s.ip ≤ s'.ip := by
  obtain ⟨⟨n, s₁⟩, hlen, h⟩ := bind_eq_ok.mp h
  exact (readLen_ip inp origSize hlen).trans (hk n s₁ h)

end

lemma step_ip {state state' : ℕ} (h : step inp origSize s state = .ok (.again s' state')) :
    s.ip < inp.length ∧ s.ip < s'.ip := by
  refine readU8_then inp (fun t s₁ h => ?_) h
  have hbyte : ∀ {s : Cursor} {k : ℕ × Cursor → Except LzoErr Round},
      (∀ n s, k (n, s) = .ok (.again s' state') → s.ip ≤ s'.ip) →
      readU8 inp s >>= k = .ok (.again s' state') → s.ip ≤ s'.ip :=
    fun hk h => (readU8_then inp hk h).2.le
  dsimp only at h
  split_ifs at h with h16 h0 h4 h64 h32
  · refine readLen_then inp origSize (fun cnt s₂ h => ?_) h
    obtain ⟨s₃, hlit, h⟩ := bind_eq_ok.mp h
    cases h
    exact copyLit_ip inp hlit
  · exact hbyte (fun b2 s₂ h => putMatch_ip inp h) h
  · exact hbyte (fun b2 s₂ h => putMatch_ip inp h) h
  · exact hbyte (fun b2 s₂ h => putMatch_ip inp h) h
  · refine readLen_then inp origSize (fun cnt s₂ h => ?_) h
    refine hbyte (fun ds1 s₃ h => ?_) h
    exact hbyte (fun ds2 s₄ h => putMatch_ip inp h) h
  · refine readLen_then inp origSize (fun cnt s₂ h => ?_) h
    refine hbyte (fun ds1 s₃ h => ?_) h
    refine hbyte (fun ds2 s₄ h => ?_) h
    dsimp only at h
    split_ifs at h
    · exact absurd h (finish_ne_again inp)
    · exact putMatch_ip inp h

def loop (s : Cursor) (state : ℕ) : Except LzoErr Bytes :=
  match _h : step inp origSize s state with
  | .error e => .error e
  | .ok (.done out) => .ok out
  | .ok (.again s' state') => loop s' state'
termination_by inp.length - s.ip
decreasing_by
  obtain ⟨hlt, hip⟩ := step_ip inp origSize _h
  omega

lemma loop_again {state state' : ℕ} (h : step inp origSize s state = .ok (.again s' state')) :
    loop inp origSize s state = loop inp origSize s' state' := by
  rw [loop]
  split <;> simp_all

lemma loop_done {s : Cursor} {state : ℕ} {out : Bytes}
    (h : step inp origSize s state = .ok (.done out)) : loop inp origSize s state = .ok out := by
  rw [loop]
  split <;> simp_all

end

/-- `decompressLZO1X`. -/
def decompressLZO1X (inp : Bytes) (origSize : UInt32) : Except LzoErr Bytes :=
  if origSize = 0 ∨ MaxMsgSize < origSize.toNat then .error .corrupt
  else
    let out := List.replicate origSize.toNat 0
    match inp with
    | [] => .error .corrupt
    | b :: _ =>
      if 17 < b then
        let t := b.toNat - 17
        match copyLit inp t ⟨1, 0, out⟩ with
        | .error e => .error e
        | .ok s => loop inp origSize.toNat s (if t < 4 then t else 4)
      else loop inp origSize.toNat ⟨0, 0, out⟩ 0

end Wtg.Mymq.Lzo
