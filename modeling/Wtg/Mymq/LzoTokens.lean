import Wtg.Mymq.Lzo

/-! # LZO1X token streams

What a compressed stream means, independent of the decoder: a stream is an initial literal run and a
list of tokens, each a literal run or a match with up to three literals after it. -/

namespace Wtg.Mymq.LzoTokens

open Lib.Buffer Mymq.Codec Mymq.Lzo List

inductive Kind
  | m1
  | m1Run
  | m2
  | m3
  | m4
deriving DecidableEq, Repr

inductive Token
  | literals (run : Bytes)
  | copy (kind : Kind) (len dist : ℕ) (trail : Bytes)
deriving DecidableEq, Repr

/-- The lengths and distances of a kind of match, and the states in which it may stand. -/
def Kind.Fits (state len dist : ℕ) : Kind → Prop
  | .m1 => 1 ≤ state ∧ state ≤ 3 ∧ len = 2 ∧ 1 ≤ dist ∧ dist ≤ 1024
  | .m1Run => state = 4 ∧ len = 3 ∧ 2049 ≤ dist ∧ dist ≤ 3072
  | .m2 => 3 ≤ len ∧ len ≤ 8 ∧ 1 ≤ dist ∧ dist ≤ 2048
  | .m3 => 3 ≤ len ∧ 1 ≤ dist ∧ dist ≤ 16384
  | .m4 => 3 ≤ len ∧ 16385 ≤ dist ∧ dist ≤ 49151

def Token.Ok (state : ℕ) (out : Bytes) : Token → Prop
  | .literals run => state = 0 ∧ 4 ≤ run.length
  | .copy kind len dist trail =>
    kind.Fits state len dist ∧ dist ≤ out.length ∧ trail.length ≤ 3

instance (state len dist : ℕ) (kind : Kind) : Decidable (kind.Fits state len dist) := by
  cases kind <;> unfold Kind.Fits <;> infer_instance

instance (state : ℕ) (out : Bytes) (t : Token) : Decidable (t.Ok state out) := by
  cases t <;> unfold Token.Ok <;> infer_instance

def Token.next : Token → ℕ
  | .literals _ => 4
  | .copy _ _ _ trail => trail.length

def Token.append (out : Bytes) : Token → Bytes
  | .literals run => out ++ run
  | .copy _ len dist trail => backCopy dist len out ++ trail

structure Stream where
  initial : Bytes
  tokens : List Token

def Chain : ℕ → Bytes → List Token → Prop
  | _, _, [] => True
  | state, out, t :: ts => t.Ok state out ∧ Chain t.next (t.append out) ts

instance : ∀ (state : ℕ) (out : Bytes) (ts : List Token), Decidable (Chain state out ts)
  | _, _, [] => isTrue trivial
  | state, out, t :: ts =>
    have := instDecidableChain t.next (t.append out) ts
    inferInstanceAs (Decidable (t.Ok state out ∧ Chain t.next (t.append out) ts))

def startState (n : ℕ) : ℕ := if n < 4 then n else 4

def Stream.WellFormed (st : Stream) : Prop :=
  st.initial.length ≤ 238 ∧ Chain (startState st.initial.length) st.initial st.tokens

instance (st : Stream) : Decidable st.WellFormed :=
  inferInstanceAs (Decidable (_ ∧ _))

def Stream.output (st : Stream) : Bytes := st.tokens.foldl Token.append st.initial

abbrev byte (n : ℕ) : UInt8 := UInt8.ofNat n

lemma toNat_byte {n : ℕ} (h : n < 256) : (byte n).toNat = n := by
  rw [UInt8.toNat_ofNat']
  exact Nat.mod_eq_of_lt h

def lenBits (max v : ℕ) : ℕ := if v ≤ max then v else 0

def lenBytes (max v : ℕ) : Bytes :=
  if v ≤ max then []
  else List.replicate ((v - max - 1) / 255) 0 ++ [byte ((v - max - 1) % 255 + 1)]

lemma lenBits_le (max v : ℕ) : lenBits max v ≤ max := by
  unfold lenBits
  split_ifs <;> omega

def Kind.encode (len dist n : ℕ) : Kind → Bytes
  | .m1 => [byte ((dist - 1) % 4 * 4 + n), byte ((dist - 1) / 4)]
  | .m1Run => [byte ((dist - 2049) % 4 * 4 + n), byte ((dist - 2049) / 4)]
  | .m2 => [byte ((len - 1) * 32 + (dist - 1) % 8 * 4 + n), byte ((dist - 1) / 8)]
  | .m3 => byte (32 + lenBits 31 (len - 2)) :: (lenBytes 31 (len - 2) ++
      [byte ((dist - 1) % 64 * 4 + n), byte ((dist - 1) / 64)])
  | .m4 => byte (16 + (dist - 16384) / 16384 * 8 + lenBits 7 (len - 2)) :: (lenBytes 7 (len - 2) ++
      [byte ((dist - 16384) % 64 * 4 + n), byte ((dist - 16384) / 64 % 256)])

def Token.encode : Token → Bytes
  | .literals run =>
    byte (lenBits 15 (run.length - 3)) :: (lenBytes 15 (run.length - 3) ++ run)
  | .copy kind len dist trail => kind.encode len dist trail.length ++ trail

def eof : Bytes := [0x11, 0x00, 0x00]

def Stream.encode (st : Stream) : Bytes :=
  (if st.initial = [] then [] else byte (17 + st.initial.length) :: st.initial) ++
    (st.tokens.flatMap Token.encode ++ eof)

structure Views (inp : Bytes) (s : Cursor) (rest p : Bytes) (room : ℕ) : Prop where
  input : ∃ a, inp = a ++ rest ∧ s.ip = a.length
  output : ∃ z, s.out = p ++ z ∧ z.length = room
  op : s.op = p.length

variable {inp rest p : Bytes} {s : Cursor} {room origSize : ℕ} {b : UInt8}

lemma readU8_views (h : Views inp s (b :: rest) p room) :
    ∃ s', readU8 inp s = .ok (b.toNat, s') ∧ Views inp s' rest p room := by
  obtain ⟨⟨a, ha, hip⟩, hout, hop⟩ := h
  have hlen : inp.length = a.length + (rest.length + 1) := by rw [ha]; simp
  have hget : inp[s.ip]? = some b := by rw [ha, hip]; simp
  refine ⟨{ s with ip := s.ip + 1 }, ?_, ⟨a ++ [b], ?_, ?_⟩, hout, hop⟩
  · unfold readU8
    rw [if_neg (by omega), hget]
  · rw [ha]; simp
  · show s.ip + 1 = _
    rw [hip]; simp

lemma copyLit_views {l : Bytes} (h : Views inp s (l ++ rest) p (l.length + room)) :
    ∃ s', copyLit inp l.length s = .ok s' ∧ Views inp s' rest (p ++ l) room := by
  obtain ⟨⟨a, ha, hip⟩, ⟨z, hz, hroom⟩, hop⟩ := h
  have hlen : inp.length = a.length + (l.length + rest.length) := by rw [ha]; simp
  have hout : s.out.length = p.length + (l.length + room) := by rw [hz]; simp [hroom]
  have hslice : slice inp s.ip l.length = l := by rw [ha]; exact slice_append hip.symm rfl
  obtain ⟨z₁, z₂, rfl, hz₁⟩ : ∃ z₁ z₂, z = z₁ ++ z₂ ∧ z₁.length = l.length :=
    ⟨z.take l.length, z.drop l.length, (take_append_drop ..).symm, by
      rw [length_take]; omega⟩
  refine ⟨⟨s.ip + l.length, s.op + l.length, p ++ l ++ z₂⟩, ?_, ⟨a ++ l, ?_, ?_⟩, ⟨z₂, rfl, ?_⟩, ?_⟩
  · unfold copyLit
    rw [if_neg (by omega), hslice, hz, write_append hop.symm hz₁, append_assoc]
  · rw [ha]; simp
  · show s.ip + l.length = _
    rw [hip]; simp
  · rw [length_append] at hroom
    omega
  · show s.op + l.length = _
    rw [hop]; simp

lemma copyBytes_views {dist : ℕ} (hd : 1 ≤ dist) : ∀ {n : ℕ} {s : Cursor} {p : Bytes},
    dist ≤ p.length → Views inp s rest p (n + room) →
    ∃ s', copyBytes n (p.length - dist) s = .ok s' ∧ Views inp s' rest (backCopy dist n p) room
  | 0, s, p, _, h => ⟨s, rfl, by rwa [Nat.zero_add] at h⟩
  | n + 1, s, p, hp, ⟨hin, ⟨z, hz, hroom⟩, hop⟩ => by
    rcases z with _ | ⟨z₀, z⟩
    · simp at hroom; omega
    have hlt : p.length - dist < p.length := by omega
    have hget : s.out[p.length - dist]? = some (p.getD (p.length - dist) 0) := by
      rw [hz, getElem?_append_left hlt, getD_eq_getElem?_getD,
        getElem?_eq_getElem hlt]
      rfl
    have hnext : p.length - dist + 1 = (p ++ [p.getD (p.length - dist) 0]).length - dist := by
      rw [length_append, length_singleton]
      omega
    have hlen : s.op < s.out.length := by
      rw [hop, hz]; simp
    -- the byte is written where the room begins
    have hset : s.out.set s.op (p.getD (p.length - dist) 0) =
        (p ++ [p.getD (p.length - dist) 0]) ++ z := by
      rw [hz, hop, set_append_right _ _ (le_refl _), Nat.sub_self, set_cons_zero,
        append_assoc]
      rfl
    rw [copyBytes, hget, hnext]
    simp only [if_pos hlen]
    refine copyBytes_views hd (by rw [length_append]; omega) ⟨hin, ⟨z, hset, ?_⟩, ?_⟩
    · rw [length_cons] at hroom
      omega
    · show s.op + 1 = _
      rw [hop, length_append, length_singleton]

lemma copyMatch_views {dist n : ℕ} (hd : 1 ≤ dist) (hp : dist ≤ p.length)
    (h : Views inp s rest p (n + room)) :
    ∃ s', copyMatch dist n s = .ok s' ∧ Views inp s' rest (backCopy dist n p) room := by
  obtain ⟨s', hcopy, hv⟩ := copyBytes_views hd hp h
  obtain ⟨-, ⟨z, hz, hroom⟩, hop⟩ := h
  have hlen : s.out.length = p.length + (n + room) := by rw [hz, length_append, hroom]
  refine ⟨s', ?_, hv⟩
  unfold copyMatch
  rw [if_neg (by omega), hop, hcopy]

lemma and_three (n : ℕ) : n &&& 3 = n % 4 := Nat.and_two_pow_sub_one_eq_mod n 2

lemma putMatch_views {dist len : ℕ} (trail : Bytes) (trailSrc : ℕ) (hd : 1 ≤ dist)
    (hp : dist ≤ p.length) (ht : trailSrc % 4 = trail.length)
    (h : Views inp s (trail ++ rest) p (len + (trail.length + room))) :
    ∃ s', putMatch inp dist len trailSrc s = .ok (.again s' trail.length) ∧
      Views inp s' rest (backCopy dist len p ++ trail) room := by
  obtain ⟨s₁, hmatch, h₁⟩ := copyMatch_views hd hp h
  obtain ⟨s₂, hlit, h₂⟩ : ∃ s₂, copyTrail inp trail.length s₁ = .ok s₂ ∧
      Views inp s₂ rest (backCopy dist len p ++ trail) room := by
    unfold copyTrail
    split_ifs with hpos
    · exact copyLit_views h₁
    · obtain rfl : trail = [] := eq_nil_of_length_eq_zero (by omega)
      refine ⟨s₁, rfl, ?_⟩
      rw [nil_append, length_nil, Nat.zero_add] at h₁
      rwa [append_nil]
  refine ⟨s₂, ?_, h₂⟩
  unfold putMatch putMatchWith
  simp only [and_three, ht, hmatch, hlit, bind, Except.bind, pure, Except.pure]

lemma extendLen_views (origSize base : ℕ) (hb : b.toNat ≠ 0) : ∀ (k t : ℕ) {s : Cursor},
    t + 255 * k ≤ origSize → Views inp s (replicate k 0 ++ (b :: rest)) p room →
    ∃ s', extendLen inp origSize base t s = .ok (t + 255 * k + base + b.toNat, s') ∧
      Views inp s' rest p room
  | 0, t, s, _, h => by
    obtain ⟨s', hread, h'⟩ := readU8_views h
    exact ⟨s', extendLen_last inp origSize hread hb, h'⟩
  | k + 1, t, s, ho, h => by
    obtain ⟨s₁, hread, h₁⟩ := readU8_views h
    have hsum : t + 255 * (k + 1) = t + 255 + 255 * k := by omega
    rw [hsum] at ho
    obtain ⟨s', hext, h'⟩ := extendLen_views origSize base hb k (t + 255) ho h₁
    refine ⟨s', ?_, h'⟩
    rw [extendLen_zero inp origSize hread (Nat.le_trans (Nat.le_add_right _ _) ho), hext, hsum]

lemma readLen_views (origSize : ℕ) {base v : ℕ} (hv : 1 ≤ v) (ho : v ≤ origSize + base)
    (h : Views inp s (lenBytes base v ++ rest) p room) :
    ∃ s', readLen inp origSize (lenBits base v) base s = .ok (v, s') ∧ Views inp s' rest p room := by
  unfold lenBits
  unfold lenBytes at h
  split_ifs at h ⊢ with hle
  · refine ⟨s, ?_, h⟩
    unfold readLen
    rw [if_neg (by omega)]
  · have hmod : (v - base - 1) % 255 < 255 := Nat.mod_lt _ (by omega)
    have hb := toNat_byte (n := (v - base - 1) % 255 + 1) (by omega)
    rw [append_assoc, singleton_append] at h
    obtain ⟨s', hext, h'⟩ := extendLen_views origSize base (by omega) _ 0 (by omega) h
    refine ⟨s', ?_, h'⟩
    unfold readLen
    rw [if_pos rfl, hext, hb]
    congr 2
    omega

lemma and_seven (n : ℕ) : n &&& 7 = n % 8 := Nat.and_two_pow_sub_one_eq_mod n 3

lemma and_thirtyOne (n : ℕ) : n &&& 31 = n % 32 := Nat.and_two_pow_sub_one_eq_mod n 5

lemma and_eight : ∀ n < 32, n &&& 8 = n / 8 % 2 * 8 := by decide

/-! ## The branches of a step -/

section

variable {t b2 ds1 ds2 cnt state : ℕ} {s₁ s₂ s₃ s₄ : Cursor} (hr : readU8 inp s = .ok (t, s₁))
include hr

lemma step_m1 (ht : t < 16) (h1 : 1 ≤ state) (h3 : state ≤ 3)
    (hr₂ : readU8 inp s₁ = .ok (b2, s₂)) :
    step inp origSize s state = putMatch inp (t / 4 + b2 * 4 + 1) 2 t s₂ := by
  unfold step stepWith
  simp only [hr, hr₂, bind, Except.bind, if_pos ht, if_neg (show state ≠ 0 by omega),
    if_neg (show state ≠ 4 by omega), Nat.shiftRight_eq_div_pow, Nat.shiftLeft_eq]

lemma step_m1Run (ht : t < 16) (hs : state = 4) (hr₂ : readU8 inp s₁ = .ok (b2, s₂)) :
    step inp origSize s state = putMatch inp (t / 4 + b2 * 4 + 2049) 3 t s₂ := by
  subst hs
  unfold step stepWith
  simp only [hr, hr₂, bind, Except.bind, if_pos ht, if_neg (show 4 ≠ 0 by omega), if_true,
    Nat.shiftRight_eq_div_pow, Nat.shiftLeft_eq]

lemma step_m2 (ht : 64 ≤ t) (hr₂ : readU8 inp s₁ = .ok (b2, s₂)) :
    step inp origSize s state = putMatch inp (t / 4 % 8 + b2 * 8 + 1) (t / 32 + 1) t s₂ := by
  unfold step stepWith
  simp only [hr, hr₂, bind, Except.bind, if_neg (show ¬ t < 16 by omega), if_pos ht, and_seven,
    Nat.shiftRight_eq_div_pow, Nat.shiftLeft_eq]

lemma step_m3 (h32 : 32 ≤ t) (h64 : t < 64)
    (hl : readLen inp origSize (t % 32) 31 s₁ = .ok (cnt, s₂))
    (hr₃ : readU8 inp s₂ = .ok (ds1, s₃)) (hr₄ : readU8 inp s₃ = .ok (ds2, s₄)) :
    step inp origSize s state = putMatch inp (ds1 / 4 + ds2 * 64 + 1) (cnt + 2) ds1 s₄ := by
  unfold step stepWith
  simp only [hr, hl, hr₃, hr₄, bind, Except.bind, if_neg (show ¬ t < 16 by omega),
    if_neg (show ¬ 64 ≤ t by omega), if_pos h32, and_thirtyOne, Nat.shiftRight_eq_div_pow,
    Nat.shiftLeft_eq]

lemma step_m4 (h16 : 16 ≤ t) (h32 : t < 32)
    (hl : readLen inp origSize (t % 8) 7 s₁ = .ok (cnt, s₂)) (hr₃ : readU8 inp s₂ = .ok (ds1, s₃))
    (hr₄ : readU8 inp s₃ = .ok (ds2, s₄)) :
    step inp origSize s state =
      if t / 8 % 2 = 0 ∧ ds1 / 4 + ds2 * 64 = 0 then finish inp s₄
      else putMatch inp (t / 8 % 2 * 16384 + (ds1 / 4 + ds2 * 64) + 16384) (cnt + 2) ds1 s₄ := by
  have hhigh : (t &&& 8) <<< 11 = t / 8 % 2 * 16384 := by
    rw [and_eight t h32, Nat.shiftLeft_eq]
    omega
  have hzero : t / 8 % 2 * 16384 = 0 ↔ t / 8 % 2 = 0 := by omega
  unfold step stepWith
  simp only [hr, hl, hr₃, hr₄, bind, Except.bind, if_neg (show ¬ t < 16 by omega),
    if_neg (show ¬ 64 ≤ t by omega), if_neg (show ¬ 32 ≤ t by omega), and_seven, hhigh, hzero,
    Nat.shiftRight_eq_div_pow, Nat.shiftLeft_eq]

lemma step_literals (ht : t < 16) (hs : state = 0)
    (hl : readLen inp origSize t 15 s₁ = .ok (cnt, s₂)) (hc : copyLit inp (cnt + 3) s₂ = .ok s₃) :
    step inp origSize s state = .ok (.again s₃ 4) := by
  subst hs
  unfold step stepWith
  simp only [hr, hl, hc, bind, Except.bind, if_pos ht, if_true, pure, Except.pure]

end

lemma readPair_views {a b : ℕ} (ha : a < 256) (hb : b < 256)
    (h : Views inp s (byte a :: byte b :: rest) p room) :
    ∃ s₁ s₂, readU8 inp s = .ok (a, s₁) ∧ readU8 inp s₁ = .ok (b, s₂) ∧
      Views inp s₂ rest p room := by
  obtain ⟨s₁, hr₁, h₁⟩ := readU8_views h
  obtain ⟨s₂, hr₂, h₂⟩ := readU8_views h₁
  rw [toNat_byte ha] at hr₁
  rw [toNat_byte hb] at hr₂
  exact ⟨s₁, s₂, hr₁, hr₂, h₂⟩

lemma readLong_views (origSize : ℕ) {t base v a b : ℕ} (ht : t < 256) (hv : 1 ≤ v)
    (ho : v ≤ origSize + base) (ha : a < 256) (hb : b < 256)
    (h : Views inp s ((byte t :: (lenBytes base v ++ [byte a, byte b])) ++ rest) p room) :
    ∃ s₁ s₂ s₃ s₄, readU8 inp s = .ok (t, s₁) ∧
      readLen inp origSize (lenBits base v) base s₁ = .ok (v, s₂) ∧
      readU8 inp s₂ = .ok (a, s₃) ∧ readU8 inp s₃ = .ok (b, s₄) ∧ Views inp s₄ rest p room := by
  rw [cons_append, append_assoc] at h
  obtain ⟨s₁, hr₁, h₁⟩ := readU8_views h
  rw [toNat_byte ht] at hr₁
  obtain ⟨s₂, hl₂, h₂⟩ := readLen_views origSize hv ho h₁
  obtain ⟨s₃, s₄, hr₃, hr₄, h₄⟩ := readPair_views ha hb h₂
  exact ⟨s₁, s₂, s₃, s₄, hr₁, hl₂, hr₃, hr₄, h₄⟩

lemma step_copy {kind : Kind} {state len dist : ℕ} {trail : Bytes} (hk : kind.Fits state len dist)
    (hp : dist ≤ p.length) (ht : trail.length ≤ 3) (ho : len ≤ origSize)
    (h : Views inp s (kind.encode len dist trail.length ++ (trail ++ rest)) p
      (len + (trail.length + room))) :
    ∃ s', step inp origSize s state = .ok (.again s' trail.length) ∧
      Views inp s' rest (backCopy dist len p ++ trail) room := by
  cases kind with
  | m1 =>
    obtain ⟨h1, h3, rfl, hd1, hd⟩ := hk
    obtain ⟨s₁, s₂, hr₁, hr₂, h₂⟩ := readPair_views (by omega) (by omega) h
    obtain ⟨s', hput, h'⟩ := putMatch_views trail ((dist - 1) % 4 * 4 + trail.length) hd1 hp
      (by omega) h₂
    refine ⟨s', ?_, h'⟩
    rw [step_m1 hr₁ (by omega) h1 h3 hr₂, ← hput]
    congr 1
    omega
  | m1Run =>
    obtain ⟨h4, rfl, hd1, hd⟩ := hk
    obtain ⟨s₁, s₂, hr₁, hr₂, h₂⟩ := readPair_views (by omega) (by omega) h
    obtain ⟨s', hput, h'⟩ := putMatch_views trail ((dist - 2049) % 4 * 4 + trail.length) (by omega) hp
      (by omega) h₂
    refine ⟨s', ?_, h'⟩
    rw [step_m1Run hr₁ (by omega) h4 hr₂, ← hput]
    congr 1
    omega
  | m2 =>
    obtain ⟨hl, hl8, hd1, hd⟩ := hk
    obtain ⟨s₁, s₂, hr₁, hr₂, h₂⟩ := readPair_views (by omega) (by omega) h
    obtain ⟨s', hput, h'⟩ := putMatch_views trail
      ((len - 1) * 32 + (dist - 1) % 8 * 4 + trail.length) hd1 hp (by omega) h₂
    refine ⟨s', ?_, h'⟩
    rw [step_m2 hr₁ (by omega) hr₂, ← hput]
    congr 1 <;> omega
  | m3 =>
    obtain ⟨hl, hd1, hd⟩ := hk
    have hbits := lenBits_le 31 (len - 2)
    obtain ⟨s₁, s₂, s₃, s₄, hr₁, hl₂, hr₃, hr₄, h₄⟩ := readLong_views origSize (by omega) (by omega)
      (by omega) (by omega) (by omega) h
    obtain ⟨s', hput, h'⟩ := putMatch_views trail ((dist - 1) % 64 * 4 + trail.length) hd1 hp
      (by omega) h₄
    have hcnt : (32 + lenBits 31 (len - 2)) % 32 = lenBits 31 (len - 2) := by omega
    rw [← hcnt] at hl₂
    refine ⟨s', ?_, h'⟩
    rw [step_m3 hr₁ (by omega) (by omega) hl₂ hr₃ hr₄, ← hput]
    congr 1 <;> omega
  | m4 =>
    obtain ⟨hl, hd1, hd⟩ := hk
    have hbits := lenBits_le 7 (len - 2)
    obtain ⟨s₁, s₂, s₃, s₄, hr₁, hl₂, hr₃, hr₄, h₄⟩ := readLong_views origSize (by omega) (by omega)
      (by omega) (by omega) (by omega) h
    obtain ⟨s', hput, h'⟩ := putMatch_views trail ((dist - 16384) % 64 * 4 + trail.length) (by omega)
      hp (by omega) h₄
    have hcnt : (16 + (dist - 16384) / 16384 * 8 + lenBits 7 (len - 2)) % 8 = lenBits 7 (len - 2) := by
      omega
    rw [← hcnt] at hl₂
    refine ⟨s', ?_, h'⟩
    rw [step_m4 hr₁ (by omega) (by omega) hl₂ hr₃ hr₄, if_neg (by omega), ← hput]
    congr 1 <;> omega

def Token.size : Token → ℕ
  | .literals run => run.length
  | .copy _ len _ trail => len + trail.length

lemma length_append_token (t : Token) (out : Bytes) :
    (t.append out).length = out.length + t.size := by
  cases t with
  | literals run => exact length_append
  | copy kind len dist trail =>
    rw [Token.append, length_append, length_backCopy, Token.size, Nat.add_assoc]

lemma length_foldl_append : ∀ (ts : List Token) (out : Bytes),
    out.length ≤ (ts.foldl Token.append out).length
  | [], _ => le_rfl
  | t :: ts, out => by
    have hlen := length_append_token t out
    have htail := length_foldl_append ts (t.append out)
    rw [foldl_cons]
    omega

lemma step_token {t : Token} {state : ℕ} (hok : t.Ok state p) (ho : t.size ≤ origSize)
    (h : Views inp s (t.encode ++ rest) p (t.size + room)) :
    ∃ s', step inp origSize s state = .ok (.again s' t.next) ∧
      Views inp s' rest (t.append p) room := by
  cases t with
  | literals run =>
    obtain ⟨hs, hrun⟩ := hok
    have hbits := lenBits_le 15 (run.length - 3)
    have hsize : run.length ≤ origSize := ho
    rw [Token.encode, cons_append, append_assoc] at h
    obtain ⟨s₁, hr₁, h₁⟩ := readU8_views h
    rw [toNat_byte (by omega)] at hr₁
    obtain ⟨s₂, hl₂, h₂⟩ := readLen_views origSize (by omega) (by omega) h₁
    obtain ⟨s₃, hc, h₃⟩ := copyLit_views h₂
    have hcnt : run.length = run.length - 3 + 3 := by omega
    rw [hcnt] at hc
    exact ⟨s₃, step_literals hr₁ (by omega) hs hl₂ hc, h₃⟩
  | copy kind len dist trail =>
    obtain ⟨hk, hp, ht⟩ := hok
    have hsize : len + trail.length ≤ origSize := ho
    rw [Token.encode, append_assoc, Token.size, Nat.add_assoc] at h
    exact step_copy hk hp ht (by omega) h

lemma step_eof {state : ℕ} (h : Views inp s eof p 0) :
    step inp origSize s state = .ok (.done p) := by
  obtain ⟨s₁, hr₁, h₁⟩ := readU8_views h
  obtain ⟨s₂, hr₂, h₂⟩ := readU8_views h₁
  obtain ⟨s₃, hr₃, h₃⟩ := readU8_views h₂
  have hl : readLen inp origSize (17 % 8) 7 s₁ = .ok (1, s₁) := rfl
  obtain ⟨⟨a, ha, hip⟩, ⟨z, hz, hroom⟩, hop⟩ := h₃
  rw [eq_nil_of_length_eq_zero hroom, append_nil] at hz
  rw [append_nil] at ha
  have hfin : finish inp s₃ = .ok (.done p) := by
    unfold finish
    rw [if_neg (by rw [hip, ha]; simp), if_neg (by rw [hop, hz]; simp), hz]
  rw [step_m4 hr₁ (by decide) (by decide) hl hr₂ hr₃, if_pos (by decide), hfin]

lemma loop_tokens : ∀ (ts : List Token) (state : ℕ) (p : Bytes) (room : ℕ) (s : Cursor),
    Chain state p ts → p.length + room = (ts.foldl Token.append p).length → room ≤ origSize →
    Views inp s (ts.flatMap Token.encode ++ eof) p room →
    loop inp origSize s state = .ok (ts.foldl Token.append p)
  | [], state, p, room, s, _, hroom, _, h => by
    have h0 : room = 0 := by
      rw [foldl_nil] at hroom
      omega
    subst h0
    exact loop_done inp origSize (step_eof h)
  | t :: ts, state, p, room, s, ⟨hok, hchain⟩, hroom, ho, h => by
    have hmono := length_foldl_append ts (t.append p)
    have hlen := length_append_token t p
    rw [foldl_cons] at hroom ⊢
    obtain ⟨room', rfl⟩ : ∃ room', room = t.size + room' := ⟨room - t.size, by omega⟩
    rw [flatMap_cons, append_assoc] at h
    have hsize : t.size ≤ origSize := by omega
    obtain ⟨s', hstep, h'⟩ := step_token hok hsize h
    rw [loop_again inp origSize hstep]
    exact loop_tokens ts t.next (t.append p) room' s' hchain (by omega) (by omega) h'

lemma exists_literals {ts : List Token} (hchain : Chain 0 [] ts)
    (hpos : 0 < (ts.foldl Token.append []).length) :
    ∃ b rest, ts.flatMap Token.encode ++ eof = b :: rest ∧ b.toNat ≤ 15 := by
  rcases ts with _ | ⟨t, ts⟩
  · simp at hpos
  rcases t with run | ⟨kind, len, dist, trail⟩
  · have hbits := lenBits_le 15 (run.length - 3)
    refine ⟨byte (lenBits 15 (run.length - 3)), _, rfl, ?_⟩
    rw [toNat_byte (by omega)]
    exact hbits
  · -- a match would reach before the output
    obtain ⟨⟨hfits, hreach, -⟩, -⟩ := hchain
    rw [length_nil] at hreach
    cases kind <;> simp only [Kind.Fits] at hfits <;> omega

lemma views_start (a rest : Bytes) (room : ℕ) :
    Views (a ++ rest) ⟨a.length, 0, replicate room 0⟩ rest [] room :=
  ⟨⟨a, rfl, rfl⟩, ⟨replicate room 0, rfl, length_replicate⟩, rfl⟩

/-! ## The first token -/

section

variable {n : UInt32} (hn : ¬ (n = 0 ∨ MaxMsgSize < n.toNat))
include hn

lemma decompressLZO1X_plain {rest : Bytes} (hb : b.toNat ≤ 17) :
    decompressLZO1X (b :: rest) n =
      loop (b :: rest) n.toNat ⟨0, 0, replicate n.toNat 0⟩ 0 := by
  have hlt : ¬ 17 < b := by
    rw [UInt8.lt_iff_toNat_lt, Nat.not_lt]
    exact hb
  unfold decompressLZO1X
  simp only [if_neg hn, if_neg hlt]

lemma decompressLZO1X_initial {rest : Bytes} {k : ℕ} {s : Cursor} (hk : 0 < k)
    (hb : b.toNat = 17 + k) (hc : copyLit (b :: rest) k ⟨1, 0, replicate n.toNat 0⟩ = .ok s) :
    decompressLZO1X (b :: rest) n = loop (b :: rest) n.toNat s (startState k) := by
  have hlt : 17 < b := by
    rw [UInt8.lt_iff_toNat_lt, hb]
    show 17 < 17 + k
    omega
  have hsub : b.toNat - 17 = k := by omega
  unfold decompressLZO1X
  simp only [if_neg hn, if_pos hlt, hsub, hc]
  rfl

end

/-- **The decoder is correct**: on the bytes of a well-formed stream it computes the stream's
output. -/
theorem decompressLZO1X_encode (st : Stream) (n : UInt32) (hwf : st.WellFormed)
    (hlen : st.output.length = n.toNat) (hpos : 0 < n.toNat) (hmax : n.toNat ≤ MaxMsgSize) :
    decompressLZO1X st.encode n = .ok st.output := by
  obtain ⟨hinit, hchain⟩ := hwf
  have hn : ¬ (n = 0 ∨ MaxMsgSize < n.toNat) := by
    rintro (rfl | h)
    · exact absurd hpos (by decide)
    · omega
  have hle := length_foldl_append st.tokens st.initial
  rw [show (st.tokens.foldl Token.append st.initial).length = n.toNat from hlen] at hle
  by_cases hnil : st.initial = []
  · rw [hnil, length_nil] at hchain
    have hout : st.tokens.foldl Token.append [] = st.output := by rw [Stream.output, hnil]
    obtain ⟨b, rest, henc, hb⟩ := exists_literals hchain (by rw [hout, hlen]; exact hpos)
    rw [Stream.encode, if_pos hnil, nil_append, henc,
      decompressLZO1X_plain hn (by omega), ← hout]
    refine loop_tokens st.tokens 0 [] n.toNat _ hchain ?_ le_rfl ?_
    · rw [hout, hlen, length_nil, Nat.zero_add]
    · rw [henc]
      exact views_start [] (b :: rest) n.toNat
  · have hinit' : 0 < st.initial.length := length_pos_iff.mpr hnil
    have hb := toNat_byte (n := 17 + st.initial.length) (by omega)
    have hroom : n.toNat = st.initial.length + (n.toNat - st.initial.length) := by omega
    have hv := views_start [byte (17 + st.initial.length)]
      (st.initial ++ (st.tokens.flatMap Token.encode ++ eof)) n.toNat
    rw [hroom] at hv
    obtain ⟨s, hc, hv'⟩ := copyLit_views hv
    rw [← hroom] at hc
    rw [Stream.encode, if_neg hnil]
    refine (decompressLZO1X_initial hn hinit' hb hc).trans ?_
    refine loop_tokens st.tokens _ st.initial _ s hchain ?_ ?_ hv'
    · rw [← hroom]
      exact hlen.symm
    · omega

def sampleStream : Stream where
  initial := [65, 66, 67]
  tokens := [.copy .m1 2 1 [68], .copy .m3 40 2 [], .literals [69, 70, 71, 72], .copy .m2 5 4 [73]]

theorem decompressLZO1X_sampleStream :
    sampleStream.WellFormed ∧ sampleStream.output.length = 56 ∧
      decompressLZO1X sampleStream.encode 56 = .ok sampleStream.output := by
  have hwf : sampleStream.WellFormed := by decide
  have hlen : sampleStream.output.length = 56 := by decide
  exact ⟨hwf, hlen, decompressLZO1X_encode sampleStream 56 hwf hlen (by decide) (by decide)⟩

end Wtg.Mymq.LzoTokens
