import Wtg.Lib.Buffer

/-! # The derivative messages of the exchange

`pkg/krx` reads the fixed-width messages A006F (master), A306F (trade), H306F (settlement) and B606F
(order book). -/

namespace Wtg.Krx.Decode

open Lib.Buffer List

/-- `float64`: its arithmetic, `strconv.ParseFloat` and the bits of a value. -/
structure Floats (F : Type*) where
  zero : F
  hundred : F
  le : F → F → Bool
  lt : F → F → Bool
  eq : F → F → Bool
  sub : F → F → F
  mul : F → F → F
  div : F → F → F
  parseFloat : Bytes → Option F
  float64bits : F → ℕ
  /-- `math.Float32bits` of the value as a `float32`. -/
  float32bits : F → ℕ

def isSpace1 (a : UInt8) : Bool := (9 ≤ a ∧ a ≤ 13) ∨ a = 0x20

def isSpace2 (a b : UInt8) : Bool := a = 0xC2 ∧ (b = 0x85 ∨ b = 0xA0)

def isSpace3 (a b c : UInt8) : Bool :=
  (a = 0xE1 ∧ b = 0x9A ∧ c = 0x80) ∨
    (a = 0xE2 ∧ b = 0x80 ∧ ((0x80 ≤ c ∧ c ≤ 0x8A) ∨ c = 0xA8 ∨ c = 0xA9 ∨ c = 0xAF)) ∨
    (a = 0xE2 ∧ b = 0x81 ∧ c = 0x9F) ∨ (a = 0xE3 ∧ b = 0x80 ∧ c = 0x80)

def dropSpaces (two : UInt8 → UInt8 → Bool) (three : UInt8 → UInt8 → UInt8 → Bool) : Bytes → Bytes
  | [] => []
  | [a] => if isSpace1 a then [] else [a]
  | [a, b] =>
    if isSpace1 a then dropSpaces two three [b] else if two a b then [] else [a, b]
  | a :: b :: c :: rest =>
    if isSpace1 a then dropSpaces two three (b :: c :: rest)
    else if two a b then dropSpaces two three (c :: rest)
    else if three a b c then dropSpaces two three rest
    else a :: b :: c :: rest

def trimSpace (s : Bytes) : Bytes :=
  (dropSpaces (fun a b => isSpace2 b a) (fun a b c => isSpace3 c b a)
    (dropSpaces isSpace2 isSpace3 s).reverse).reverse

lemma length_dropSpaces_le (two : UInt8 → UInt8 → Bool) (three : UInt8 → UInt8 → UInt8 → Bool)
    (s : Bytes) : (dropSpaces two three s).length ≤ s.length := by
  fun_induction dropSpaces two three s <;> simp_all <;> omega

lemma length_trimSpace_le (s : Bytes) : (trimSpace s).length ≤ s.length := by
  rw [trimSpace, length_reverse]
  refine (length_dropSpaces_le _ _ _).trans ?_
  rw [length_reverse]
  exact length_dropSpaces_le _ _ _

def fstr (b : Bytes) (off n : ℕ) : Bytes := trimSpace (slice b off n)

lemma length_fstr_le (b : Bytes) (off n : ℕ) : (fstr b off n).length ≤ n :=
  (length_trimSpace_le _).trans (length_take_le _ _)

variable {F : Type*} (fl : Floats F)

def ffloat (b : Bytes) (off n : ℕ) : F :=
  if fstr b off n = [] then fl.zero else (fl.parseFloat (fstr b off n)).getD fl.zero

def digits : Bytes → Option ℕ
  | [] => none
  | s => s.foldl (fun acc c => acc.bind fun n =>
      if 0x30 ≤ c ∧ c ≤ 0x39 then some (n * 10 + (c.toNat - 0x30)) else none) (some 0)

def parseInt (s : Bytes) : Option ℤ :=
  let value : Option ℤ := match s with
    | 0x2B :: rest => (digits rest).map Int.ofNat
    | 0x2D :: rest => (digits rest).map fun n => -(Int.ofNat n)
    | s => (digits s).map Int.ofNat
  value.filter fun n => -2 ^ 63 ≤ n ∧ n < 2 ^ 63

def fint (b : Bytes) (off n : ℕ) : ℤ :=
  if fstr b off n = [] then 0 else (parseInt (fstr b off n)).getD 0

structure FutMaster (F : Type*) where
  code : Bytes
  shortCode : Bytes
  basePrc : F
  prevClose : F

structure FutTrade (F : Type*) where
  code : Bytes
  last : F
  openPrc : F
  high : F
  low : F

structure FutSettle (F : Type*) where
  code : Bytes
  settle : F
  settleCd : Bytes
  finalSettle : F

structure BookLevel (F : Type*) where
  prc : F
  vol : ℤ
  cnt : ℤ

structure FutBook (F : Type*) where
  code : Bytes
  askTot : ℤ
  bidTot : ℤ
  askCnt : ℤ
  bidCnt : ℤ
  expPrc : F
  expVol : ℤ
  ask : List (BookLevel F)
  bid : List (BookLevel F)

inductive DecodeError
  | short (tr : String) (len size : ℕ)
  | notTr (tr : String) (found : Bytes)
  deriving DecidableEq

def trCode (tr : String) : Bytes := tr.toList.map fun c => UInt8.ofNat c.toNat

def decode {α : Type*} (tr : String) (size : ℕ) (read : Bytes → α) (b : Bytes) :
    Except DecodeError α :=
  if b.length < size then .error (.short tr b.length size)
  else if fstr b 0 5 ≠ trCode tr then .error (.notTr tr (fstr b 0 5))
  else .ok (read b)

def decodeA006F : Bytes → Except DecodeError (FutMaster F) :=
  decode "A006F" 1318 fun b =>
    { code := fstr b 27 12, shortCode := fstr b 57 9, basePrc := ffloat fl b 397 11,
      prevClose := ffloat fl b 748 11 }

def decodeA306F : Bytes → Except DecodeError (FutTrade F) :=
  decode "A306F" 173 fun b =>
    { code := fstr b 17 12, last := ffloat fl b 47 9, openPrc := ffloat fl b 83 9,
      high := ffloat fl b 92 9, low := ffloat fl b 101 9 }

def decodeH306F : Bytes → Except DecodeError (FutSettle F) :=
  decode "H306F" 53 fun b =>
    { code := fstr b 5 12, settle := ffloat fl b 23 18, settleCd := fstr b 41 2,
      finalSettle := ffloat fl b 43 8 }

def askLevel (b : Bytes) (i : ℕ) : BookLevel F :=
  { prc := ffloat fl b (47 + i * 46) 9, vol := fint b (47 + i * 46 + 18) 9,
    cnt := fint b (47 + i * 46 + 36) 5 }

def bidLevel (b : Bytes) (i : ℕ) : BookLevel F :=
  { prc := ffloat fl b (47 + i * 46 + 9) 9, vol := fint b (47 + i * 46 + 27) 9,
    cnt := fint b (47 + i * 46 + 41) 5 }

def nHogaLevel : ℕ := 5

def decodeB606F : Bytes → Except DecodeError (FutBook F) :=
  decode "B606F" 324 fun b =>
    { code := fstr b 17 12, askTot := fint b 277 9, bidTot := fint b 286 9,
      askCnt := fint b 295 5, bidCnt := fint b 300 5, expPrc := ffloat fl b 305 9,
      expVol := fint b 314 9, ask := (List.range nHogaLevel).map (askLevel fl b),
      bid := (List.range nHogaLevel).map (bidLevel fl b) }

def priceDiff (cur ref : F) : F × F × Bytes :=
  if fl.le cur fl.zero ∨ fl.le ref fl.zero ∨ fl.eq cur ref then (fl.zero, fl.zero, [0x20])
  else
    let diff := fl.sub cur ref
    let rate := fl.mul (fl.div diff ref) fl.hundred
    (diff, rate, if fl.lt fl.zero rate then [0x2B] else if fl.lt rate fl.zero then [0x2D]
      else [0x20])

lemma length_code_decodeA006F {b : Bytes} {m : FutMaster F} (h : decodeA006F fl b = .ok m) :
    m.code.length ≤ 12 := by
  unfold decodeA006F decode at h
  split_ifs at h
  rw [← Except.ok.inj h]
  exact length_fstr_le _ _ _

lemma length_levels_decodeB606F {b : Bytes} {fb : FutBook F} (h : decodeB606F fl b = .ok fb) :
    fb.ask.length = nHogaLevel ∧ fb.bid.length = nHogaLevel := by
  unfold decodeB606F decode at h
  split_ifs at h
  rw [← Except.ok.inj h]
  simp

end Wtg.Krx.Decode
