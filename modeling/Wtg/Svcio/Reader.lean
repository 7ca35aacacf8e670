import Wtg.Lib.Utf8
import Wtg.Svcio.Wire

/-! # Reading fixed-width messages

The reader of `pkg/svcio/wire.go`: it walks a layout with a cursor into the message and puts what it
finds into a new object. -/

namespace Wtg.Svcio.Reader

open Lib Pricing.Doc Svcio.Wire List Lib.Utf8

structure Decodings where
  /-- Reading bytes as code page 949, unless that fails. -/
  decode : Bytes → Option (List Char)
  /-- `string(b)` of bytes that are not UTF-8. -/
  raw : Bytes → List Char

def isPad (c : Char) : Bool := c = ' ' || c = '\x00'

def trimPad (s : List Char) : List Char := (s.dropWhile isPad).rdropWhile isPad

def signOf : List Char → Bool × List Char
  | '-' :: rest => (true, rest)
  | '+' :: rest => (false, rest)
  | rest => (false, rest)

def atoi (s : List Char) : ℤ :=
  let (negative, digits) := signOf s
  if digits = [] ∨ ¬ digits.all Char.isDigit then 0
  else
    let n : ℤ := Nat.ofDigitChars 10 digits 0
    if negative then max (-n) (-2 ^ 63) else min n (2 ^ 63 - 1)

lemma rdropWhile_append {α : Type*} {p : α → Bool} {l pads : List α}
    (hpads : ∀ x ∈ pads, p x = true) : (l ++ pads).rdropWhile p = l.rdropWhile p := by
  have hall : ∀ x ∈ pads.reverse, p x = true := fun x hx => hpads x (mem_reverse.mp hx)
  unfold rdropWhile
  rw [reverse_append, dropWhile_append, dropWhile_eq_nil_iff.mpr hall]
  rfl

lemma trimPad_append {s pads : List Char} (hhead : ∀ c ∈ s.head?, isPad c = false)
    (hpads : ∀ c ∈ pads, isPad c = true) : trimPad (s ++ pads) = s.rdropWhile isPad := by
  unfold trimPad
  rcases s with _ | ⟨c, s⟩
  · rw [nil_append, dropWhile_eq_nil_iff.mpr hpads]
  · rw [cons_append, dropWhile_cons_of_neg (by simp [hhead c rfl]), ← cons_append,
      rdropWhile_append hpads]

lemma rdropWhile_eq_self {α : Type*} {p : α → Bool} {l : List α}
    (hlast : ∀ x ∈ l.getLast?, p x = false) : l.rdropWhile p = l := by
  refine rdropWhile_eq_self_iff.mpr fun hne => ?_
  rw [hlast (l.getLast hne) (getLast?_eq_some_getLast hne)]
  exact Bool.false_ne_true

lemma trimSpace_digits {s : List Char} (h : ∀ c ∈ s, c.isDigit = true) : trimSpace s = s := by
  have hspace : ∀ c ∈ s, isSpace c = false := by
    intro c hc
    have hbounds := h c hc
    simp only [Char.isDigit, Bool.and_eq_true, decide_eq_true_eq, UInt32.le_iff_toNat_le] at hbounds
    have hlow : 48 ≤ c.toNat := hbounds.1
    have hhigh : c.toNat ≤ 57 := hbounds.2
    simp only [isSpace, decide_eq_false_iff_not]
    omega
  have hdrop : ∀ l : List Char, (∀ c ∈ l, c ∈ s) → l.dropWhile isSpace = l := by
    rintro (_ | ⟨c, l⟩) hl
    · rfl
    · exact dropWhile_cons_of_neg (by simp [hspace c (hl c mem_cons_self)])
  unfold trimSpace
  rw [hdrop s fun _ hc => hc, hdrop s.reverse fun _ hc => mem_reverse.mp hc,
    reverse_reverse]

lemma atoi_digits {s : List Char} (hne : s ≠ []) (h : ∀ c ∈ s, c.isDigit = true) :
    atoi s = min (Nat.ofDigitChars 10 s 0 : ℤ) (2 ^ 63 - 1) := by
  have hall : s.all Char.isDigit = true := all_eq_true.mpr h
  have hsign : signOf s = (false, s) := by
    unfold signOf
    split
    · exact absurd (h '-' mem_cons_self) (by decide)
    · exact absurd (h '+' mem_cons_self) (by decide)
    · rfl
  simp [atoi, hsign, hne, hall]

lemma atoi_toString {n : ℕ} (hn : n < 2 ^ 63) : atoi (trimSpace (toString n).toList) = n := by
  have hdigits : ∀ c ∈ Nat.toDigits 10 n, c.isDigit = true :=
    fun c hc => Nat.isDigit_of_mem_toDigits (by omega) le_rfl hc
  rw [Nat.toString_eq_ofList_toDigits, String.toList_ofList, trimSpace_digits hdigits,
    atoi_digits Nat.toDigits_ne_nil hdigits, Nat.ofDigitChars_ten_toDigits]
  omega

/-! ## The reader -/

variable (D : Decodings)

/-- `decodeWire`: bytes that are UTF-8 are taken as such. -/
def decodeWire (b : Bytes) : List Char :=
  if b = [] then []
  else
    match Utf8.decode b with
    | some s => s
    | none =>
      match D.decode b with
      | some s => s
      | none => D.raw b

lemma decodeWire_utf8 (cs : List Char) : decodeWire D (encode cs) = cs := by
  unfold decodeWire
  split_ifs with hnil
  · have hcs : decode (encode cs) = decode (encode []) := by rw [hnil]; rfl
    rw [decode_encode, decode_encode] at hcs
    exact (Option.some.inj hcs).symm
  · rw [decode_encode]

def setMember (m : Object) (key : String) (value : Json) : Object :=
  match m with
  | [] => [(key, value)]
  | (k, v) :: rest => if k = key then (key, value) :: rest else (k, v) :: setMember rest key value

def rawAt (buf : Bytes) (cursor size : ℕ) : Bytes :=
  if cursor + size ≤ buf.length then (buf.drop cursor).take size
  else if cursor < buf.length then buf.drop cursor
  else []

structure Progress where
  cursor : ℕ
  out : Object
  lastCntStr : List Char

def cntStr (countField : String) (st : Progress) : List Char :=
  if countField ≠ "" then
    match st.out.lookup countField with
    | some (.str v) => v.toList
    | _ => st.lastCntStr
  else st.lastCntStr

def rowCount (rep : ℤ) (countField : String) (st : Progress) : ℕ :=
  let rep := if rep = -1 then max (atoi (trimSpace (cntStr countField st))) 0 else rep
  if rep ≤ 0 then 1 else rep.toNat

def readRows (read : ℕ → ℕ × Object) : ℕ → ℕ → ℕ × List Object
  | 0, cursor => (cursor, [])
  | n + 1, cursor =>
    let (moved, row) := read cursor
    let (last, rows) := readRows read n moved
    (last, row :: rows)

mutual

def readField (buf : Bytes) (st : Progress) : Field → Progress
  | ⟨name, size, rep, countField, children⟩ =>
    if children ≠ [] then
      let (cursor, rows) :=
        readRows (fun cursor =>
          let row := readFields buf ⟨cursor, [], []⟩ children
          (row.cursor, row.out)) (rowCount rep countField st) st.cursor
      ⟨cursor, setMember st.out name (.arr (rows.map .obj)), []⟩
    else if size ≤ 0 then st
    else
      let decoded := trimPad (decodeWire D (rawAt buf st.cursor size.toNat))
      ⟨st.cursor + size.toNat, setMember st.out name (.str (String.ofList decoded)), decoded⟩

def readFields (buf : Bytes) (st : Progress) : List Field → Progress
  | [] => st
  | f :: rest => readFields buf (readField buf st f) rest

end

def deserialize (fields : List Field) (buf : Bytes) : Object :=
  (readFields D buf ⟨0, [], []⟩ fields).out

def deserializeWithHeader (headerFields outputFields : List Field) (buf : Bytes) :
    Option Object × Object :=
  let header := readFields D buf ⟨0, [], []⟩ headerFields
  let cursor := if headerFields = [] then 0 else header.cursor
  let output := (readFields D buf ⟨cursor, [], []⟩ outputFields).out
  (if headerFields = [] then none else some header.out, output)

end Wtg.Svcio.Reader
