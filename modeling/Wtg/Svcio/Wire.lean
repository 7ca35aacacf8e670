import Wtg.Pricing.Doc

/-! # Fixed-width messages

The writer of `pkg/svcio/wire.go`: a JSON object is laid out as the fields of a service's input
record, each of a fixed number of bytes, nested records row by row. -/

namespace Wtg.Svcio.Wire

open Pricing.Doc List

abbrev Bytes := List UInt8

inductive Json
  | null
  | bool (b : Bool)
  | num (text : String)
  | str (s : String)
  | arr (items : List Json)
  | obj (members : List (String × Json))

abbrev Object := List (String × Json)

structure Encodings where
  /-- `json.Unmarshal` of any value. -/
  parse : Bytes → Option Json
  /-- A `float64` that was written so: an integer without decimals, else `FormatFloat 'f'`. -/
  number : String → String
  /-- `%v` of an array or an object. -/
  sprint : Json → String
  /-- The bytes of a rune in code page 949, if it has any. -/
  cp949 : Char → Option Bytes
  /-- The case tables of package `unicode`. -/
  runes : Runes

inductive Field
  | mk (name : String) (size : ℤ) (rep : ℤ) (countField : String) (children : List Field)

def Field.name : Field → String
  | ⟨name, _, _, _, _⟩ => name

def Field.rep : Field → ℤ
  | ⟨_, _, rep, _, _⟩ => rep

def Field.children : Field → List Field
  | ⟨_, _, _, _, children⟩ => children

structure SvcSpec where
  headerFields : List Field
  input : List Field

/-! ## The writer -/

variable (E : Encodings)

def strFromInput (input : Object) (key : String) : String :=
  match input.lookup key with
  | none => ""
  | some (.str s) => s
  | some (.num text) => E.number text
  | some (.bool b) => if b then "Y" else "N"
  | some .null => ""
  | some v => E.sprint v

def objectsOf : List Json → List Object
  | [] => []
  | .obj m :: rest => m :: objectsOf rest
  | _ :: rest => objectsOf rest

def nestedRows (input : Object) (key : String) : List Object :=
  match input.lookup key with
  | some (.arr items) => objectsOf items
  | some (.obj m) => [m]
  | _ => []

/-- The bytes of a rune in CP949, or `?`. -/
def runeBytes (c : Char) : Bytes :=
  match E.cp949 c with
  | some (b :: bs) => b :: bs
  | _ => [63]

def encodeRunes : List Char → ℕ → Bytes
  | [], _ => []
  | c :: cs, room =>
    let cb := runeBytes E c
    if room < cb.length then [] else cb ++ encodeRunes cs (room - cb.length)

def encodeWire (s : String) (size : ℕ) : Bytes :=
  let written := encodeRunes E s.toList size
  written ++ List.replicate (size - written.length) 32

def isCountFieldName (name : String) : Bool :=
  let s := E.runes.toLower (trimSpace name.toList)
  if s = [] then false
  else if s ∈ ["rcnt".toList, "cnt".toList, "count".toList, "nrec".toList] then true
  else "_cnt".toList.isSuffixOf s || "_count".toList.isSuffixOf s

def textOf (name : String) (next : Option Field) (input : Object) : String :=
  let v := strFromInput E input name
  if v = "" ∧ isCountFieldName E name then
    match next with
    | some f =>
      if f.children ≠ [] ∧ f.rep < 0 then toString (nestedRows input f.name).length else v
    | none => v
  else v

mutual

def writeField (input : Object) (next : Option Field) : Field → Bytes
  | ⟨name, size, rep, _, children⟩ =>
    if children ≠ [] then
      let rows := nestedRows input name
      let count := if rep < 0 then rows.length else if rep = 0 then 1 else rep.toNat
      (List.range count).flatMap fun i => writeFields (rows.getD i []) children
    else if size ≤ 0 then []
    else encodeWire E (textOf E name next input) size.toNat

def writeFields (input : Object) : List Field → Bytes
  | [] => []
  | f :: rest => writeField input rest.head? f ++ writeFields input rest

end

def serialize (fields : List Field) (input : Object) : Bytes := writeFields E input fields

def serializeWithHeader (headerFields : List Field) (header : Object) (inputFields : List Field)
    (input : Object) : Bytes :=
  writeFields E header headerFields ++ writeFields E input inputFields

lemma encodeRunes_cons (c : Char) (cs : List Char) (room : ℕ) :
    encodeRunes E (c :: cs) room =
      if room < (runeBytes E c).length then []
      else runeBytes E c ++ encodeRunes E cs (room - (runeBytes E c).length) := rfl

lemma length_encodeRunes_le : ∀ (cs : List Char) (room : ℕ),
    (encodeRunes E cs room).length ≤ room
  | [], room => Nat.zero_le room
  | c :: cs, room => by
    rw [encodeRunes_cons]
    split_ifs with hroom
    · exact Nat.zero_le room
    · have hrest := length_encodeRunes_le cs (room - (runeBytes E c).length)
      rw [length_append]
      omega

@[simp] lemma length_encodeWire (s : String) (size : ℕ) :
    (encodeWire E s size).length = size := by
  have hle := length_encodeRunes_le E s.toList size
  simp only [encodeWire, length_append, length_replicate]
  omega

mutual

def Field.Fixed : Field → Prop
  | ⟨_, _, rep, _, children⟩ => (children ≠ [] → 0 ≤ rep) ∧ AllFixed children

def AllFixed : List Field → Prop
  | [] => True
  | f :: rest => f.Fixed ∧ AllFixed rest

end

mutual

def Field.width : Field → ℕ
  | ⟨_, size, rep, _, children⟩ =>
    if children ≠ [] then (if rep = 0 then 1 else rep.toNat) * width children else size.toNat

def width : List Field → ℕ
  | [] => 0
  | f :: rest => f.width + width rest

end

lemma length_flatMap_const {α : Type*} {f : α → Bytes} {w : ℕ} : ∀ {l : List α},
    (∀ x ∈ l, (f x).length = w) → (l.flatMap f).length = l.length * w
  | [], _ => by simp
  | x :: l, h => by
    rw [flatMap_cons, length_append, h x mem_cons_self,
      length_flatMap_const fun y hy => h y (mem_cons_of_mem x hy), length_cons,
      Nat.succ_mul, Nat.add_comm]

mutual

lemma length_writeField (input : Object) (next : Option Field) :
    ∀ f : Field, f.Fixed → (writeField E input next f).length = f.width
  | ⟨name, size, rep, countField, children⟩, hfixed => by
    rw [Field.Fixed] at hfixed
    rw [writeField, Field.width]
    by_cases hchildren : children ≠ []
    · have hrep : ¬ rep < 0 := not_lt.mpr (hfixed.1 hchildren)
      simp only [if_pos hchildren, if_neg hrep]
      rw [length_flatMap_const fun i _ => length_writeFields _ children hfixed.2, length_range]
    · rw [if_neg hchildren, if_neg hchildren]
      split_ifs with hsize
      · rw [length_nil]
        omega
      · exact length_encodeWire E _ _

lemma length_writeFields (input : Object) :
    ∀ fields : List Field, AllFixed fields → (writeFields E input fields).length = width fields
  | [], _ => rfl
  | f :: rest, hfixed => by
    rw [AllFixed] at hfixed
    rw [writeFields, length_append, length_writeField input _ f hfixed.1,
      length_writeFields input rest hfixed.2, width]

end

lemma writeFields_append (input : Object) : ∀ (pre : List Field) (f : Field) (post : List Field),
    ∃ front, writeFields E input (pre ++ f :: post) =
        front ++ (writeField E input post.head? f ++ writeFields E input post) ∧
      (AllFixed (pre ++ f :: post) → front.length = width pre)
  | [], f, post => ⟨[], rfl, fun _ => rfl⟩
  | g :: pre, f, post => by
    obtain ⟨front, hwrite, hlen⟩ := writeFields_append input pre f post
    refine ⟨writeField E input (pre ++ f :: post).head? g ++ front, ?_, fun hfixed => ?_⟩
    · rw [cons_append, writeFields, hwrite, append_assoc]
    · rw [cons_append, AllFixed] at hfixed
      rw [length_append, length_writeField E input _ g hfixed.1, hlen hfixed.2, width]

end Wtg.Svcio.Wire
