import Wtg.Svcio.Reader

/-! # What is written is read back

Layouts of plain fields, records with a fixed number of rows, and variable grids behind their count
(`Layout`), and the objects that have a value for each field of one (`Fits`). -/

namespace Wtg.Svcio.RoundTrip

open Lib Pricing.Doc Svcio.Wire Svcio.Reader List Lib.Utf8

def isGrid (f : Field) : Prop := f.children ≠ [] ∧ f.rep < 0

instance : DecidablePred isGrid := fun _ => inferInstanceAs (Decidable (_ ∧ _))

def gridBehind (next : Option Field) : Option Field := next.filter (isGrid ·)

/-- A layout of fields with at least one byte, records with a fixed number of rows, and variable
grids right behind their count, with distinct names at every level. -/
inductive Layout (E : Encodings) : List Field → Prop
  | nil : Layout E []
  | text {name : String} {size rep : ℤ} {countField : String} {rest : List Field} :
    0 < size → name ∉ rest.map Field.name → Layout E rest →
    Layout E (⟨name, size, rep, countField, []⟩ :: rest)
  | record {name : String} {size rep : ℤ} {countField : String} {children rest : List Field} :
    0 ≤ rep → children ≠ [] → Layout E children → name ∉ rest.map Field.name → Layout E rest →
    Layout E (⟨name, size, rep, countField, children⟩ :: rest)
  | grid {count name : String} {width rep size : ℤ} {other countField : String}
      {children rest : List Field} :
    0 < width → isCountFieldName E count → countField = "" ∨ countField = count →
    children ≠ [] → Layout E children → count ∉ name :: rest.map Field.name →
    name ∉ rest.map Field.name → Layout E rest →
    Layout E (⟨count, width, rep, other, []⟩ :: ⟨name, size, -1, countField, children⟩ :: rest)

/-- An ASCII text that neither begins nor ends with a blank or NUL. -/
def Plain (s : List Char) : Prop :=
  (∀ c ∈ s, Utf8.IsAscii c) ∧ (∀ c ∈ s.head?, isPad c = false) ∧ ∀ c ∈ s.getLast?, isPad c = false

mutual

def FieldFits (v : Object) (next : Option Field) : Field → Prop
  | ⟨name, size, rep, _, children⟩ =>
    if children ≠ [] then
      ∃ rows : List Object, v.lookup name = some (.arr (rows.map .obj)) ∧
        (0 ≤ rep → rows.length = max 1 rep.toNat) ∧ rows.length < 2 ^ 63 ∧
        ∀ row ∈ rows, Fits row children
    else
      match gridBehind next with
      | some grid =>
        v.lookup name = none ∧
          (toString (nestedRows v grid.name).length).toList.length ≤ size.toNat
      | none => ∃ s : String, v.lookup name = some (.str s) ∧ Plain s.toList ∧
          s.toList.length ≤ size.toNat

/-- The object has a value for every field of a layout. -/
def Fits (v : Object) : List Field → Prop
  | [] => True
  | f :: rest => FieldFits v rest.head? f ∧ Fits v rest

end

mutual

def FieldBack (v out : Object) (next : Option Field) : Field → Prop
  | ⟨name, _, _, _, children⟩ =>
    if children ≠ [] then
      ∃ rows backs : List Object, v.lookup name = some (.arr (rows.map .obj)) ∧
        out.lookup name = some (.arr (backs.map .obj)) ∧
        List.Forall₂ (fun row back =>
          (back.map Prod.fst).Perm (children.map Field.name) ∧ MembersBack row back children)
          rows backs
    else
      match gridBehind next with
      | some grid => out.lookup name = some (.str (toString (nestedRows v grid.name).length))
      | none => out.lookup name = v.lookup name

def MembersBack (v out : Object) : List Field → Prop
  | [] => True
  | f :: rest => FieldBack v out rest.head? f ∧ MembersBack v out rest

end

/-- **The object is given back:** `out` has the fields of the layout and no others, each of them as
in `v`, and each count. -/
def GivesBack (fields : List Field) (v out : Object) : Prop :=
  (out.map Prod.fst).Perm (fields.map Field.name) ∧ MembersBack v out fields

mutual

def FieldFilled (v : Object) : Field → Prop
  | ⟨name, _, rep, _, children⟩ =>
    children ≠ [] →
      (rep < 0 → nestedRows v name ≠ []) ∧ ∀ row ∈ nestedRows v name, Filled row children

/-- No grid of the object is empty, at any level. -/
def Filled (v : Object) : List Field → Prop
  | [] => True
  | f :: rest => FieldFilled v f ∧ Filled v rest

end

/-- The code page gives ASCII characters their own bytes. -/
def KeepsAscii (E : Encodings) : Prop := ∀ c, Utf8.IsAscii c → E.cp949 c = some [Utf8.asciiByte c]

/-! ## Fields -/

section

variable {E : Encodings} {D : Decodings}

lemma encodeRunes_ascii (hE : KeepsAscii E) : ∀ {cs : List Char} {room : ℕ},
    (∀ c ∈ cs, IsAscii c) → cs.length ≤ room →
    encodeRunes E cs room = cs.map asciiByte
  | [], _, _, _ => rfl
  | c :: cs, room, hcs, hroom => by
    have hc : runeBytes E c = [asciiByte c] := by
      rw [runeBytes, hE c (hcs c mem_cons_self)]
    rw [length_cons] at hroom
    rw [encodeRunes_cons, hc, length_singleton, if_neg (by omega),
      encodeRunes_ascii hE (fun d hd => hcs d (mem_cons_of_mem c hd)) (by omega)]
    rfl

lemma encodeWire_ascii (hE : KeepsAscii E) {s : String} {size : ℕ}
    (hs : ∀ c ∈ s.toList, IsAscii c) (hsize : s.toList.length ≤ size) :
    encodeWire E s size =
      encode (s.toList ++ replicate (size - s.toList.length) ' ') := by
  have hblanks : ∀ c ∈ replicate (size - s.toList.length) ' ', IsAscii c := by
    intro c hc
    rw [(mem_replicate.mp hc).2]
    decide
  rw [encode_append, encode_ascii hs, encode_ascii hblanks, encodeWire,
    encodeRunes_ascii hE hs hsize, length_map, map_replicate]
  rfl

lemma trimPad_decodeWire (hE : KeepsAscii E) {s : String} {size : ℕ} (hs : Plain s.toList)
    (hsize : s.toList.length ≤ size) : trimPad (decodeWire D (encodeWire E s size)) = s.toList := by
  obtain ⟨hascii, hhead, hlast⟩ := hs
  rw [encodeWire_ascii hE hascii hsize, decodeWire_utf8, trimPad_append hhead,
    rdropWhile_eq_self hlast]
  intro c hc
  rw [(mem_replicate.mp hc).2]
  rfl

lemma plain_toString (n : ℕ) : Plain (toString n).toList := by
  rw [Nat.toString_eq_ofList_toDigits, String.toList_ofList]
  have hdigit : ∀ c ∈ Nat.toDigits 10 n, 48 ≤ c.toNat ∧ c.toNat ≤ 57 := by
    intro c hc
    have hbounds := Nat.isDigit_of_mem_toDigits (by omega) le_rfl hc
    simp only [Char.isDigit, Bool.and_eq_true, decide_eq_true_eq, UInt32.le_iff_toNat_le] at hbounds
    exact hbounds
  have hpad : ∀ c ∈ Nat.toDigits 10 n, isPad c = false := by
    intro c hc
    have hlow := (hdigit c hc).1
    have hblank : c ≠ ' ' := by rintro rfl; revert hlow; decide
    have hnul : c ≠ '\x00' := by rintro rfl; revert hlow; decide
    simp [isPad, hblank, hnul]
  refine ⟨fun c hc => ?_, fun c hc => hpad c (mem_of_mem_head? hc),
    fun c hc => hpad c (mem_of_mem_getLast? hc)⟩
  have hhigh := (hdigit c hc).2
  show c.toNat < 128
  omega

lemma rawAt_append (pre mid post : Bytes) :
    rawAt (pre ++ mid ++ post) pre.length mid.length = mid := by
  unfold rawAt
  rw [if_pos (by simp), append_assoc, drop_left, take_left]

lemma setMember_of_notMem : ∀ {m : Object} {key : String} (value : Json),
    key ∉ m.map Prod.fst → setMember m key value = m ++ [(key, value)]
  | [], _, _, _ => rfl
  | (k, v) :: m, key, value, h => by
    rw [map_cons, mem_cons, not_or] at h
    rw [setMember, if_neg (Ne.symm h.1), setMember_of_notMem value h.2]
    rfl

lemma lookup_append_cons {m rest : Object} {key : String} {value : Json}
    (h : key ∉ m.map Prod.fst) : (m ++ (key, value) :: rest).lookup key = some value := by
  refine lookup_eq_some_iff.mpr ⟨m, rest, rfl, fun p hp => ?_⟩
  rw [bne_iff_ne]
  rintro rfl
  exact h (mem_map_of_mem hp)

@[simp] lemma objectsOf_map : ∀ rows : List Object, objectsOf (rows.map .obj) = rows
  | [] => rfl
  | row :: rows => by rw [map_cons, objectsOf, objectsOf_map rows]

lemma nestedRows_of_lookup {v : Object} {name : String} {rows : List Object}
    (h : v.lookup name = some (.arr (rows.map .obj))) : nestedRows v name = rows := by
  rw [nestedRows, h]
  exact objectsOf_map rows

lemma range_flatMap_getD (write : Object → Bytes) (rows : List Object) :
    ((range rows.length).flatMap fun i => write (rows.getD i [])) = rows.flatMap write := by
  induction rows with
  | nil => rfl
  | cons row rows ih =>
    rw [length_cons, range_succ_eq_map, flatMap_cons, flatMap_map,
      flatMap_cons, ← ih]
    rfl

lemma writeField_rows {v : Object} {next : Option Field} {name countField : String}
    {size rep : ℤ} {children : List Field} {rows : List Object} (hchildren : children ≠ [])
    (hrows : v.lookup name = some (.arr (rows.map .obj)))
    (hrep : 0 ≤ rep → rows.length = max 1 rep.toNat) :
    writeField E v next ⟨name, size, rep, countField, children⟩ =
      rows.flatMap fun row => writeFields E row children := by
  have hcount : (if rep < 0 then rows.length else if rep = 0 then 1 else rep.toNat) =
      rows.length := by
    split_ifs with hneg hzero
    · rfl
    · rw [hrep (by omega), hzero]
      rfl
    · rw [hrep (by omega)]
      omega
  rw [writeField, if_pos hchildren, nestedRows_of_lookup hrows]
  simp only [hcount]
  exact range_flatMap_getD (fun row => writeFields E row children) rows

lemma readRows_flatMap (read : Bytes → ℕ → ℕ × Object) (write : Object → Bytes)
    (back : Object → Object) : ∀ {rows : List Object},
    (∀ row ∈ rows, ∀ pre post : Bytes, read (pre ++ write row ++ post) pre.length =
      (pre.length + (write row).length, back row)) →
    ∀ pre post : Bytes, readRows (read (pre ++ rows.flatMap write ++ post)) rows.length pre.length =
      (pre.length + (rows.flatMap write).length, rows.map back)
  | [], _, _, _ => rfl
  | row :: rows, h, pre, post => by
    have hbuf : pre ++ (row :: rows).flatMap write ++ post =
        pre ++ write row ++ (rows.flatMap write ++ post) := by simp
    have hbuf' : pre ++ (row :: rows).flatMap write ++ post =
        (pre ++ write row) ++ rows.flatMap write ++ post := by simp
    have hrow : read (pre ++ (row :: rows).flatMap write ++ post) pre.length =
        (pre.length + (write row).length, back row) := by
      rw [hbuf]
      exact h row mem_cons_self pre _
    have hrest := readRows_flatMap read write back (fun r hr => h r (mem_cons_of_mem row hr))
      (pre ++ write row) post
    rw [← hbuf', length_append] at hrest
    simp only [length_cons, readRows, hrow, hrest]
    rw [flatMap_cons, length_append, map_cons, Nat.add_assoc]

end

/-! ## Walking a layout -/

section

variable (E : Encodings) (D : Decodings)

mutual

def valueOf (v : Object) (next : Option Field) : Field → Json
  | ⟨name, _, _, _, children⟩ =>
    if children ≠ [] then .arr ((nestedRows v name).map fun row => .obj (counted row children))
    else .str (textOf E name next v)

def counted (v : Object) : List Field → Object
  | [] => []
  | f :: rest => (f.name, valueOf v rest.head? f) :: counted v rest

end

lemma counted_keys (v : Object) : ∀ fields : List Field,
    (counted E v fields).map Prod.fst = fields.map Field.name
  | [] => rfl
  | f :: rest => by rw [counted, map_cons, map_cons, counted_keys v rest]

variable {E D} {v : Object} {f : Field} {next : Option Field} {name countField : String}
  {size rep : ℤ} {children rest : List Field} {st : Progress}

lemma gridBehind_of_isGrid (h : isGrid f) : gridBehind (some f) = some f := by
  simp [gridBehind, h]

lemma gridBehind_of_not (h : ¬ isGrid f) : gridBehind (some f) = none := by
  simp [gridBehind, h]

variable {fields : List Field}

lemma Layout.gridBehind_head (h : Layout E fields) : gridBehind fields.head? = none := by
  rcases h with _ | ⟨-, -, -⟩ | ⟨hrep, -, -, -, -⟩ | ⟨-, -, -, -, -, -, -, -⟩
  · rfl
  · exact gridBehind_of_not fun hf => hf.1 rfl
  · exact gridBehind_of_not fun hf => not_le.mpr hf.2 hrep
  · exact gridBehind_of_not fun hf => hf.1 rfl

lemma textOf_of_no_grid (h : gridBehind next = none) :
    textOf E name next v = strFromInput E v name := by
  rcases next with _ | f
  · simp [textOf]
  · have hf : ¬ isGrid f := by simpa [gridBehind] using h
    have hcond : ¬ (f.children ≠ [] ∧ f.rep < 0) := hf
    simp only [textOf, if_neg hcond, ite_self]

lemma textOf_of_grid (hcount : isCountFieldName E name) (hf : isGrid f)
    (homitted : v.lookup name = none) :
    textOf E name (some f) v = toString (nestedRows v f.name).length := by
  have hempty : strFromInput E v name = "" := by rw [strFromInput, homitted]
  simp only [textOf, hempty, hcount, and_self, if_true]
  exact if_pos hf

lemma rowCount_fixed (h : 0 ≤ rep) : rowCount rep countField st = max 1 rep.toNat := by
  have hrep : (if rep = -1 then max (atoi (trimSpace (cntStr countField st))) 0 else rep) = rep :=
    if_neg (by omega)
  simp only [rowCount, hrep]
  split_ifs <;> omega

lemma rowCount_grid {n : ℕ} {count : String} (hn : 0 < n) (hbound : n < 2 ^ 63)
    (hcount : countField = "" ∨ countField = count) (hlast : st.lastCntStr = (toString n).toList)
    (hout : st.out.lookup count = some (.str (toString n))) : rowCount (-1) countField st = n := by
  have htext : cntStr countField st = (toString n).toList := by
    unfold cntStr
    split_ifs with hne
    · rw [hcount.resolve_left hne, hout]
    · exact hlast
  simp only [rowCount, if_true, htext, atoi_toString hbound]
  rw [if_neg (by omega)]
  omega

variable (E D) in
def Walks (v : Object) (fields : List Field) (st : Progress) : Prop :=
  ∀ pre post : Bytes, st.cursor = pre.length →
    (readFields D (pre ++ writeFields E v fields ++ post) st fields).cursor =
        pre.length + (writeFields E v fields).length ∧
      (readFields D (pre ++ writeFields E v fields ++ post) st fields).out =
        st.out ++ counted E v fields

lemma Walks.nil (v : Object) (st : Progress) : Walks E D v [] st :=
  fun pre post hcursor => ⟨by simpa [readFields, writeFields] using hcursor,
    by simp [readFields, counted]⟩

variable (E D) in
def FieldWalks (v : Object) (next : Option Field) (f : Field) (st : Progress)
    (last : List Char) : Prop :=
  ∀ pre post : Bytes, st.cursor = pre.length →
    readField D (pre ++ writeField E v next f ++ post) st f =
      ⟨pre.length + (writeField E v next f).length, st.out ++ [(f.name, valueOf E v next f)], last⟩

lemma Walks.cons {last : List Char}
    (hrest : Walks E D v rest ⟨st.cursor + (writeField E v rest.head? f).length,
      st.out ++ [(f.name, valueOf E v rest.head? f)], last⟩)
    (hf : FieldWalks E D v rest.head? f st last) : Walks E D v (f :: rest) st := by
  intro pre post hcursor
  have hstep := hf pre (writeFields E v rest ++ post) hcursor
  have hwalk := hrest (pre ++ writeField E v rest.head? f) post (by simp [hcursor])
  have hbuf : pre ++ writeFields E v (f :: rest) ++ post =
      pre ++ writeField E v rest.head? f ++ (writeFields E v rest ++ post) := by simp [writeFields]
  have hbuf' : pre ++ writeField E v rest.head? f ++ writeFields E v rest ++ post =
      pre ++ writeField E v rest.head? f ++ (writeFields E v rest ++ post) := by simp
  rw [hbuf'] at hwalk
  rw [hbuf, readFields, hstep, ← hcursor]
  refine ⟨?_, ?_⟩
  · rw [hwalk.1, writeFields, length_append, length_append, hcursor]
    omega
  · rw [hwalk.2, counted, append_assoc]
    rfl

lemma FieldWalks.text (hE : KeepsAscii E) {s : String} (hsize : 0 < size)
    (htext : textOf E name next v = s) (hs : Plain s.toList)
    (hfits : s.toList.length ≤ size.toNat) (hout : name ∉ st.out.map Prod.fst) :
    FieldWalks E D v next ⟨name, size, rep, countField, []⟩ st s.toList := by
  intro pre post hcursor
  have hwrite : writeField E v next ⟨name, size, rep, countField, []⟩ =
      encodeWire E s size.toNat := by
    rw [writeField, if_neg (by simp), if_neg (by omega), htext]
  have hraw := rawAt_append pre (encodeWire E s size.toNat) post
  rw [length_encodeWire] at hraw
  rw [hwrite, readField, if_neg (by simp), if_neg (by omega), hcursor, hraw,
    trimPad_decodeWire hE hs hfits, length_encodeWire, valueOf, if_neg (by simp), htext]
  simp only [String.ofList_toList, setMember_of_notMem _ hout]
  rfl

lemma FieldWalks.rows {rows : List Object} (hchildren : children ≠ [])
    (hrows : v.lookup name = some (.arr (rows.map .obj)))
    (hrep : 0 ≤ rep → rows.length = max 1 rep.toNat)
    (hcount : rowCount rep countField st = rows.length)
    (hread : ∀ row ∈ rows, ∀ cursor, Walks E D row children ⟨cursor, [], []⟩)
    (hout : name ∉ st.out.map Prod.fst) :
    FieldWalks E D v next ⟨name, size, rep, countField, children⟩ st [] := by
  intro pre post hcursor
  have hrow : ∀ row ∈ rows, ∀ pre post : Bytes,
      ((readFields D (pre ++ writeFields E row children ++ post) ⟨pre.length, [], []⟩
          children).cursor,
        (readFields D (pre ++ writeFields E row children ++ post) ⟨pre.length, [], []⟩
          children).out) =
        (pre.length + (writeFields E row children).length, counted E row children) := by
    intro row hmem pre post
    obtain ⟨hend, hcounted⟩ := hread row hmem pre.length pre post rfl
    exact Prod.ext hend hcounted
  have hloop := readRows_flatMap
    (fun buf cursor =>
      ((readFields D buf ⟨cursor, [], []⟩ children).cursor,
        (readFields D buf ⟨cursor, [], []⟩ children).out))
    (fun row => writeFields E row children) (fun row => counted E row children) hrow pre post
  rw [writeField_rows hchildren hrows hrep, readField, if_pos hchildren, hcount, hcursor]
  simp only [hloop, setMember_of_notMem _ hout]
  rw [valueOf, if_pos hchildren, nestedRows_of_lookup hrows, map_map]
  rfl

lemma fresh_concat {out : Object} {value : Json}
    (hout : ∀ g ∈ f :: rest, g.name ∉ out.map Prod.fst) (hname : f.name ∉ rest.map Field.name) :
    ∀ g ∈ rest, g.name ∉ (out ++ [(f.name, value)]).map Prod.fst := by
  intro g hg hmem
  rw [map_append, mem_append, map_singleton, mem_singleton] at hmem
  rcases hmem with hmem | hmem
  · exact hout g (mem_cons_of_mem _ hg) hmem
  · have hsame : g.name = f.name := hmem
    exact hname (hsame ▸ mem_map_of_mem hg)

lemma Layout.fits_text (hrest : Layout E rest)
    (h : Fits v (⟨name, size, rep, countField, []⟩ :: rest)) :
    (∃ s : String, v.lookup name = some (.str s) ∧ Plain s.toList ∧ s.toList.length ≤ size.toNat) ∧
      Fits v rest := by
  rw [Fits, FieldFits, if_neg (by simp), hrest.gridBehind_head] at h
  exact h

lemma Fits.record (hchildren : children ≠ [])
    (h : Fits v (⟨name, size, rep, countField, children⟩ :: rest)) :
    (∃ rows : List Object, v.lookup name = some (.arr (rows.map .obj)) ∧
      (0 ≤ rep → rows.length = max 1 rep.toNat) ∧ rows.length < 2 ^ 63 ∧
        ∀ row ∈ rows, Fits row children) ∧ Fits v rest := by
  rw [Fits, FieldFits, if_pos hchildren] at h
  exact h

lemma Fits.count {count other : String} {width : ℤ} {grid : Field} (hgrid : isGrid grid)
    (h : Fits v (⟨count, width, rep, other, []⟩ :: grid :: rest)) :
    (v.lookup count = none ∧
      (toString (nestedRows v grid.name).length).toList.length ≤ width.toNat) ∧
        Fits v (grid :: rest) := by
  rw [Fits, FieldFits, if_neg (by simp), head?_cons, gridBehind_of_isGrid hgrid] at h
  exact h

lemma lookup_counted (v : Object) {front : Object} (rest : List Field)
    (h : f.name ∉ front.map Prod.fst) :
    (front ++ counted E v (f :: rest)).lookup f.name = some (valueOf E v rest.head? f) :=
  lookup_append_cons h

lemma FieldBack.rows {out : Object} {rows : List Object} (hchildren : children ≠ [])
    (hrows : v.lookup name = some (.arr (rows.map .obj)))
    (hout : out.lookup name = some (valueOf E v next ⟨name, size, rep, countField, children⟩))
    (hback : ∀ row ∈ rows, MembersBack row (counted E row children) children) :
    FieldBack v out next ⟨name, size, rep, countField, children⟩ := by
  rw [valueOf, if_pos hchildren, nestedRows_of_lookup hrows] at hout
  rw [FieldBack, if_pos hchildren]
  refine ⟨rows, rows.map fun row => counted E row children, hrows, ?_, ?_⟩
  · rw [hout, map_map]
    rfl
  · rw [forall₂_map_right_iff, forall₂_same]
    exact fun row hrow => ⟨by rw [counted_keys], hback row hrow⟩

variable (E D) in
/-- The fields are read as they were written, and what is read gives them back. -/
def Returns (v : Object) (fields : List Field) (st : Progress) : Prop :=
  Walks E D v fields st ∧ MembersBack v (st.out ++ counted E v fields) fields

lemma Returns.cons {last : List Char} (hf : FieldWalks E D v rest.head? f st last)
    (hb : FieldBack v (st.out ++ counted E v (f :: rest)) rest.head? f)
    (hrest : Returns E D v rest ⟨st.cursor + (writeField E v rest.head? f).length,
      st.out ++ [(f.name, valueOf E v rest.head? f)], last⟩) : Returns E D v (f :: rest) st := by
  obtain ⟨hwalk, hback⟩ := hrest
  rw [append_assoc] at hback
  exact ⟨hwalk.cons hf, hb, hback⟩

lemma Layout.returns (hE : KeepsAscii E) (hl : Layout E fields) :
    ∀ {v : Object} {st : Progress}, Fits v fields → Filled v fields →
      (∀ f ∈ fields, f.name ∉ st.out.map Prod.fst) → Returns E D v fields st := by
  induction hl with
  | nil => exact fun _ _ _ => ⟨Walks.nil _ _, trivial⟩
  | @text name size rep countField rest hsize hname hrest ih =>
    intro v st hfits hfilled hout
    obtain ⟨⟨s, hlookup, hs, hlen⟩, hfits⟩ := hrest.fits_text hfits
    have htext : textOf E name rest.head? v = s := by
      rw [textOf_of_no_grid hrest.gridBehind_head, strFromInput, hlookup]
    refine .cons (.text hE hsize htext hs hlen (hout _ mem_cons_self)) ?_
      (ih hfits hfilled.2 (fresh_concat hout hname))
    have hvalue := lookup_counted (E := E) v rest (hout _ mem_cons_self)
    rw [valueOf, if_neg (by simp), htext] at hvalue
    rw [FieldBack, if_neg (by simp), hrest.gridBehind_head, hlookup]
    exact hvalue
  | @record name size rep countField children rest hrep hchildren hlayout hname hrest ihc ih =>
    intro v st hfits hfilled hout
    obtain ⟨⟨rows, hrows, hlen, -, hrow⟩, hfits⟩ := hfits.record hchildren
    rw [Filled, FieldFilled, nestedRows_of_lookup hrows] at hfilled
    have hread : ∀ row ∈ rows, ∀ cursor, Returns E D row children ⟨cursor, [], []⟩ :=
      fun row hmem cursor =>
        ihc (hrow row hmem) ((hfilled.1 hchildren).2 row hmem) fun f _ => not_mem_nil
    refine .cons (.rows hchildren hrows hlen (by rw [rowCount_fixed hrep, hlen hrep])
        (fun row hmem cursor => (hread row hmem cursor).1) (hout _ mem_cons_self))
      (.rows hchildren hrows (lookup_counted v rest (hout _ mem_cons_self))
        fun row hmem => (hread row hmem 0).2) (ih hfits hfilled.2 (fresh_concat hout hname))
  | @grid count name width rep size other countField children rest hwidth hcount hdecl hchildren
      hlayout hcountname hname hrest ihc ih =>
    intro v st hfits hfilled hout
    have hgrid : isGrid ⟨name, size, -1, countField, children⟩ := ⟨hchildren, Int.negSucc_lt_zero 0⟩
    obtain ⟨⟨homitted, hwide⟩, hfits⟩ := hfits.count hgrid
    obtain ⟨⟨rows, hrows, hlen, hbound, hrow⟩, hfits⟩ := hfits.record hchildren
    rw [Filled, Filled] at hfilled
    obtain ⟨-, hgridfilled, hfilled⟩ := hfilled
    rw [FieldFilled, nestedRows_of_lookup hrows] at hgridfilled
    obtain ⟨hnonempty, hrowsfilled⟩ := hgridfilled hchildren
    have hsome : 0 < rows.length := length_pos_of_ne_nil (hnonempty (by decide))
    have htext := textOf_of_grid hcount hgrid homitted
    have hfresh : ∀ value, ∀ f ∈ (⟨name, size, -1, countField, children⟩ :: rest : List Field),
        f.name ∉ (st.out ++ [(count, value)]).map Prod.fst :=
      fun value => fresh_concat hout hcountname
    have hread : ∀ row ∈ rows, ∀ cursor, Returns E D row children ⟨cursor, [], []⟩ :=
      fun row hmem cursor => ihc (hrow row hmem) (hrowsfilled row hmem) fun f _ => not_mem_nil
    have hvalue := lookup_counted (E := E) v (⟨name, size, -1, countField, children⟩ :: rest)
      (hout _ mem_cons_self)
    rw [valueOf, if_neg (by simp), head?_cons, htext] at hvalue
    -- The count is read as a text, and the grid with that many rows.
    refine .cons (.text hE hwidth htext (plain_toString _) hwide (hout _ mem_cons_self)) ?_
      (.cons (.rows hchildren hrows hlen ?_ (fun row hmem cursor => (hread row hmem cursor).1)
          (hfresh _ _ mem_cons_self))
        (.rows hchildren hrows (lookup_counted v rest (hfresh _ _ mem_cons_self))
          fun row hmem => (hread row hmem 0).2) (ih hfits hfilled (fresh_concat (hfresh _) hname)))
    · rw [FieldBack, if_neg (by simp), head?_cons, gridBehind_of_isGrid hgrid]
      exact hvalue
    · rw [Field.name, nestedRows_of_lookup hrows] at htext
      refine rowCount_grid hsome hbound hdecl ?_ ?_
      · show (toString (nestedRows v name).length).toList = _
        rw [nestedRows_of_lookup hrows]
      · rw [valueOf, if_neg (by simp), head?_cons, htext]
        exact lookup_append_cons (hout _ mem_cons_self)

lemma Returns.givesBack {cursor : ℕ} (h : Returns E D v fields ⟨cursor, [], []⟩) :
    GivesBack fields v (counted E v fields) := ⟨by rw [counted_keys], h.2⟩

/-- **A header and the message behind it are both read back.** -/
theorem deserializeWithHeader_serializeWithHeader (hE : KeepsAscii E)
    {headerFields fields : List Field} {header : Object} (hheader : Layout E headerFields)
    (hfields : Layout E fields) (hfits : Fits header headerFields) (hv : Fits v fields)
    (hfilled : Filled header headerFields) (hvfilled : Filled v fields) :
    let read := deserializeWithHeader D headerFields fields
      (serializeWithHeader E headerFields header fields v)
    (headerFields ≠ [] → ∃ back ∈ read.1, GivesBack headerFields header back) ∧
      GivesBack fields v read.2 := by
  have hfirst : Returns E D header headerFields ⟨0, [], []⟩ :=
    hheader.returns hE hfits hfilled fun _ _ => not_mem_nil
  obtain ⟨hcursor, hout⟩ := hfirst.1 [] (writeFields E v fields) rfl
  have hthen : Returns E D v fields ⟨(writeFields E header headerFields).length, [], []⟩ :=
    hfields.returns hE hv hvfilled fun _ _ => not_mem_nil
  obtain ⟨-, hrest⟩ := hthen.1 (writeFields E header headerFields) [] rfl
  simp only [nil_append, length_nil, Nat.zero_add, append_nil] at hcursor hout hrest
  -- Without header fields nothing is written before the message.
  have hstart : (if headerFields = [] then 0 else (readFields D
      (writeFields E header headerFields ++ writeFields E v fields) ⟨0, [], []⟩
        headerFields).cursor) = (writeFields E header headerFields).length := by
    split_ifs with hnil
    · rw [hnil]
      rfl
    · exact hcursor
  simp only [deserializeWithHeader, serializeWithHeader, hstart, hout, hrest]
  exact ⟨fun hne => ⟨_, if_neg hne, hfirst.givesBack⟩, hthen.givesBack⟩

end

/-! ## What is found again -/

variable {E : Encodings} {D : Decodings}

lemma exists_of_forall₂ {α β : Type*} {R : α → β → Prop} {xs : List α} {ys : List β}
    (h : List.Forall₂ R xs ys) {x : α} (hx : x ∈ xs) : ∃ y ∈ ys, R x y := by
  induction h with
  | nil => exact absurd hx not_mem_nil
  | cons hxy _ ih =>
    rcases mem_cons.mp hx with rfl | hx
    · exact ⟨_, mem_cons_self, hxy⟩
    · obtain ⟨y, hy, hR⟩ := ih hx
      exact ⟨y, mem_cons_of_mem _ hy, hR⟩

lemma lookup_setMember_self : ∀ (m : Object) (key : String) (value : Json),
    (setMember m key value).lookup key = some value
  | [], key, value => by simp [setMember]
  | (k, v) :: m, key, value => by
    rw [setMember]
    split_ifs with hk
    · simp
    · rw [lookup_cons, beq_false_of_ne (Ne.symm hk)]
      exact lookup_setMember_self m key value

lemma lookup_setMember_ne {key name : String} (hne : name ≠ key) :
    ∀ (m : Object) (value : Json), (setMember m key value).lookup name = m.lookup name
  | [], value => by rw [setMember, lookup_cons, beq_false_of_ne hne]
  | (k, v) :: m, value => by
    rw [setMember]
    split_ifs with hk
    · rw [hk, lookup_cons, lookup_cons, beq_false_of_ne hne]
    · rw [lookup_cons, lookup_cons, lookup_setMember_ne hne m value]

variable {buf : Bytes}

lemma lookup_readField {st : Progress} {f : Field} {name : String} (h : name ≠ f.name) :
    (readField D buf st f).out.lookup name = st.out.lookup name := by
  rcases f with ⟨key, size, rep, countField, children⟩
  rw [readField]
  split_ifs
  · exact lookup_setMember_ne h st.out _
  · rfl
  · exact lookup_setMember_ne h st.out _

lemma lookup_readFields {name : String} : ∀ {fields : List Field} {st : Progress},
    name ∉ fields.map Field.name → (readFields D buf st fields).out.lookup name = st.out.lookup name
  | [], _, _ => rfl
  | f :: rest, st, h => by
    rw [map_cons, mem_cons, not_or] at h
    rw [readFields, lookup_readFields h.2, lookup_readField h.1]

lemma rowCount_pos (rep : ℤ) (countField : String) (st : Progress) :
    0 < rowCount rep countField st := by
  simp only [rowCount]
  split_ifs <;> omega

lemma length_readRows (read : ℕ → ℕ × Object) : ∀ n cursor : ℕ,
    (readRows read n cursor).2.length = n
  | 0, _ => rfl
  | n + 1, cursor => by simp [readRows, length_readRows read n]

lemma mem_readRows {read : ℕ → ℕ × Object} {row : Object} : ∀ {n cursor : ℕ},
    row ∈ (readRows read n cursor).2 → ∃ at_, (read at_).2 = row
  | 0, _, h => by simp [readRows] at h
  | n + 1, cursor, h => by
    simp only [readRows, mem_cons] at h
    rcases h with rfl | h
    · exact ⟨cursor, rfl⟩
    · exact mem_readRows h

variable {children : List Field}

lemma readField_nested (buf : Bytes) (st : Progress) (name countField : String) (size rep : ℤ)
    (hchildren : children ≠ []) :
    ∃ rows : List Object, rows ≠ [] ∧
      (readField D buf st ⟨name, size, rep, countField, children⟩).out.lookup name =
        some (.arr (rows.map .obj)) ∧
      ∀ row ∈ rows, ∃ cursor, (readFields D buf ⟨cursor, [], []⟩ children).out = row := by
  rw [readField, if_pos hchildren]
  refine ⟨_, ?_, lookup_setMember_self _ _ _, fun row hrow => mem_readRows hrow⟩
  refine ne_nil_of_length_pos ?_
  rw [length_readRows]
  exact rowCount_pos rep countField st

variable {name countField : String}

lemma fieldFilled_readFields {st : Progress} {size rep : ℤ} {children rest : List Field}
    (hname : name ∉ rest.map Field.name)
    (hrows : ∀ st, Filled (readFields D buf st children).out children) :
    FieldFilled (readFields D buf st (⟨name, size, rep, countField, children⟩ :: rest)).out
      ⟨name, size, rep, countField, children⟩ := by
  rw [FieldFilled]
  intro hchildren
  obtain ⟨rows, hne, hlookup, hread⟩ :=
    readField_nested (D := D) buf st name countField size rep hchildren
  rw [readFields, nestedRows_of_lookup ((lookup_readFields hname).trans hlookup)]
  refine ⟨fun _ => hne, fun row hrow => ?_⟩
  obtain ⟨cursor, rfl⟩ := hread row hrow
  exact hrows _

variable {fields : List Field}

lemma Layout.filled_readFields (hl : Layout E fields) (buf : Bytes) :
    ∀ st : Progress, Filled (readFields D buf st fields).out fields := by
  induction hl with
  | nil => exact fun _ => trivial
  | text hsize hname hrest ih => exact fun st => ⟨fun h => absurd rfl h, ih _⟩
  | record hrep hchildren hlayout hname hrest ihc ih =>
    exact fun st => ⟨fieldFilled_readFields hname ihc, ih _⟩
  | grid hwidth hcount hdecl hchildren hlayout hcountname hname hrest ihc ih =>
    exact fun st => ⟨fun h => absurd rfl h, fieldFilled_readFields hname ihc, ih _⟩

lemma FieldBack.filled {v out : Object} {next : Option Field}
    {size rep : ℤ}
    (hback : FieldBack v out next ⟨name, size, rep, countField, children⟩)
    (hfilled : FieldFilled out ⟨name, size, rep, countField, children⟩)
    (hrows : ∀ row back, MembersBack row back children → Filled back children →
      Filled row children) : FieldFilled v ⟨name, size, rep, countField, children⟩ := by
  rw [FieldFilled]
  intro hchildren
  rw [FieldBack, if_pos hchildren] at hback
  obtain ⟨rows, backs, hv, hout, hsame⟩ := hback
  rw [FieldFilled, nestedRows_of_lookup hout] at hfilled
  obtain ⟨hne, hfilled⟩ := hfilled hchildren
  rw [nestedRows_of_lookup hv]
  refine ⟨fun hrep => ?_, fun row hrow => ?_⟩
  · have hlen := hsame.length_eq
    have hpos := length_pos_of_ne_nil (hne hrep)
    exact ne_nil_of_length_pos (by omega)
  · obtain ⟨back, hmem, -, hmembers⟩ := exists_of_forall₂ hsame hrow
    exact hrows row back hmembers (hfilled back hmem)

lemma Layout.filled_of_back (hl : Layout E fields) :
    ∀ v out : Object, MembersBack v out fields → Filled out fields → Filled v fields := by
  induction hl with
  | nil => exact fun _ _ _ _ => trivial
  | text hsize hname hrest ih =>
    exact fun v out hback hfilled => ⟨fun h => absurd rfl h, ih v out hback.2 hfilled.2⟩
  | record hrep hchildren hlayout hname hrest ihc ih =>
    exact fun v out hback hfilled =>
      ⟨hback.1.filled hfilled.1 ihc, ih v out hback.2 hfilled.2⟩
  | grid hwidth hcount hdecl hchildren hlayout hcountname hname hrest ihc ih =>
    exact fun v out hback hfilled => ⟨fun h => absurd rfl h,
      hback.2.1.filled hfilled.2.1 ihc, ih v out hback.2.2 hfilled.2.2⟩

/-- **A message is read back as it was written if, and only if, no grid of it is empty.** -/
theorem deserialize_serialize_iff (hE : KeepsAscii E) {fields : List Field} {v : Object}
    (hl : Layout E fields) (hv : Fits v fields) :
    GivesBack fields v (deserialize D fields (serialize E fields v)) ↔ Filled v fields := by
  refine ⟨fun hback => ?_, fun hfilled => ?_⟩
  · exact hl.filled_of_back v _ hback.2 (hl.filled_readFields _ _)
  · have hread : Returns E D v fields ⟨0, [], []⟩ :=
      hl.returns hE hv hfilled fun f _ => not_mem_nil
    have hout : deserialize D fields (serialize E fields v) = counted E v fields := by
      simpa [deserialize, serialize] using (hread.1 [] [] rfl).2
    rw [hout]
    exact hread.givesBack

def asciiEncodings : Encodings where
  parse _ := none
  number := id
  sprint _ := ""
  cp949 c := if Utf8.IsAscii c then some [Utf8.asciiByte c] else none
  runes := ⟨id, id⟩

def asciiDecodings : Decodings := ⟨fun _ => none, fun _ => []⟩

lemma keepsAscii_asciiEncodings : KeepsAscii asciiEncodings := fun _ hc => if_pos hc

def gridLayout : List Field :=
  [⟨"rcnt", 1, 0, "", []⟩, ⟨"orec", 0, -1, "", [⟨"code", 1, 0, "", []⟩]⟩, ⟨"note", 1, 0, "", []⟩]

lemma layout_gridLayout : Layout asciiEncodings gridLayout :=
  .grid (by decide) (by decide +kernel) (.inl rfl) (by simp)
    (.text (by decide) (by simp) .nil) (by decide) (by decide) (.text (by decide) (by simp) .nil)

def gridObject (rows : List Object) : Object := [("orec", .arr (rows.map .obj)), ("note", .str "x")]

lemma plain_singleton {c : Char} (hascii : IsAscii c) (hpad : isPad c = false) :
    Plain [c] := by
  refine ⟨fun d hd => ?_, fun d hd => ?_, fun d hd => ?_⟩
  · rwa [mem_singleton.mp hd]
  · rwa [← Option.some.inj hd]
  · rwa [← Option.some.inj hd]

lemma fits_gridObject {rows : List Object} (hwide : (toString rows.length).toList.length ≤ 1)
    (hbound : rows.length < 2 ^ 63) (hrows : ∀ row ∈ rows, Fits row [⟨"code", 1, 0, "", []⟩]) :
    Fits (gridObject rows) gridLayout := by
  have hlookup : (gridObject rows).lookup "orec" = some (.arr (rows.map .obj)) := rfl
  refine ⟨⟨rfl, ?_⟩, ⟨rows, hlookup, fun h => absurd h (by decide), hbound, hrows⟩,
    ⟨"x", rfl, plain_singleton (by decide) (by decide), by decide⟩, trivial⟩
  rwa [Field.name, nestedRows_of_lookup hlookup]

lemma fits_row : Fits [("code", .str "y")] [⟨"code", 1, 0, "", []⟩] :=
  ⟨⟨"y", rfl, plain_singleton (by decide) (by decide), by decide⟩, trivial⟩

lemma fits_oneRow : Fits (gridObject [[("code", .str "y")]]) gridLayout :=
  fits_gridObject (by decide) (by decide) (by simpa using fits_row)

lemma filled_oneRow : Filled (gridObject [[("code", .str "y")]]) gridLayout := by
  refine ⟨fun h => absurd rfl h, fun _ => ⟨fun _ => by decide, fun row hmem => ?_⟩,
    fun h => absurd rfl h, trivial⟩
  exact ⟨fun h => absurd rfl h, trivial⟩

/-- A header of one field, and a message with a grid behind its count. -/
theorem header_and_grid_back :
    let read := deserializeWithHeader asciiDecodings [⟨"code", 1, 0, "", []⟩] gridLayout
      (serializeWithHeader asciiEncodings [⟨"code", 1, 0, "", []⟩] [("code", .str "y")] gridLayout
        (gridObject [[("code", .str "y")]]))
    (∃ back ∈ read.1, GivesBack [⟨"code", 1, 0, "", []⟩] [("code", .str "y")] back) ∧
      GivesBack gridLayout (gridObject [[("code", .str "y")]]) read.2 := by
  have hl : Layout asciiEncodings [⟨"code", 1, 0, "", []⟩] := .text (by decide) (by simp) .nil
  have hread := deserializeWithHeader_serializeWithHeader (D := asciiDecodings)
    keepsAscii_asciiEncodings hl layout_gridLayout fits_row fits_oneRow
    ⟨fun h => absurd rfl h, trivial⟩ filled_oneRow
  exact ⟨hread.1 (by simp), hread.2⟩

theorem one_row_back : Fits (gridObject [[("code", .str "y")]]) gridLayout ∧
    GivesBack gridLayout (gridObject [[("code", .str "y")]])
      (deserialize asciiDecodings gridLayout
        (serialize asciiEncodings gridLayout (gridObject [[("code", .str "y")]]))) :=
  ⟨fits_oneRow, (deserialize_serialize_iff keepsAscii_asciiEncodings layout_gridLayout
    fits_oneRow).mpr filled_oneRow⟩

theorem empty_grid_not_back : Layout asciiEncodings gridLayout ∧
    Fits (gridObject []) gridLayout ∧
    deserialize asciiDecodings gridLayout
        (serialize asciiEncodings gridLayout (gridObject [])) =
      [("rcnt", .str "0"), ("orec", .arr [.obj [("code", .str "x")]]), ("note", .str "")] ∧
    ¬ GivesBack gridLayout (gridObject [])
      (deserialize asciiDecodings gridLayout
        (serialize asciiEncodings gridLayout (gridObject []))) := by
  have hread : deserialize asciiDecodings gridLayout
        (serialize asciiEncodings gridLayout (gridObject [])) =
      [("rcnt", .str "0"), ("orec", .arr [.obj [("code", .str "x")]]), ("note", .str "")] := by
    rfl
  refine ⟨layout_gridLayout, fits_gridObject (by decide) (by decide) (by simp), hread, ?_⟩
  intro hback
  rw [hread] at hback
  obtain ⟨-, -, -, hnote, -⟩ := hback
  exact absurd (Json.str.inj (Option.some.inj hnote)) (by decide)

end Wtg.Svcio.RoundTrip
