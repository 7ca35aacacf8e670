import Mathlib.Data.List.Basic

/-! # The top of the book of a FIX message

`ParseSnapshot` of `pkg/fixmd`. The message is cut at SOH into fields `tag=value`; each 269 begins
an entry. `consistent_iff` says for which messages the price and the size of a side come from one
entry, and `consistent_of_single` that one entry for each side is enough. -/

namespace Wtg.Fixmd.TopOfBook

open List Option

abbrev Bytes := List UInt8

def soh : UInt8 := 1

def equals : UInt8 := 61

structure Field where
  tag : Bytes
  val : Bytes
  deriving DecidableEq, Repr

def toField (piece : Bytes) : Option Field :=
  match piece.span fun b => b ≠ equals with
  | (_ :: _, []) | ([], _) => none
  | (b :: tag, _ :: val) => some ⟨b :: tag, val⟩

def fields (buf : Bytes) : List Field := (buf.splitOn soh).filterMap toField

def tagSymbol : Bytes := [53, 53]

def tagMDEntryType : Bytes := [50, 54, 57]

def tagMDEntryPx : Bytes := [50, 55, 48]

def tagMDEntrySize : Bytes := [50, 55, 49]

def tagMsgType : Bytes := [51, 53]

/-- Floating-point numbers, as far as they are used: parsing, zero, and comparisons. -/
structure Floats (F : Type) where
  parseFloat : Bytes → Option F
  zero : F
  isZero : F → Bool
  pos : F → Bool
  ge : F → F → Bool
  isZero_zero : isZero zero = true

variable {F : Type} (fl : Floats F)

inductive Side
  | bid
  | ask
  | trade
  deriving DecidableEq, Repr

def Side.code : Side → UInt8
  | .bid => 48
  | .ask => 49
  | .trade => 50

structure Snapshot (F : Type) where
  sym : Bytes
  bid : F
  ask : F
  last : F
  lastQty : F
  bidSize : F
  askSize : F
  deriving DecidableEq, Repr

namespace Snapshot

variable (s : Snapshot F)

def price : Side → F
  | .bid => s.bid
  | .ask => s.ask
  | .trade => s.last

def size : Side → F
  | .bid => s.bidSize
  | .ask => s.askSize
  | .trade => s.lastQty

end Snapshot

def fill (old new : F) : F := if fl.isZero old then new else old

def setPrice (s : Snapshot F) (entryType : UInt8) (x : F) : Snapshot F :=
  if entryType = Side.bid.code then { s with bid := fill fl s.bid x }
  else if entryType = Side.ask.code then { s with ask := fill fl s.ask x }
  else if entryType = Side.trade.code then { s with last := fill fl s.last x }
  else s

def setSize (s : Snapshot F) (entryType : UInt8) (x : F) : Snapshot F :=
  if entryType = Side.bid.code then { s with bidSize := fill fl s.bidSize x }
  else if entryType = Side.ask.code then { s with askSize := fill fl s.askSize x }
  else if entryType = Side.trade.code then { s with lastQty := fill fl s.lastQty x }
  else s

def nextType (entryType : UInt8) (f : Field) : UInt8 :=
  if f.tag = tagMDEntryType then f.val.headD entryType else entryType

def numberOf (tag : Bytes) (f : Field) : Option F :=
  if f.tag = tag then fl.parseFloat f.val else none

def fillIn (entryType : UInt8) (s : Snapshot F) (f : Field) : Snapshot F :=
  if f.tag = tagSymbol then if s.sym = [] then { s with sym := f.val } else s
  else if f.tag = tagMDEntryPx then
    match fl.parseFloat f.val with
    | some x => setPrice fl s entryType x
    | none => s
  else if f.tag = tagMDEntrySize then
    match fl.parseFloat f.val with
    | some x => setSize fl s entryType x
    | none => s
  else s

def scan : UInt8 → Snapshot F → List Field → Snapshot F
  | _, s, [] => s
  | entryType, s, f :: fs => scan (nextType entryType f) (fillIn fl entryType s f) fs

def blank : Snapshot F := ⟨[], fl.zero, fl.zero, fl.zero, fl.zero, fl.zero, fl.zero⟩

def parseSnapshot (buf : Bytes) : Snapshot F × Bool :=
  let s := scan fl 0 (blank fl) (fields buf)
  (s, s.sym ≠ [] && fl.pos s.bid && fl.ge s.ask s.bid)

def numbersFor (tag : Bytes) (side : Side) : UInt8 → List Field → List F
  | _, [] => []
  | entryType, f :: fs =>
    (if entryType = side.code then (numberOf fl tag f).toList else []) ++
      numbersFor tag side (nextType entryType f) fs

def firstNonZero (xs : List F) : F := xs.foldl (fill fl) fl.zero

variable (s : Snapshot F) (entryType : UInt8) (x : F)

lemma price_setPrice (side : Side) :
    (setPrice fl s entryType x).price side =
      if entryType = side.code then fill fl (s.price side) x else s.price side := by
  unfold setPrice
  cases side <;> split_ifs <;> simp_all [Snapshot.price, Side.code]

lemma size_setPrice (side : Side) :
    (setPrice fl s entryType x).size side = s.size side := by
  unfold setPrice
  cases side <;> split_ifs <;> rfl

lemma size_setSize (side : Side) :
    (setSize fl s entryType x).size side =
      if entryType = side.code then fill fl (s.size side) x else s.size side := by
  unfold setSize
  cases side <;> split_ifs <;> simp_all [Snapshot.size, Side.code]

lemma price_setSize (side : Side) :
    (setSize fl s entryType x).price side = s.price side := by
  unfold setSize
  cases side <;> split_ifs <;> rfl

lemma fold_numberOf_none {tag : Bytes} {f : Field} (h : numberOf fl tag f = none)
    (entryType : UInt8) (side : Side) (x : F) :
    (if entryType = side.code then (numberOf fl tag f).toList else []).foldl (fill fl) x = x := by
  rw [h]
  split_ifs <;> rfl

lemma fillIn_numbers (s : Snapshot F) (f : Field) (side : Side) :
    (fillIn fl entryType s f).price side =
        (if entryType = side.code then (numberOf fl tagMDEntryPx f).toList else []).foldl (fill fl)
          (s.price side) ∧
      (fillIn fl entryType s f).size side =
        (if entryType = side.code then (numberOf fl tagMDEntrySize f).toList else []).foldl
          (fill fl) (s.size side) := by
  have hother : ∀ {tag}, f.tag ≠ tag → ∀ x, (if entryType = side.code then
      (numberOf fl tag f).toList else []).foldl (fill fl) x = x :=
    fun htag => fold_numberOf_none fl (if_neg htag) entryType side
  fun_cases fillIn fl entryType s f
  case case1 hsym _ =>
    rw [hother (by rw [hsym]; decide), hother (by rw [hsym]; decide)]
    cases side <;> exact ⟨rfl, rfl⟩
  case case2 hsym _ =>
    rw [hother (by rw [hsym]; decide), hother (by rw [hsym]; decide)]
    exact ⟨rfl, rfl⟩
  case case3 hpx x hx =>
    rw [price_setPrice, size_setPrice, hother (show f.tag ≠ tagMDEntrySize by rw [hpx]; decide),
      numberOf, if_pos hpx, hx]
    split_ifs <;> exact ⟨rfl, rfl⟩
  case case4 hpx hx =>
    rw [fold_numberOf_none fl (by rw [numberOf, if_pos hpx, hx]), hother (by rw [hpx]; decide)]
    exact ⟨rfl, rfl⟩
  case case5 hpx hsize x hx =>
    rw [price_setSize, size_setSize, hother hpx, numberOf, if_pos hsize, hx]
    split_ifs <;> exact ⟨rfl, rfl⟩
  case case6 hpx hsize hx =>
    rw [hother hpx, fold_numberOf_none fl (by rw [numberOf, if_pos hsize, hx])]
    exact ⟨rfl, rfl⟩
  case case7 hpx hsize =>
    rw [hother hpx, hother hsize]
    exact ⟨rfl, rfl⟩

lemma scan_numbers (side : Side) : ∀ (fs : List Field) (entryType : UInt8) (s : Snapshot F),
    (scan fl entryType s fs).price side =
        (numbersFor fl tagMDEntryPx side entryType fs).foldl (fill fl) (s.price side) ∧
      (scan fl entryType s fs).size side =
        (numbersFor fl tagMDEntrySize side entryType fs).foldl (fill fl) (s.size side)
  | [], _, _ => ⟨rfl, rfl⟩
  | f :: fs, entryType, s => by
    obtain ⟨hprice, hsize⟩ := fillIn_numbers fl entryType s f side
    rw [scan, numbersFor, numbersFor, foldl_append, foldl_append, ← hprice, ← hsize]
    exact scan_numbers side fs _ _

def symbols (fs : List Field) : List Bytes :=
  (fs.filter fun f => f.tag = tagSymbol).map Field.val

lemma sym_fillIn (s : Snapshot F) (f : Field) :
    (fillIn fl entryType s f).sym = if f.tag = tagSymbol ∧ s.sym = [] then f.val else s.sym := by
  fun_cases fillIn fl entryType s f
  case case1 hsym hempty => rw [if_pos ⟨hsym, hempty⟩]
  case case2 _ hne => rw [if_neg fun h => hne h.2]
  case case3 hsym _ x _ =>
    rw [if_neg fun h => hsym h.1, setPrice]
    split_ifs <;> rfl
  case case5 hsym _ _ x _ =>
    rw [if_neg fun h => hsym h.1, setSize]
    split_ifs <;> rfl
  all_goals exact (if_neg fun h => absurd h.1 ‹_›).symm

lemma scan_sym : ∀ (fs : List Field) (entryType : UInt8) (s : Snapshot F),
    (scan fl entryType s fs).sym =
      if s.sym = [] then ((symbols fs).find? fun v => v ≠ []).getD [] else s.sym
  | [], _, s => by
    simp only [scan, symbols, filter_nil, map_nil, find?_nil, getD_none]
    split_ifs with h
    · exact h
    · rfl
  | f :: fs, entryType, s => by
    rw [scan, scan_sym fs, sym_fillIn]
    unfold symbols
    rw [filter_cons]
    by_cases hempty : s.sym = []
    · by_cases hsym : f.tag = tagSymbol
      · by_cases hval : f.val = []
        · simp [hempty, hsym, hval]
        · simp [hempty, hsym, hval]
      · simp [hempty, hsym]
    · simp [hempty]

/-- An entry of a message: its type, if it has one, and the fields up to the next entry. -/
structure Entry where
  kind : Option UInt8
  body : List Field
  deriving DecidableEq, Repr

def segments : List Field → List Field × List Entry
  | [] => ([], [])
  | f :: fs =>
    let rest := segments fs
    if f.tag = tagMDEntryType then ([], ⟨f.val.head?, rest.1⟩ :: rest.2) else (f :: rest.1, rest.2)

def entries (fs : List Field) : List Entry := (segments fs).2

def Entry.numbers (e : Entry) (tag : Bytes) : List F := e.body.filterMap (numberOf fl tag)

def OneOf (xs : List F) (x : F) : Prop := x ∈ xs ∨ xs = [] ∧ x = fl.zero

def OneEntry (fs : List Field) (side : Side) (price size : F) : Prop :=
  (∃ e ∈ entries fs, e.kind = some side.code ∧ OneOf fl (e.numbers fl tagMDEntryPx) price ∧
    OneOf fl (e.numbers fl tagMDEntrySize) size) ∨
  (∀ e ∈ entries fs, e.kind ≠ some side.code) ∧ price = fl.zero ∧ size = fl.zero

instance [DecidableEq F] (xs : List F) (x : F) : Decidable (OneOf fl xs x) :=
  inferInstanceAs (Decidable (_ ∨ _))

instance [DecidableEq F] (fs : List Field) (side : Side) (price size : F) :
    Decidable (OneEntry fl fs side price size) := inferInstanceAs (Decidable (_ ∨ _))

def msgType (fs : List Field) : Option Bytes :=
  (fs.find? fun f => f.tag = tagMsgType).map Field.val

def fullRefresh : Bytes := [87]

/-- **A consistent snapshot** of a message: it is of type W, the price and the size of each side
come from one entry, and the symbol is that of the message. -/
structure Consistent (fs : List Field) (s : Snapshot F) : Prop where
  msgType : msgType fs = some fullRefresh
  sides : ∀ side, OneEntry fl fs side (s.price side) (s.size side)
  sym : (symbols fs).head? = some s.sym

/-- The entries whose numbers the code takes for a side: an entry without a type is taken for the
side of the one before it. -/
def takenFor (side : Side) : UInt8 → List Entry → List Entry
  | _, [] => []
  | entryType, e :: es =>
    let kind := e.kind.getD entryType
    if kind = side.code then e :: takenFor side kind es else takenFor side kind es

/-- The first number of these entries that is not zero, or else their last one. -/
def decided (tag : Bytes) (es : List Entry) : Option F :=
  (es.findSome? fun e => (e.numbers fl tag).find? fun x => !fl.isZero x).or
    (es.reverse.findSome? fun e => (e.numbers fl tag).getLast?)

/-- The entry has the number that the entries `es` decide on; a zero it may lack. -/
def Entry.Supplies (e : Entry) (tag : Bytes) (es : List Entry) : Prop :=
  ∀ x ∈ decided fl tag es, OneOf fl (e.numbers fl tag) x

/-- **A regular message**: it is of type W, for each side that has entries one of them has both the
first non-zero price and the first non-zero size, so that no entry supplies what another one lacks,
and its first symbol is not empty. -/
structure Regular (fs : List Field) : Prop where
  msgType : TopOfBook.msgType fs = some fullRefresh
  sides : ∀ side, (∃ e ∈ entries fs, e.kind = some side.code) → ∃ e ∈ entries fs,
    e.kind = some side.code ∧ e.Supplies fl tagMDEntryPx (takenFor side 0 (entries fs)) ∧
      e.Supplies fl tagMDEntrySize (takenFor side 0 (entries fs))
  sym : (symbols fs).head? ≠ some []

lemma parseSnapshot_numbers (buf : Bytes) (side : Side) :
    (parseSnapshot fl buf).1.price side =
        firstNonZero fl (numbersFor fl tagMDEntryPx side 0 (fields buf)) ∧
      (parseSnapshot fl buf).1.size side =
        firstNonZero fl (numbersFor fl tagMDEntrySize side 0 (fields buf)) := by
  obtain ⟨hprice, hsize⟩ := scan_numbers fl side (fields buf) 0 (blank fl)
  cases side <;> exact ⟨hprice, hsize⟩

lemma head_symbols_iff {vals : List Bytes} (h : (vals.find? fun v => v ≠ []).getD [] ≠ []) :
    vals.head? = some ((vals.find? fun v => v ≠ []).getD []) ↔ vals.head? ≠ some [] := by
  cases vals with
  | nil => exact absurd rfl h
  | cons v vals =>
    by_cases hv : v = []
    · subst hv
      simp only [head?_cons, ne_eq, not_true_eq_false, iff_false]
      intro heq
      exact h (some.inj heq).symm
    · simp [hv]

lemma numbersFor_eq (tag : Bytes) (htag : tag ≠ tagMDEntryType) (side : Side) :
    ∀ (fs : List Field) (entryType : UInt8), numbersFor fl tag side entryType fs =
      (if entryType = side.code then (segments fs).1.filterMap (numberOf fl tag) else []) ++
        (takenFor side entryType (entries fs)).flatMap fun e => e.numbers fl tag
  | [], entryType => by simp [numbersFor, segments, entries, takenFor]
  | f :: fs, entryType => by
    by_cases hf : f.tag = tagMDEntryType
    · have hsegments : segments (f :: fs) = ([], ⟨f.val.head?, (segments fs).1⟩ :: entries fs) :=
        if_pos hf
      have hentries : entries (f :: fs) = ⟨f.val.head?, (segments fs).1⟩ :: entries fs :=
        congrArg Prod.snd hsegments
      have hnumber : numberOf fl tag f = none := if_neg (hf ▸ htag.symm)
      have hnext : nextType entryType f = f.val.head?.getD entryType := by
        rw [nextType, if_pos hf, headD_eq_head?_getD]
      rw [numbersFor, hnumber, hnext, numbersFor_eq tag htag side fs, hsegments, hentries, takenFor]
      by_cases hside : f.val.head?.getD entryType = side.code
      · simp [hside, Entry.numbers]
      · simp [hside]
    · have hsegments : segments (f :: fs) = (f :: (segments fs).1, entries fs) := if_neg hf
      have hentries : entries (f :: fs) = entries fs := by rw [entries, hsegments]
      have hnext : nextType entryType f = entryType := if_neg hf
      rw [numbersFor, hnext, numbersFor_eq tag htag side fs entryType, hsegments, hentries]
      by_cases hside : entryType = side.code
      · cases hn : numberOf fl tag f <;> simp [hside, hn]
      · simp [hside]

/-- A number that is there is kept unless it is zero, so the first non-zero one stays. -/
lemma foldl_fill : ∀ (xs : List F) (x : F), xs.foldl (fill fl) x =
    if fl.isZero x then ((xs.find? fun y => !fl.isZero y).or xs.getLast?).getD x else x
  | [], x => by simp
  | y :: xs, x => by
    rw [foldl_cons, foldl_fill xs, fill, find?_cons, getLast?_cons]
    cases hx : fl.isZero x
    · simp [hx]
    · cases hy : fl.isZero y
      · simp [hy]
      · cases xs.find? fun y => !fl.isZero y <;> simp [hy]

lemma decided_eq_none {tag : Bytes} {es : List Entry} (h : decided fl tag es = none) :
    ∀ e ∈ es, e.numbers fl tag = [] := by
  intro e he
  rw [decided, or_eq_none_iff, findSome?_eq_none_iff, findSome?_eq_none_iff] at h
  exact getLast?_eq_none_iff.mp (h.2 e (mem_reverse.mpr he))

lemma firstNonZero_flatMap (tag : Bytes) (es : List Entry) :
    firstNonZero fl (es.flatMap fun e => e.numbers fl tag) = (decided fl tag es).getD fl.zero := by
  rw [firstNonZero, foldl_fill, if_pos fl.isZero_zero, find?_flatMap, getLast?_flatMap, decided]

/-! ## The entries taken for a side -/

section

variable {side : Side} {es : List Entry}

lemma mem_takenFor {e : Entry} (hkind : e.kind = some side.code) :
    ∀ {es : List Entry} {entryType : UInt8}, e ∈ es → e ∈ takenFor side entryType es
  | e' :: es, entryType, he => by
    rw [takenFor]
    rcases mem_cons.mp he with rfl | he
    · simp [hkind]
    · split_ifs
      · exact mem_cons_of_mem _ (mem_takenFor hkind he)
      · exact mem_takenFor hkind he

lemma takenFor_eq (hkinds : ∀ e ∈ es, e.kind ≠ none) : ∀ entryType,
    takenFor side entryType es = es.filter fun e => e.kind = some side.code := by
  induction es with
  | nil => exact fun _ => rfl
  | cons e es ih =>
    intro entryType
    obtain ⟨hhead, hrest⟩ := forall_mem_cons.mp hkinds
    obtain ⟨b, hb⟩ := ne_none_iff_exists'.mp hhead
    rw [takenFor, filter_cons, ih hrest, hb]
    simp

lemma takenFor_eq_nil (h : ∀ e ∈ es, e.kind ≠ some side.code) :
    ∀ {entryType}, entryType ≠ side.code → takenFor side entryType es = [] := by
  induction es with
  | nil => exact fun _ => rfl
  | cons e es ih =>
    intro entryType htype
    obtain ⟨hhead, hrest⟩ := forall_mem_cons.mp h
    have hkind : e.kind.getD entryType ≠ side.code := by
      cases hk : e.kind with
      | none => exact htype
      | some b => exact fun hb => hhead (hk.trans (congrArg some hb))
    rw [takenFor]
    exact (if_neg hkind).trans (ih hrest hkind)

end

/-- A price and a size that the entries of the side decide on come from one entry of it exactly if
one supplies both. -/
lemma oneEntry_iff (fs : List Field) (side : Side) :
    OneEntry fl fs side (firstNonZero fl (numbersFor fl tagMDEntryPx side 0 fs))
        (firstNonZero fl (numbersFor fl tagMDEntrySize side 0 fs)) ↔
      ((∃ e ∈ entries fs, e.kind = some side.code) → ∃ e ∈ entries fs, e.kind = some side.code ∧
        e.Supplies fl tagMDEntryPx (takenFor side 0 (entries fs)) ∧
        e.Supplies fl tagMDEntrySize (takenFor side 0 (entries fs))) := by
  have hzero : (0 : UInt8) ≠ side.code := by cases side <;> decide
  have hnumber : ∀ {tag}, tag ≠ tagMDEntryType → firstNonZero fl (numbersFor fl tag side 0 fs) =
      (decided fl tag (takenFor side 0 (entries fs))).getD fl.zero := by
    intro tag htag
    rw [numbersFor_eq fl tag htag, if_neg hzero, nil_append, firstNonZero_flatMap]
  have hone : ∀ {e tag}, e ∈ entries fs → e.kind = some side.code →
      (OneOf fl (e.numbers fl tag)
          ((decided fl tag (takenFor side 0 (entries fs))).getD fl.zero) ↔
        e.Supplies fl tag (takenFor side 0 (entries fs))) := by
    intro e tag he hkind
    cases hd : decided fl tag (takenFor side 0 (entries fs)) with
    | none =>
      have hnone := decided_eq_none fl hd e (mem_takenFor hkind he)
      simp [Entry.Supplies, hd, OneOf, hnone]
    | some x => simp [Entry.Supplies, hd]
  rw [hnumber (by decide), hnumber (by decide)]
  by_cases hside : ∃ e ∈ entries fs, e.kind = some side.code
  · have hnot : ¬ ∀ e ∈ entries fs, e.kind ≠ some side.code := by simpa using hside
    rw [OneEntry, or_iff_left fun h => hnot h.1]
    simp only [hside, true_imp_iff]
    refine exists_congr fun e => and_congr_right fun he => and_congr_right fun hkind => ?_
    rw [hone he hkind, hone he hkind]
  · have hnone : ∀ e ∈ entries fs, e.kind ≠ some side.code := by simpa using hside
    refine iff_of_true (.inr ⟨hnone, ?_, ?_⟩) fun h => absurd h hside
    · rw [takenFor_eq_nil hnone hzero]
      rfl
    · rw [takenFor_eq_nil hnone hzero]
      rfl

/-- **A valid snapshot is consistent exactly if the message is regular**, for every message. -/
theorem consistent_iff (buf : Bytes) :
    ((parseSnapshot fl buf).2 = true → Consistent fl (fields buf) (parseSnapshot fl buf).1) ↔
      ((parseSnapshot fl buf).2 = true → Regular fl (fields buf)) := by
  refine imp_congr_right fun hok => ?_
  have hsym : (parseSnapshot fl buf).1.sym =
      ((symbols (fields buf)).find? fun v => v ≠ []).getD [] :=
    (scan_sym fl (fields buf) 0 (blank fl)).trans (if_pos rfl)
  have hnonempty : (parseSnapshot fl buf).1.sym ≠ [] := by
    simp only [parseSnapshot, Bool.and_eq_true, decide_eq_true_eq] at hok
    exact hok.1.1
  have hhead := head_symbols_iff (hsym ▸ hnonempty)
  rw [← hsym] at hhead
  constructor
  · rintro ⟨htype, hsides, hs⟩
    refine ⟨htype, fun side => ?_, hhead.mp hs⟩
    rw [← oneEntry_iff, ← (parseSnapshot_numbers fl buf side).1,
      ← (parseSnapshot_numbers fl buf side).2]
    exact hsides side
  · rintro ⟨htype, hsides, hs⟩
    refine ⟨htype, fun side => ?_, hhead.mpr hs⟩
    rw [(parseSnapshot_numbers fl buf side).1, (parseSnapshot_numbers fl buf side).2, oneEntry_iff]
    exact hsides side

lemma supplies_singleton (e : Entry) (tag : Bytes) : e.Supplies fl tag [e] := by
  intro x hx
  rw [decided, reverse_singleton, findSome?_singleton, findSome?_singleton, mem_def,
    or_eq_some_iff] at hx
  rcases hx with hx | ⟨-, hx⟩
  · exact .inl (mem_of_find?_eq_some hx)
  · exact .inl (mem_of_getLast? hx)

/-- **A full refresh with at most one entry for each side gives a consistent snapshot.** -/
theorem consistent_of_single {buf sym : Bytes} (htype : msgType (fields buf) = some fullRefresh)
    (hsym : (symbols (fields buf)).head? = some sym) (hne : sym ≠ [])
    (hkinds : ∀ e ∈ entries (fields buf), e.kind ≠ none)
    (hsingle : ∀ side : Side,
      ((entries (fields buf)).filter fun e => e.kind = some side.code).length ≤ 1) :
    Consistent fl (fields buf) (parseSnapshot fl buf).1 := by
  refine ⟨htype, fun side => ?_, ?_⟩
  · obtain ⟨hprice, hsize⟩ := parseSnapshot_numbers fl buf side
    rw [hprice, hsize, oneEntry_iff, takenFor_eq hkinds]
    rintro ⟨e, he, hkind⟩
    have hmem : e ∈ (entries (fields buf)).filter fun e => e.kind = some side.code :=
      mem_filter.mpr ⟨he, by simpa using hkind⟩
    obtain ⟨e', hone⟩ := length_eq_one_iff.mp
      (Nat.le_antisymm (hsingle side) (length_pos_of_mem hmem))
    rw [hone] at hmem ⊢
    obtain rfl := mem_singleton.mp hmem
    exact ⟨e, he, hkind, supplies_singleton fl e _, supplies_singleton fl e _⟩
  · have hscan : (parseSnapshot fl buf).1.sym = _ :=
      (scan_sym fl (fields buf) 0 (blank fl)).trans (if_pos rfl)
    obtain ⟨rest, hrest⟩ := head?_eq_some_iff.mp hsym
    rw [hsym, hscan, hrest]
    simp [hne]

def decimals : Floats ℕ where
  parseFloat bs :=
    if bs ≠ [] ∧ bs.all (fun b => 48 ≤ b && b ≤ 57) then
      some (bs.foldl (fun n b => 10 * n + (b.toNat - 48)) 0)
    else none
  zero := 0
  isZero n := n == 0
  pos n := 0 < n
  ge n m := m ≤ n
  isZero_zero := rfl

def message (fs : List String) : Bytes :=
  [soh].intercalate (fs.map fun s => s.toList.map fun c => c.toNat.toUInt8)

def twoBids : Bytes :=
  message ["35=W", "55=EURUSD", "269=0", "270=100", "269=0", "270=90", "271=5", "269=1", "270=110"]

theorem consistent_of_single_bid :
    let buf := message ["269=0", "270=100", "271=5", "55=EURUSD", "35=W"]
    Consistent decimals (fields buf) (parseSnapshot decimals buf).1 := by
  intro buf
  exact consistent_of_single decimals (by decide) rfl (by decide) (by decide)
    fun side => by cases side <;> decide

def incremental : Bytes :=
  message ["35=X", "55=EURUSD", "269=0", "270=100", "271=5", "269=1", "270=110", "271=5"]

theorem mixed_snapshot :
    ((parseSnapshot decimals twoBids).2 = true ∧
      ((parseSnapshot decimals twoBids).1.bid, (parseSnapshot decimals twoBids).1.bidSize) =
        (100, 5) ∧
      ¬ Consistent decimals (fields twoBids) (parseSnapshot decimals twoBids).1) ∧
    (parseSnapshot decimals incremental).2 = true ∧
      ¬ Consistent decimals (fields incremental) (parseSnapshot decimals incremental).1 := by
  refine ⟨⟨by decide, by decide, fun h => ?_⟩, by decide, fun h => ?_⟩
  · exact absurd (h.sides .bid) (by decide)
  · exact absurd h.msgType (by decide)

end Wtg.Fixmd.TopOfBook
