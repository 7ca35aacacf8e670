import Mathlib.Data.List.Lex
import Wtg.Krx.Decode
import Wtg.Lib.GoMap
import Wtg.Lib.KeyedLog
import Wtg.Lib.Ranked
import Wtg.Lib.SlotTable

/-! # The shared memory of derivative quotes

`krxshm.Writer` fills the memory that other processes read: a header, then one slot for each
instrument in ascending order of its code, so that readers can search it by bisection. -/

namespace Wtg.Krxshm.Shm

open List hiding getElem?_eq_some_iff
open Lib Lib.Buffer Lib.KeyedLog Lib.Memory Lib.Ranked Lib.SlotTable Option
open Krx.Decode (Floats)

def shmSize : ℕ := 44957040
def maxItem : ℕ := 400
def offMaxN : ℕ := 32
def offUseN : ℕ := 36
def offKbfut : ℕ := 128
def kbfutStride : ℕ := 112112
def offFutCd : ℕ := 0
def stdCdLen : ℕ := 12
def offShrtCd : ℕ := 12
def shtCdLen : ℕ := 9
def offFsise : ℕ := 2048
def fsBPrc : ℕ := 0
def fsOPrc : ℕ := 8
def fsHPrc : ℕ := 16
def fsLPrc : ℕ := 24
def fsEPrc : ℕ := 32
def fsAVol : ℕ := 40
def fsYPrc : ℕ := 64
def fsDiff : ℕ := 72
def fsSPrc : ℕ := 80
def fsLsPr : ℕ := 88
def fsRate : ℕ := 96
def fsSPcd : ℕ := 100
def fsSign : ℕ := 103
def fsHalt : ℕ := 105
def offFhoga : ℕ := 2272
def fhStVol : ℕ := 16
def fhBtVol : ℕ := 24
def fhSaCnt : ℕ := 32
def fhBaCnt : ℕ := 40
def fhExPrc : ℕ := 48
def fhExVol : ℕ := 56
def fhShoga : ℕ := 64
def fhBhoga : ℕ := 184
def fhUStr : ℕ := 24
def nHoga : ℕ := 5

def entryOff (i : ℕ) : ℕ := offKbfut + i * kbfutStride

abbrev Code := Bytes

def codeKey (c : Code) : List ℕ := c.map UInt8.toNat

lemma codeKey_injective : Function.Injective codeKey :=
  map_injective_iff.mpr fun _ _ h => UInt8.toNat_inj.mp h

structure Quote (F : Type*) where
  code : Code
  shortCode : Bytes
  basePrc : F
  openPrc : F
  high : F
  low : F
  last : F
  prevClose : F
  diff : F
  settle : F
  finalSettle : F
  rate : F
  accVol : ℕ
  sign : Bytes
  settleCd : Bytes
  halt : Bool

structure Level (F : Type*) where
  prc : F
  vol : ℕ
  cnt : ℕ

structure Book (F : Type*) where
  code : Code
  askTot : ℕ
  bidTot : ℕ
  askCnt : ℕ
  bidCnt : ℕ
  expPrc : F
  expVol : ℕ
  ask : List (Level F)
  bid : List (Level F)

def Book.Full {F : Type*} (b : Book F) : Prop := b.ask.length = nHoga ∧ b.bid.length = nHoga

variable {F : Type*} (fl : Floats F)

def putFixed (n : ℕ) (s : Bytes) : Bytes := (padCopy n s).toList

def putByte (s : Bytes) : Bytes := [s.headD 0x20]

def putF64 (v : F) : Bytes := littleEndian 8 (fl.float64bits v)

/-- What `Update` writes into an entry. -/
def quoteWrites (q : Quote F) : List (ℕ × Bytes) :=
  [(fsBPrc, putF64 fl q.basePrc), (fsOPrc, putF64 fl q.openPrc), (fsHPrc, putF64 fl q.high),
    (fsLPrc, putF64 fl q.low), (fsEPrc, putF64 fl q.last), (fsYPrc, putF64 fl q.prevClose),
    (fsDiff, putF64 fl q.diff), (fsSPrc, putF64 fl q.settle), (fsLsPr, putF64 fl q.finalSettle),
    (fsAVol, littleEndian 8 q.accVol), (fsRate, littleEndian 4 (fl.float32bits q.rate)),
    (fsSPcd, putFixed 2 q.settleCd), (fsSign, putByte q.sign),
    (fsHalt, [if q.halt then 0x59 else 0x20])]

def levelWrites (start j : ℕ) (l : Option (Level F)) : List (ℕ × Bytes) :=
  l.elim [] fun l => [(start + j * fhUStr, putF64 fl l.prc),
    (start + j * fhUStr + 8, littleEndian 8 l.vol), (start + j * fhUStr + 16, littleEndian 8 l.cnt)]

def bookWrites (b : Book F) : List (ℕ × Bytes) :=
  [(fhStVol, littleEndian 8 b.askTot), (fhBtVol, littleEndian 8 b.bidTot),
    (fhSaCnt, littleEndian 8 b.askCnt), (fhBaCnt, littleEndian 8 b.bidCnt),
    (fhExPrc, putF64 fl b.expPrc), (fhExVol, littleEndian 8 b.expVol)] ++
  (List.range nHoga).flatMap fun j =>
    levelWrites fl fhShoga j b.ask[j]? ++ levelWrites fl fhBhoga j b.bid[j]?

/-- The memory, and the codes in the order of their slots, to which the source's map `slot` sends
them. -/
structure Writer (F : Type*) where
  mem : Mem
  slot : List Code
  updates : List (Quote F)
  bookUpdates : List (Book F)

def newWriter (F : Type*) : Writer F := ⟨blank, [], [], []⟩

def Writer.slotOf (w : Writer F) (c : Code) : Option ℕ := w.slot.idxOf? c

def Writer.has (w : Writer F) (c : Code) : Bool := (w.slotOf c).isSome

def entryWrites (codes : GoMap Code Bytes) (i : ℕ) (c : Code) : List (ℕ × Bytes) :=
  [(entryOff i + offFutCd, putFixed stdCdLen c),
    (entryOff i + offShrtCd, putFixed shtCdLen ((codes.lookup c).getD []))]

def Writer.layout (w : Writer F) (codes : GoMap Code Bytes) : Option (Writer F) :=
  let list := ranked codeKey codes.keys
  if list.length > maxItem then none
  else some { w with
    slot := list
    mem := pokes w.mem ((list.zipIdx.flatMap fun e => entryWrites codes e.2 e.1) ++
      [(offMaxN, littleEndian 4 maxItem), (offUseN, littleEndian 4 list.length)]) }

def Writer.update (w : Writer F) (q : Quote F) : Option (Writer F) :=
  (w.slotOf q.code).map fun i => { w with
    mem := pokes w.mem (shift (entryOff i + offFsise) (quoteWrites fl q))
    updates := w.updates ++ [q] }

def Writer.updateBook (w : Writer F) (b : Book F) : Option (Writer F) :=
  (w.slotOf b.code).map fun i => { w with
    mem := pokes w.mem (shift (entryOff i + offFhoga) (bookWrites fl b))
    bookUpdates := w.bookUpdates ++ [b] }

def fsiseLen : ℕ := offFhoga - offFsise

def fhogaLen : ℕ := fhBhoga + nHoga * fhUStr

@[simp] lemma length_putFixed (n : ℕ) (s : Bytes) : (putFixed n s).length = n :=
  List.Vector.toList_length _

@[simp] lemma length_putF64 (v : F) : (putF64 fl v).length = 8 := length_littleEndian _ _

@[simp] lemma length_putByte (s : Bytes) : (putByte s).length = 1 := rfl

lemma within_quoteWrites (q : Quote F) : Within 0 fsiseLen (quoteWrites fl q) := by
  intro w hw
  simp only [quoteWrites, mem_cons, not_mem_nil, or_false] at hw
  rcases hw with rfl | rfl | rfl | rfl | rfl | rfl | rfl | rfl | rfl | rfl | rfl | rfl | rfl | rfl
  all_goals
    simp only [length_putF64, length_littleEndian, length_putFixed, length_putByte,
      length_singleton]
    decide

lemma shape_quoteWrites (q q' : Quote F) :
    shape (quoteWrites fl q) = shape (quoteWrites fl q') := by
  simp [shape, quoteWrites]

lemma within_levelWrites {start j : ℕ} (hj : j < nHoga) (l : Option (Level F)) :
    Within start (start + nHoga * fhUStr) (levelWrites fl start j l) := by
  intro w hw
  rcases l with _ | l
  · cases hw
  · simp only [levelWrites, elim_some, mem_cons, not_mem_nil, or_false] at hw
    simp only [nHoga, fhUStr] at hj hw ⊢
    rcases hw with rfl | rfl | rfl <;> simp <;> omega

lemma within_bookWrites (b : Book F) : Within 0 fhogaLen (bookWrites fl b) := by
  refine Within.append ?_ ?_
  · intro w hw
    simp only [mem_cons, not_mem_nil, or_false] at hw
    rcases hw with rfl | rfl | rfl | rfl | rfl | rfl
    all_goals
      simp only [length_putF64, length_littleEndian]
      decide
  · intro w hw
    obtain ⟨j, hj, hw⟩ := mem_flatMap.mp hw
    have hj : j < nHoga := mem_range.mp hj
    simp only [fhogaLen, fhShoga, fhBhoga, nHoga, fhUStr] at *
    rcases mem_append.mp hw with hw | hw
    · have := within_levelWrites fl hj _ w hw
      simp only [nHoga, fhUStr] at this
      omega
    · have := within_levelWrites fl hj _ w hw
      simp only [nHoga, fhUStr] at this
      omega

lemma shape_levelWrites (start j : ℕ) {ls ls' : List (Level F)} (h : ls.length = ls'.length) :
    shape (levelWrites fl start j ls[j]?) = shape (levelWrites fl start j ls'[j]?) := by
  by_cases hj : j < ls.length
  · rw [getElem?_eq_getElem hj, getElem?_eq_getElem (h ▸ hj)]
    simp [shape, levelWrites]
  · rw [getElem?_eq_none (not_lt.mp hj), getElem?_eq_none (h ▸ not_lt.mp hj)]

lemma shape_bookWrites {b b' : Book F} (h : b.Full) (h' : b'.Full) :
    shape (bookWrites fl b) = shape (bookWrites fl b') := by
  have hask : b.ask.length = b'.ask.length := h.1.trans h'.1.symm
  have hbid : b.bid.length = b'.bid.length := h.2.trans h'.2.symm
  have hlevels : ∀ j, shape (levelWrites fl fhShoga j b.ask[j]? ++
      levelWrites fl fhBhoga j b.bid[j]?) = shape (levelWrites fl fhShoga j b'.ask[j]? ++
        levelWrites fl fhBhoga j b'.bid[j]?) := by
    intro j
    have ha := shape_levelWrites fl fhShoga j hask
    have hb := shape_levelWrites fl fhBhoga j hbid
    unfold shape at ha hb ⊢
    rw [map_append, map_append, ha, hb]
  unfold shape at hlevels ⊢
  simp only [bookWrites, map_append, map_flatMap] at hlevels ⊢
  simp only [hlevels]
  simp

def quoteArea : Area (Quote F) where
  base := offKbfut
  stride := kbfutStride
  off := offFsise
  size := fsiseLen
  Valid _ := True
  writes := quoteWrites fl
  shape_eq _ _ := shape_quoteWrites fl _ _
  within := within_quoteWrites fl
  fits := by decide

def bookArea : Area (Book F) where
  base := offKbfut
  stride := kbfutStride
  off := offFhoga
  size := fhogaLen
  Valid := Book.Full
  writes := bookWrites fl
  shape_eq := shape_bookWrites fl
  within := within_bookWrites fl
  fits := by decide

lemma addr_quoteArea (i : ℕ) : (quoteArea fl).addr i = entryOff i + offFsise := rfl

def codeField (m : Mem) (i : ℕ) : Bytes :=
  (List.range stdCdLen).map fun k => m (entryOff i + offFutCd + k)

def useN (m : Mem) : ℕ := readLittleEndian m offUseN 4

/-- The segment lists the codes. -/
structure Listed (m : Mem) (codes : List Code) : Prop where
  useN_eq : useN m = codes.length
  code_eq : ∀ i c, codes[i]? = some c → codeField m i = putFixed stdCdLen c

lemma Listed.congr {m m' : Mem} {codes : List Code} (h : Listed m codes)
    (hhead : ∀ x < offKbfut, m' x = m x)
    (hcode : ∀ i k, k < stdCdLen → m' (entryOff i + offFutCd + k) = m (entryOff i + offFutCd + k)) :
    Listed m' codes := by
  refine ⟨?_, fun i c hc => ?_⟩
  · have hsame : useN m' = useN m := readLittleEndian_congr fun k hk => hhead _ (by
      simp only [offUseN, offKbfut]
      omega)
    rw [hsame, h.useN_eq]
  · rw [← h.code_eq i c hc]
    exact map_congr_left fun k hk => hcode i k (mem_range.mp hk)

variable {w w' : Writer F} {codes : GoMap Code Bytes} {fl} {list : List Code}

lemma mem_entryWrites {x : ℕ × Bytes}
    (hx : x ∈ list.zipIdx.flatMap fun e => entryWrites codes e.2 e.1) :
    ∃ i c, list[i]? = some c ∧ (x = (entryOff i + offFutCd, putFixed stdCdLen c) ∨
      x = (entryOff i + offShrtCd, putFixed shtCdLen ((codes.lookup c).getD []))) := by
  obtain ⟨⟨c, i⟩, he, hx⟩ := mem_flatMap.mp hx
  have hc : list[i]? = some c := mem_zipIdx_iff_getElem?.mp he
  simp only [entryWrites, mem_cons, not_mem_nil, or_false] at hx
  exact ⟨i, c, hc, hx⟩

lemma mem_layout_of_late (h : w.layout codes = some w') (i : ℕ) {o : ℕ}
    (hlow : offShrtCd + shtCdLen ≤ o) (hhigh : o < kbfutStride) :
    w'.mem (entryOff i + o) = w.mem (entryOff i + o) := by
  unfold Writer.layout at h
  simp only at h
  split_ifs at h
  rw [← some.inj h]
  refine pokes_of_not_covered ?_
  rintro ⟨v, hv, hle, hlt⟩
  obtain ⟨x, hx, rfl⟩ := mem_map.mp hv
  simp only at hle hlt
  rcases mem_append.mp hx with hx | hx
  · obtain ⟨j, c, -, rfl | rfl⟩ := mem_entryWrites hx
    all_goals
      simp only [length_putFixed] at hle hlt
      simp only [entryOff, offKbfut, kbfutStride, offFutCd, offShrtCd, stdCdLen, shtCdLen] at *
      omega
  · simp only [mem_cons, not_mem_nil, or_false] at hx
    rcases hx with rfl | rfl
    all_goals
      simp only [length_littleEndian, offMaxN, offUseN, entryOff, offKbfut] at hle hlt
      omega

lemma slot_layout (h : w.layout codes = some w') :
    w'.slot = ranked codeKey codes.keys ∧ w'.updates = w.updates ∧
      w'.bookUpdates = w.bookUpdates := by
  unfold Writer.layout at h
  simp only at h
  split_ifs at h
  rw [← some.inj h]
  exact ⟨rfl, rfl, rfl⟩

lemma exists_layout (w : Writer F) (h : codes.keys.length ≤ maxItem) :
    ∃ w', w.layout codes = some w' := by
  unfold Writer.layout
  simp only [length_ranked]
  rw [if_neg (not_lt.mpr h)]
  exact ⟨_, rfl⟩

lemma listed_layout (h : w.layout codes = some w') : Listed w'.mem w'.slot := by
  unfold Writer.layout at h
  simp only at h
  split_ifs at h with hmax
  rw [← some.inj h]
  refine ⟨?_, fun i c hc => ?_⟩
  · -- the last piece written is the number of slots
    have hlast : ∀ ws : List (ℕ × Bytes), useN (pokes w.mem (ws ++
        [(offMaxN, littleEndian 4 maxItem),
          (offUseN, littleEndian 4 (ranked codeKey codes.keys).length)])) =
        (ranked codeKey codes.keys).length % 256 ^ 4 := by
      intro ws
      rw [pokes_append]
      exact readLittleEndian_poke 4 offUseN _ _
    rw [hlast, Nat.mod_eq_of_lt]
    simp only [maxItem] at hmax
    omega
  · refine ext_getElem? fun k => ?_
    rcases Nat.lt_or_ge k stdCdLen with hk | hk
    · have hlen : k < (putFixed stdCdLen c).length := by rwa [length_putFixed]
      rw [codeField, getElem?_map, getElem?_range hk, getElem?_eq_getElem hlen]
      refine congrArg some (pokes_eq ?_ fun x hx hle hlt => ?_)
      · refine ⟨(entryOff i + offFutCd, stdCdLen), mem_map.mpr
          ⟨(entryOff i + offFutCd, putFixed stdCdLen c), ?_, by simp⟩, by omega, by omega⟩
        refine mem_append_left _ (mem_flatMap.mpr ⟨(c, i), ?_, mem_cons_self⟩)
        exact mem_zipIdx_iff_getElem?.mpr hc
      · -- only the code's own piece lies over its bytes
        rcases mem_append.mp hx with hx | hx
        · obtain ⟨j, d, hd, rfl | rfl⟩ := mem_entryWrites hx
          · have hij : i = j := by
              simp only [length_putFixed] at hle hlt
              simp only [entryOff, offKbfut, kbfutStride, offFutCd, stdCdLen] at *
              omega
            subst hij
            rw [hc] at hd
            rw [← some.inj hd, Nat.add_sub_cancel_left, getElem?_eq_getElem hlen]
          · simp only [length_putFixed] at hle hlt
            simp only [entryOff, offKbfut, kbfutStride, offFutCd, offShrtCd, stdCdLen, shtCdLen]
              at *
            omega
        · simp only [mem_cons, not_mem_nil, or_false] at hx
          rcases hx with rfl | rfl
          all_goals
            simp only [length_littleEndian, offMaxN, offUseN, entryOff, offKbfut] at hle hlt
            omega
    · rw [getElem?_eq_none, getElem?_eq_none]
      · rwa [length_putFixed]
      · rwa [codeField, length_map, length_range]

lemma shows_layout {ρ κ : Type*} {A : Area ρ} (hbase : A.base = offKbfut)
    (hstride : A.stride = kbfutStride) (hoff : offShrtCd + shtCdLen ≤ A.off)
    (h : w.layout codes = some w') {owners : List κ} {label : κ → Option ρ}
    (hshows : A.Shows w.mem owners label) : A.Shows w'.mem owners label := by
  refine hshows.congr fun i a ha => ?_
  have hfits := A.fits
  have haddr : A.addr i + a = entryOff i + (A.off + a) := by
    rw [Area.addr, hbase, hstride, entryOff]
    omega
  rw [haddr]
  exact mem_layout_of_late h i (by omega) (by omega)

lemma getElem?_of_slotOf {c : Code} {i : ℕ} (h : w.slotOf c = some i) : w.slot[i]? = some c := by
  unfold Writer.slotOf at h
  rw [idxOf?, findIdx?_eq_some_iff_getElem] at h
  obtain ⟨hi, hc, -⟩ := h
  rw [getElem?_eq_getElem hi, eq_of_beq hc]

lemma idxOf?_of_getElem? (hnodup : list.Nodup) {i : ℕ} {c : Code} (h : list[i]? = some c) :
    list.idxOf? c = some i := by
  obtain ⟨hi, rfl⟩ := getElem?_eq_some_iff.mp h
  rw [idxOf?, findIdx?_eq_some_iff_getElem]
  refine ⟨hi, beq_self_eq_true _, fun j hj heq => ?_⟩
  exact absurd ((hnodup.getElem_inj_iff).mp (eq_of_beq heq)) (Nat.ne_of_lt hj)

lemma has_iff {c : Code} : w.has c = true ↔ c ∈ w.slot := by
  unfold Writer.has Writer.slotOf
  rw [isSome_idxOf?]

lemma listed_write {ρ : Type*} {A : Area ρ} (hbase : A.base = offKbfut)
    (hstride : A.stride = kbfutStride) (hoff : offShrtCd + shtCdLen ≤ A.off) {m : Mem}
    (h : Listed m list) (i : ℕ) (r : ρ) : Listed (A.write m i r) list := by
  have hfits := A.fits
  have haddr : A.addr i = entryOff i + A.off := by rw [Area.addr, hbase, hstride, entryOff]
  rw [hstride] at hfits
  refine h.congr (fun x hx => ?_) fun j k hk => ?_
  all_goals
    refine Area.write_of_outside ?_
    rw [haddr]
    simp only [entryOff, offKbfut, kbfutStride, offFutCd, offShrtCd, shtCdLen, stdCdLen] at *
    omega

lemma offShrtCd_le_offFsise : offShrtCd + shtCdLen ≤ offFsise := by decide

lemma offShrtCd_le_offFhoga : offShrtCd + shtCdLen ≤ offFhoga := by decide

lemma areas_apart (i j a : ℕ) :
    (a < fhogaLen → entryOff j + offFhoga + a < entryOff i + offFsise ∨
      entryOff i + offFsise + fsiseLen ≤ entryOff j + offFhoga + a) ∧
    (a < fsiseLen → entryOff j + offFsise + a < entryOff i + offFhoga ∨
      entryOff i + offFhoga + fhogaLen ≤ entryOff j + offFsise + a) := by
  simp only [fhogaLen, fsiseLen, entryOff, offKbfut, kbfutStride, offFsise, offFhoga, fhBhoga,
    nHoga, fhUStr]
  omega

/-- The segment shows the codes with their quotes and books. -/
structure Holds (fl : Floats F) (w : Writer F) (list : List Code) (quote : Code → Option (Quote F))
    (book : Code → Option (Book F)) : Prop where
  slot_eq : w.slot = list
  listed : Listed w.mem list
  quotes : (quoteArea fl).Shows w.mem list quote
  books : (bookArea fl).Shows w.mem list book

variable {list : List Code} {quote : Code → Option (Quote F)} {book : Code → Option (Book F)}

lemma Holds.update (h : Holds fl w list quote book) (hnodup : list.Nodup) {q : Quote F}
    (hc : q.code ∈ list) : ∃ w', w.update fl q = some w' ∧
      Holds fl w' list (Function.update quote q.code (some q)) book ∧
      w'.updates = w.updates ++ [q] ∧ w'.bookUpdates = w.bookUpdates := by
  obtain rfl := h.slot_eq
  obtain ⟨i, hi⟩ := isSome_iff_exists.mp (has_iff.mpr hc)
  refine ⟨{ w with mem := (quoteArea fl).write w.mem i q, updates := w.updates ++ [q] }, ?_,
    ⟨rfl, ?_, ?_, ?_⟩, rfl, rfl⟩
  · rw [Writer.update, hi]
    rfl
  · exact listed_write (A := quoteArea fl) rfl rfl offShrtCd_le_offFsise h.listed i q
  · exact h.quotes.write hnodup (getElem?_of_slotOf hi) trivial fun _ _ => trivial
  · exact h.books.congr fun j a ha => Area.write_of_outside ((areas_apart i j a).1 ha)

lemma Holds.updateBook (h : Holds fl w list quote book) (hnodup : list.Nodup) {b : Book F}
    (hc : b.code ∈ list) (hfull : b.Full) (hbook : ∀ d, book b.code = some d → d.Full) :
    ∃ w', w.updateBook fl b = some w' ∧
      Holds fl w' list quote (Function.update book b.code (some b)) ∧
      w'.updates = w.updates ∧ w'.bookUpdates = w.bookUpdates ++ [b] := by
  obtain rfl := h.slot_eq
  obtain ⟨i, hi⟩ := isSome_iff_exists.mp (has_iff.mpr hc)
  refine ⟨{ w with mem := (bookArea fl).write w.mem i b, bookUpdates := w.bookUpdates ++ [b] }, ?_,
    ⟨rfl, ?_, ?_, ?_⟩, rfl, rfl⟩
  · rw [Writer.updateBook, hi]
    rfl
  · exact listed_write (A := bookArea fl) rfl rfl offShrtCd_le_offFhoga h.listed i b
  · exact h.quotes.congr fun j a ha => Area.write_of_outside ((areas_apart i j a).2 ha)
  · exact h.books.write hnodup (getElem?_of_slotOf hi) hfull hbook

end Wtg.Krxshm.Shm
