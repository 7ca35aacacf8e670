import Mathlib.Data.List.Sort
import Wtg.Lib.Numeral
import Wtg.Lib.Upsert

/-! # The pair master and the symbol map

`PairMaster` (`pkg/pricing/pair.go`) and the `SymbolMap` (`pkg/quote/symbolmap.go`) that mirrors
it. -/

namespace Wtg.Pricing.Pairs

open Lib Lib.Upsert List

structure SymbolEntry where
  symbol : String
  pair : String
  active : Bool

structure SymbolMap where
  bySymbol : GoMap String SymbolEntry
  byPair : GoMap String String

namespace SymbolMap

def replace (entries : List SymbolEntry) : SymbolMap where
  bySymbol := ofEntries SymbolEntry.symbol id entries
  byPair := ofEntries SymbolEntry.pair SymbolEntry.symbol entries

def lookup (m : SymbolMap) (symbol : String) : Option (String × Bool) :=
  (m.bySymbol.lookup symbol).map fun e => (e.pair, e.active)

def reverse (m : SymbolMap) (pair : String) : Option String := m.byPair.lookup pair

variable {entries : List SymbolEntry}

lemma exists_lookup {e : SymbolEntry} (he : e ∈ entries) : ∃ e' ∈ entries, e'.symbol = e.symbol ∧
    (replace entries).lookup e.symbol = some (e'.pair, e'.active) := by
  obtain ⟨e', he', hkey, hlookup⟩ :
    ∃ e' ∈ entries, _ ∧ (replace entries).bySymbol.lookup e.symbol = some e' := lookup_of_mem he
  exact ⟨e', he', hkey, by rw [lookup, hlookup, Option.map_some]⟩

/-- **The two indexes agree exactly** if after the last entry of a pair no entry has its symbol. -/
theorem lookup_of_reverse_iff (entries : List SymbolEntry) :
    (∀ pair symbol, (replace entries).reverse pair = some symbol →
      ∃ active, (replace entries).lookup symbol = some (pair, active)) ↔
    ∀ before e after, entries = before ++ e :: after → (∀ e' ∈ after, e'.pair ≠ e.pair) →
      ∀ e' ∈ after, e'.symbol ≠ e.symbol := by
  constructor
  · rintro h before e after rfl hpair e₁ he₁ hsymbol
    obtain ⟨active, hlookup⟩ := h e.pair e.symbol (lookup_last _ hpair)
    -- of the entries after `e`, the last one with its symbol is the one that is found
    obtain ⟨e₂, -, -, hlast⟩ : ∃ e₂ ∈ after, e₂.symbol = e₁.symbol ∧
      (ofEntries SymbolEntry.symbol id after).lookup e₁.symbol = some e₂ := lookup_of_mem he₁
    obtain ⟨b, e', a, rfl, hkey, -, hnone⟩ := exists_last_of_lookup hlast
    have hfound : (replace (before ++ e :: (b ++ e' :: a))).lookup e.symbol =
        some (e'.pair, e'.active) := by
      rw [← hsymbol, ← hkey, lookup, ← cons_append, ← append_assoc]
      exact congrArg (Option.map _) (lookup_last _ (by rwa [hkey]))
    rw [hfound, Option.some_inj, Prod.mk.injEq] at hlookup
    exact hpair e' (mem_append_right b mem_cons_self) hlookup.1
  · intro h pair symbol hrev
    obtain ⟨before, e, after, rfl, rfl, rfl, hlater⟩ := exists_last_of_lookup hrev
    exact ⟨e.active, congrArg (Option.map _) (lookup_last _ (h before e after rfl hlater))⟩

theorem lookup_of_reverse_iff_moved :
    let m := replace [⟨"X", "USD/KRW", true⟩, ⟨"X", "EUR/KRW", true⟩, ⟨"Y", "USD/KRW", true⟩]
    ∀ pair symbol, m.reverse pair = some symbol →
      ∃ active, m.lookup symbol = some (pair, active) := by
  refine (lookup_of_reverse_iff _).mpr fun before e after hsplit => ?_
  rcases before with _ | ⟨e₁, _ | ⟨e₂, _ | ⟨e₃, before⟩⟩⟩
  · cases hsplit; decide
  · cases hsplit; decide
  · cases hsplit; decide
  · simp at hsplit

/-- A symbol that is listed again for another pair still is the symbol of the first one. -/
theorem reverse_left_behind :
    let m := replace [⟨"X", "USD/KRW", true⟩, ⟨"X", "EUR/KRW", true⟩]
    m.reverse "USD/KRW" = some "X" ∧ m.lookup "X" = some ("EUR/KRW", true) := by
  decide

end SymbolMap

/-- `Pair`: the fields that the lookups read. -/
structure Pair where
  id : String
  base : String
  quote : String
  symbol : String
  sortOrder : ℤ
  active : Bool
  deriving DecidableEq

namespace Pair

/-- The pair as a `session.Pair`. -/
def name (p : Pair) : String := p.base ++ "/" ++ p.quote

def outer (p : Pair) : String := if p.symbol ≠ "" then p.symbol else p.id

def less (p q : Pair) : Prop :=
  if p.sortOrder ≠ q.sortOrder then p.sortOrder < q.sortOrder else p.id < q.id

instance : DecidableRel less := fun _ _ => by
  unfold less
  infer_instance

end Pair

structure PairMaster where
  byID : GoMap String Pair
  sorted : List Pair

def replace (pairs : List Pair) : PairMaster :=
  let kept := pairs.filter (·.id ≠ "")
  { byID := ofEntries Pair.id id kept
    sorted := kept.insertionSort fun p q => ¬ q.less p }

/-- `splitPair`, where it finds a separator. -/
def splitPair (pair : String) : Option (String × String) :=
  if '/' ∈ pair.toList then
    some (String.ofList (pair.toList.takeWhile (· ≠ '/')),
      String.ofList (pair.toList.dropWhile (· ≠ '/')).tail)
  else none

namespace PairMaster

def lookupBySymbol (m : PairMaster) (sym : String) : Option String :=
  if sym = "" then none
  else match (m.byID.lookup sym).filter (·.active) with
    | some p => some p.name
    | none => (m.sorted.find? fun p => p.active && p.symbol = sym).map Pair.name

def reverseSymbol (m : PairMaster) (pair : String) : Option String := do
  let (base, quote) ← splitPair pair
  let p ← m.sorted.find? fun p => p.active && p.base = base && p.quote = quote
  return p.outer

def toSymbolEntries (m : PairMaster) : List SymbolEntry :=
  m.sorted.map fun p => ⟨p.outer, p.name, p.active⟩

end PairMaster

/-- The symbol map filled from the master. -/
def mirror (pairs : List Pair) : SymbolMap := .replace (replace pairs).toSymbolEntries

lemma splitPair_name {p : Pair} (h : '/' ∉ p.base.toList) :
    splitPair p.name = some (p.base, p.quote) := by
  have hall : ∀ c ∈ p.base.toList, decide (c ≠ '/') = true := fun c hc =>
    decide_eq_true fun hsep => h (hsep ▸ hc)
  have hchars : p.name.toList = p.base.toList ++ '/' :: p.quote.toList := by
    simp [Pair.name]
  rw [splitPair, hchars, takeWhile_append_of_pos hall, dropWhile_append_of_pos hall]
  simp

lemma name_inj {p q : Pair} (hp : '/' ∉ p.base.toList) (hq : '/' ∉ q.base.toList)
    (h : p.name = q.name) : p.base = q.base ∧ p.quote = q.quote := by
  have hsplit := splitPair_name hp
  rw [h, splitPair_name hq] at hsplit
  simpa [eq_comm] using hsplit

lemma find?_eq_of_unique {α : Type*} {P : α → Bool} {l : List α} {a : α} (ha : a ∈ l)
    (hP : P a = true) (h : ∀ b ∈ l, P b = true → b = a) : l.find? P = some a := by
  obtain ⟨b, hb⟩ := Option.isSome_iff_exists.mp (find?_isSome.mpr ⟨a, ha, hP⟩)
  rw [hb, h b (mem_of_find?_eq_some hb) (find?_some hb)]

/-- What is asked of the active pairs of a master. -/
structure Distinct (pairs : List Pair) : Prop where
  active : ∀ p ∈ pairs, p.active = true
  named : ∀ p ∈ pairs, p.id ≠ ""
  ids : (pairs.map Pair.id).Nodup
  symbols : (pairs.map Pair.outer).Nodup
  sides : (pairs.map fun p => (p.base, p.quote)).Nodup
  bases : ∀ p ∈ pairs, '/' ∉ p.base.toList

section

variable {pairs : List Pair} (h : Distinct pairs) {p : Pair} (hp : p ∈ pairs)

include h

lemma kept_eq : pairs.filter (·.id ≠ "") = pairs :=
  filter_eq_self.mpr fun q hq => decide_eq_true (h.named q hq)

lemma mem_sorted {q : Pair} : q ∈ (replace pairs).sorted ↔ q ∈ pairs := by
  rw [replace, kept_eq h, mem_insertionSort]

include hp

lemma outer_ne : p.outer ≠ "" := by
  unfold Pair.outer
  split
  case isTrue hsymbol => exact hsymbol
  case isFalse => exact h.named p hp

lemma reverseSymbol_name : (replace pairs).reverseSymbol p.name = some p.outer := by
  have hfind : ((replace pairs).sorted.find? fun q =>
      q.active && q.base = p.base && q.quote = p.quote) = some p := by
    refine find?_eq_of_unique ((mem_sorted h).mpr hp) (by simp [h.active p hp]) ?_
    intro q hq hsides
    simp only [Bool.and_eq_true, decide_eq_true_eq] at hsides
    exact inj_on_of_nodup_map h.sides ((mem_sorted h).mp hq) hp (by rw [hsides.1.2, hsides.2])
  rw [PairMaster.reverseSymbol, splitPair_name (h.bases p hp)]
  simp [hfind]

lemma symbolMap_name : (mirror pairs).reverse p.name = some p.outer ∧
    (mirror pairs).lookup p.outer = some (p.name, true) := by
  have hentry : (⟨p.outer, p.name, p.active⟩ : SymbolEntry) ∈ (replace pairs).toSymbolEntries :=
    mem_map_of_mem ((mem_sorted h).mpr hp)
  have hmem : ∀ e ∈ (replace pairs).toSymbolEntries,
      ∃ q ∈ pairs, e = ⟨q.outer, q.name, q.active⟩ := by
    intro e he
    obtain ⟨q, hq, rfl⟩ := mem_map.mp he
    exact ⟨q, (mem_sorted h).mp hq, rfl⟩
  constructor
  · obtain ⟨e, he, hkey, hlookup⟩ : ∃ e ∈ _, SymbolEntry.pair e = p.name ∧
      (mirror pairs).reverse p.name = some e.symbol := lookup_of_mem hentry
    obtain ⟨q, hq, rfl⟩ := hmem e he
    obtain ⟨hbase, hquote⟩ := name_inj (h.bases q hq) (h.bases p hp) hkey
    obtain rfl := inj_on_of_nodup_map h.sides hq hp (by rw [hbase, hquote])
    exact hlookup
  · obtain ⟨e, he, hsymbol, hlookup⟩ := SymbolMap.exists_lookup hentry
    obtain ⟨q, hq, rfl⟩ := hmem e he
    obtain rfl := inj_on_of_nodup_map h.symbols hq hp hsymbol
    exact hlookup.trans (by rw [h.active q hq])

/-- An id is looked up before the symbols. -/
lemma lookupBySymbol_id : (replace pairs).lookupBySymbol p.id = some p.name := by
  obtain ⟨q, hq, hid, hlookup⟩ : ∃ q ∈ pairs, q.id = p.id ∧
      (ofEntries Pair.id id pairs).lookup p.id = some q := lookup_of_mem hp
  obtain rfl := inj_on_of_nodup_map h.ids hq hp hid
  rw [PairMaster.lookupBySymbol, if_neg (h.named q hq), replace, kept_eq h, hlookup,
    Option.filter_some, if_pos (h.active q hq)]

lemma lookupBySymbol_outer (hids : ∀ q ∈ pairs, q.id = p.outer → q = p) :
    (replace pairs).lookupBySymbol p.outer = some p.name := by
  have hbyID : (replace pairs).byID = ofEntries Pair.id id pairs := by rw [replace, kept_eq h]
  rw [PairMaster.lookupBySymbol, if_neg (outer_ne h hp), hbyID]
  rcases hid : (ofEntries Pair.id id pairs).lookup p.outer with _ | q
  · have hsymbol : p.symbol = p.outer := by
      by_contra hne
      have hempty : p.symbol = "" := by
        by_contra hsymbol
        exact hne (if_pos hsymbol).symm
      obtain ⟨q, -, -, hq⟩ : ∃ q ∈ pairs, q.id = p.id ∧ _ := lookup_of_mem hp
      rw [Pair.outer, if_neg (not_not.mpr hempty), hq] at hid
      cases hid
    have hfind : ((replace pairs).sorted.find? fun q => q.active && q.symbol = p.outer) =
        some p := by
      refine find?_eq_of_unique ((mem_sorted h).mpr hp) (by simp [h.active p hp, hsymbol]) ?_
      intro q hq hq'
      simp only [Bool.and_eq_true, decide_eq_true_eq] at hq'
      refine inj_on_of_nodup_map h.symbols ((mem_sorted h).mp hq) hp ?_
      rw [Pair.outer, hq'.2, if_pos (outer_ne h hp)]
    simp [hfind]
  · obtain ⟨q', hq', hkey, hval⟩ := exists_of_lookup hid
    obtain rfl := hids q' hq' hkey
    obtain rfl : q' = q := hval
    rw [Option.filter_some, if_pos (h.active q' hp)]

end

/-- **The master and its mirror agree exactly** if no pair's symbol is the id of another pair. -/
theorem mirror_agrees_iff {pairs : List Pair} (h : Distinct pairs) :
    (∀ p ∈ pairs, ∃ s, (replace pairs).reverseSymbol p.name = some s ∧
      (mirror pairs).reverse p.name = some s ∧
      (replace pairs).lookupBySymbol s = some p.name ∧
      (mirror pairs).lookup s = some (p.name, true)) ↔
    ∀ p ∈ pairs, ∀ q ∈ pairs, q.id = p.outer → q = p := by
  constructor
  · intro hagree p hp q hq hid
    obtain ⟨s, hrev, -, hlookup, -⟩ := hagree p hp
    rw [reverseSymbol_name h hp, Option.some_inj] at hrev
    rw [← hrev, ← hid, lookupBySymbol_id h hq, Option.some_inj] at hlookup
    obtain ⟨hbase, hquote⟩ := name_inj (h.bases q hq) (h.bases p hp) hlookup
    exact inj_on_of_nodup_map h.sides hq hp (by rw [hbase, hquote])
  · intro hids p hp
    exact ⟨p.outer, reverseSymbol_name h hp, (symbolMap_name h hp).1,
      lookupBySymbol_outer h hp (hids p hp), (symbolMap_name h hp).2⟩

def usd : Pair := ⟨"USDKRW", "USD", "KRW", "", 1, true⟩

/-- A pair whose feed symbol is the id of `usd`. -/
def eur : Pair := ⟨"EURKRW", "EUR", "KRW", "USDKRW", 2, true⟩

def jpy : Pair := ⟨"JPYKRW", "JPY", "KRW", "JPY100", 2, true⟩

theorem mirror_agrees_iff_two : Distinct [jpy, usd] ∧ ∀ p ∈ [jpy, usd],
    ∃ s, (replace [jpy, usd]).reverseSymbol p.name = some s ∧
      (mirror [jpy, usd]).reverse p.name = some s ∧
      (replace [jpy, usd]).lookupBySymbol s = some p.name ∧
      (mirror [jpy, usd]).lookup s = some (p.name, true) := by
  have h : Distinct [jpy, usd] :=
    ⟨by decide, by decide, by decide, by decide, by decide, by decide⟩
  exact ⟨h, (mirror_agrees_iff h).mpr (by decide)⟩

theorem symbol_taken_for_id :
    Distinct [{ usd with symbol := "SPOT1" }, eur] ∧
    (replace [{ usd with symbol := "SPOT1" }, eur]).reverseSymbol "EUR/KRW" = some "USDKRW" ∧
      (replace [{ usd with symbol := "SPOT1" }, eur]).lookupBySymbol "USDKRW" = some "USD/KRW" := by
  refine ⟨⟨by decide, by decide, by decide, by decide, by decide, by decide⟩, ?_, ?_⟩ <;>
    decide +kernel

end Wtg.Pricing.Pairs
