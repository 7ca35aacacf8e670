import Mathlib.Data.List.Induction
import Wtg.Lib.GoMap

/-! # Upserts into a list of keyed entries

A list of entries that is turned into a map by inserting them one after another: of the entries of
one key the last one is the live one (`lookup_ofEntries`). -/

namespace Wtg.Lib.Upsert

open List

variable {α κ ν : Type*} [DecidableEq κ] (key : α → κ)

def rows (k : κ) (l : List α) : List α := l.filter fun e => key e = k

/-- The map of a list of entries: each one is inserted in turn. -/
def ofEntries (val : α → ν) (l : List α) : GoMap κ ν :=
  l.foldl (fun m e => m.insert (key e) (val e)) ∅

/-- Change the first entry of the key `k` by `f`, or append `new`. -/
def upsert (k : κ) (f : α → α) (new : α) : List α → List α
  | [] => [new]
  | e :: es => if key e = k then f e :: es else e :: upsert k f new es

/-- What an upsert does to the rows of its key. -/
def modifyHead (f : α → α) (new : α) : List α → List α
  | [] => [new]
  | e :: es => f e :: es

lemma lookup_ofEntries (val : α → ν) (k : κ) (l : List α) :
    (ofEntries key val l).lookup k = (rows key k l).getLast?.map val := by
  induction l using reverseRecOn with
  | nil => rfl
  | append_singleton l e ih =>
    have hstep : ofEntries key val (l ++ [e]) = (ofEntries key val l).insert (key e) (val e) := by
      simp only [ofEntries, foldl_append, foldl_cons, foldl_nil]
    rw [hstep]
    by_cases h : key e = k
    · subst h
      rw [AList.lookup_insert]
      simp [rows, filter_append]
    · rw [AList.lookup_insert_ne (Ne.symm h), ih]
      simp [rows, filter_append, h]

/-- An entry that is the last one of its key is the live one. -/
lemma lookup_last {val : α → ν} {before after : List α} {e : α}
    (h : ∀ e' ∈ after, key e' ≠ key e) :
    (ofEntries key val (before ++ e :: after)).lookup (key e) = some (val e) := by
  have hafter : rows key (key e) after = [] :=
    filter_eq_nil_iff.mpr fun e' he' => by simp [h e' he']
  rw [lookup_ofEntries, rows, filter_append, filter_cons_of_pos (by simp)]
  change Option.map val (_ ++ e :: rows key (key e) after).getLast? = _
  rw [hafter, getLast?_concat, Option.map_some]

lemma rows_upsert_ne {k k' : κ} (hk : k' ≠ k) {f : α → α} {new : α} (hf : ∀ e, key (f e) = key e)
    (hnew : key new = k) : ∀ l : List α, rows key k' (upsert key k f new l) = rows key k' l
  | [] => by
    have hne : key new ≠ k' := by rw [hnew]; exact Ne.symm hk
    simp [upsert, rows, hne]
  | e :: es => by
    have ih := rows_upsert_ne hk hf hnew es
    by_cases he : key e = k
    · simp [upsert, rows, he, hf, Ne.symm hk]
    · rw [upsert, if_neg he]
      simp only [rows, filter_cons] at ih ⊢
      rw [ih]

lemma rows_upsert_self {k : κ} {f : α → α} {new : α} (hf : ∀ e, key (f e) = key e)
    (hnew : key new = k) :
    ∀ l : List α, rows key k (upsert key k f new l) = modifyHead f new (rows key k l)
  | [] => by simp [upsert, rows, hnew, modifyHead]
  | e :: es => by
    have ih := rows_upsert_self hf hnew es
    by_cases he : key e = k
    · simp [upsert, rows, he, hf, modifyHead]
    · rw [upsert, if_neg he]
      simp only [rows, filter_cons, he, decide_false, Bool.false_eq_true, if_false] at ih ⊢
      exact ih

omit [DecidableEq κ] in
lemma modifyHead_modifyHead {f g : α → α} {a b : α} (hfg : ∀ e, g (f e) = g e) (hab : g a = b) :
    ∀ l : List α, modifyHead g b (modifyHead f a l) = modifyHead g b l
  | [] => by rw [modifyHead, modifyHead, modifyHead, hab]
  | e :: es => by rw [modifyHead, modifyHead, modifyHead, hfg]

variable {key} {val : α → ν} {k : κ} {l : List α}

lemma lookup_eq_none_iff : (ofEntries key val l).lookup k = none ↔ ∀ e ∈ l, key e ≠ k := by
  rw [lookup_ofEntries, Option.map_eq_none_iff, getLast?_eq_none_iff, rows, filter_eq_nil_iff]
  simp only [decide_eq_true_eq]

lemma exists_last_of_lookup {v : ν} (h : (ofEntries key val l).lookup k = some v) :
    ∃ before e after, l = before ++ e :: after ∧ key e = k ∧ val e = v ∧
      ∀ e' ∈ after, key e' ≠ k := by
  rw [lookup_ofEntries] at h
  obtain ⟨e, he, hv⟩ := Option.map_eq_some_iff.mp h
  rw [rows, getLast?_eq_head?_reverse, ← filter_reverse, head?_filter,
    find?_eq_some_iff_append] at he
  obtain ⟨hkey, after, before, hl, hafter⟩ := he
  refine ⟨before.reverse, e, after.reverse, ?_, of_decide_eq_true hkey, hv, fun e' he' => ?_⟩
  · rw [← reverse_reverse l, hl, reverse_append, reverse_cons, append_assoc, singleton_append]
  · simpa using hafter e' (mem_reverse.mp he')

lemma exists_of_lookup {v : ν} (h : (ofEntries key val l).lookup k = some v) :
    ∃ e ∈ l, key e = k ∧ val e = v := by
  obtain ⟨before, e, after, rfl, hkey, hval, -⟩ := exists_last_of_lookup h
  exact ⟨e, mem_append_right before mem_cons_self, hkey, hval⟩

lemma lookup_of_mem {e : α} (h : e ∈ l) :
    ∃ e' ∈ l, key e' = key e ∧ (ofEntries key val l).lookup (key e) = some (val e') := by
  have hrow : e ∈ rows key (key e) l := mem_filter.mpr ⟨h, decide_eq_true rfl⟩
  have hlast := getLast?_eq_some_getLast (ne_nil_of_mem hrow)
  obtain ⟨hmem, hkey⟩ := mem_filter.mp (mem_of_getLast? hlast)
  exact ⟨_, hmem, of_decide_eq_true hkey, by rw [lookup_ofEntries, hlast, Option.map_some]⟩

end Wtg.Lib.Upsert
