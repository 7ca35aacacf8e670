import Mathlib.Data.List.AList
import Mathlib.Data.List.Perm.Basic

/-! # Finite maps with an enumeration order

A map is Mathlib's `AList` over a constant family: a list of entries without repeated keys. -/

namespace Wtg.Lib

open List AList

/-- A finite map from `κ` to `ν`, with the order of its enumeration. -/
abbrev GoMap (κ ν : Type*) := AList (fun _ : κ => ν)

/-- The order in which one `range` loop meets the entries of a map: any order of any list. -/
structure RangeOrder (α : Type*) where
  list : List α → List α
  perm : ∀ l, (list l).Perm l

def RangeOrder.same (α : Type*) : RangeOrder α := ⟨id, fun _ => .refl _⟩

namespace GoMap

variable {κ ν μ : Type*} [DecidableEq κ]

lemma mem_range_values (order : RangeOrder ν) (m : GoMap κ ν) (v : ν) :
    v ∈ order.list (m.entries.map Sigma.snd) ↔ ∃ k, m.lookup k = some v := by
  rw [(order.perm _).mem_iff, mem_map]
  constructor
  · rintro ⟨⟨k, w⟩, hmem, rfl⟩
    exact ⟨k, mem_lookup_iff.mpr hmem⟩
  · rintro ⟨k, hk⟩
    exact ⟨⟨k, v⟩, mem_lookup_iff.mp hk, rfl⟩

/-- The loop over `es` that erases from `m` every key whose entry satisfies `p`. -/
def eraseWhere (p : κ → ν → Bool) (es : List (Sigma fun _ : κ => ν)) (m : GoMap κ μ) : GoMap κ μ :=
  es.foldl (fun m e => if p e.1 e.2 then m.erase e.1 else m) m

lemma lookup_eraseWhere (p : κ → ν → Bool) (k : κ) :
    ∀ (es : List (Sigma fun _ : κ => ν)) (m : GoMap κ μ),
      (eraseWhere p es m).lookup k =
        if es.any fun e => decide (e.1 = k) && p e.1 e.2 then none else m.lookup k
  | [], m => by simp [eraseWhere]
  | e :: es, m => by
    have ih := lookup_eraseWhere p k es (if p e.1 e.2 then m.erase e.1 else m)
    simp only [eraseWhere, foldl_cons] at ih ⊢
    rw [ih, any_cons]
    by_cases hp : p e.1 e.2 = true
    · rw [if_pos hp, hp, Bool.and_true]
      by_cases hk : e.1 = k
      · subst hk; simp
      · rw [lookup_erase_ne (Ne.symm hk), decide_eq_false hk, Bool.false_or]
    · rw [if_neg hp, (Bool.not_eq_true _).mp hp, Bool.and_false, Bool.false_or]

lemma any_entries (p : κ → ν → Bool) (k : κ) (m : GoMap κ ν) :
    (m.entries.any fun e => decide (e.1 = k) && p e.1 e.2) = (m.lookup k).any (p k) := by
  rw [Bool.eq_iff_iff, any_eq_true, Option.any_eq_true]
  constructor
  · rintro ⟨⟨k', v⟩, he, hp⟩
    simp only [Bool.and_eq_true, decide_eq_true_eq] at hp
    obtain ⟨rfl, hp⟩ := hp
    exact ⟨v, mem_lookup_iff.mpr he, hp⟩
  · rintro ⟨v, hv, hp⟩
    exact ⟨⟨k, v⟩, mem_lookup_iff.mp hv, by simpa using hp⟩

lemma lookup_eraseWhere_entries (p : κ → ν → Bool) (k : κ) (m : GoMap κ ν) (c : GoMap κ μ) :
    (eraseWhere p m.entries c).lookup k = if (m.lookup k).any (p k) then none else c.lookup k := by
  rw [lookup_eraseWhere, any_entries]

lemma entries_perm_of_lookup {m : GoMap κ ν} {k : κ} {v : ν} (h : m.lookup k = some v) :
    m.entries.Perm (⟨k, v⟩ :: (m.erase k).entries) := by
  have hkey : k ∈ m.entries.keys := mem_keys_of_mem (mem_lookup_iff.mp h)
  obtain ⟨w, l₁, l₂, -, hl, herase⟩ := exists_of_kerase hkey
  have hw : m.lookup k = some w := by
    rw [← Option.mem_def, mem_lookup_iff, hl]
    exact mem_append_right _ mem_cons_self
  obtain rfl := Option.some.inj (h.symm.trans hw)
  change m.entries.Perm (⟨k, v⟩ :: kerase k m.entries)
  rw [herase, hl]
  exact perm_middle

lemma entries_insert (m : GoMap κ ν) (k : κ) (v : ν) :
    (m.insert k v).entries = ⟨k, v⟩ :: (m.erase k).entries := rfl

lemma entries_erase_of_lookup_none {m : GoMap κ ν} {k : κ} (h : m.lookup k = none) :
    (m.erase k).entries = m.entries :=
  kerase_of_notMem_keys (lookup_eq_none.mp h)

omit [DecidableEq κ] in
lemma exists_order (p : (Sigma fun _ : κ => ν) → Bool) (m : GoMap κ ν) {ks : List κ}
    (h : ks.Perm ((m.entries.filter p).map Sigma.fst)) :
    ∃ m' : GoMap κ ν, m'.entries.Perm m.entries ∧ (m'.entries.filter p).map Sigma.fst = ks := by
  obtain ⟨es, rfl, hes⟩ : ∃ es : List (Sigma fun _ : κ => ν),
      ks = es.map Sigma.fst ∧ es.Perm (m.entries.filter p) :=
    (congrFun (congrFun (eq_map_comp_perm Sigma.fst) ks) _).mpr h
  -- the kept entries in the given order, then the others
  have hperm : (es ++ m.entries.filter fun e => !p e).Perm m.entries :=
    (hes.append_right _).trans (filter_append_perm p m.entries)
  have hkept : es.filter p = es :=
    filter_eq_self.mpr fun e he => (mem_filter.mp (hes.mem_iff.mp he)).2
  have hrest : (m.entries.filter fun e => !p e).filter p = [] := by
    simp
  refine ⟨⟨_, (perm_nodupKeys hperm).mpr m.nodupKeys⟩, hperm, ?_⟩
  show ((es ++ m.entries.filter fun e => !p e).filter p).map Sigma.fst = _
  rw [filter_append, hkept, hrest, append_nil]

end GoMap

end Wtg.Lib
