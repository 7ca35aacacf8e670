import Mathlib.Data.Finset.Insert
import Mathlib.Data.List.Sort

/-! # Lists of normalised names

A list of names is normalised by a loop that maps every entry, drops the blanks and keeps the first
of equal ones (`collect`). -/

namespace Wtg.Lib

open List

/-! ## Collecting names -/

section

variable {α β : Type*} [DecidableEq β] (f : α → β) (blank : β)

def collect : Finset β → List α → List β
  | _, [] => []
  | seen, s :: rest =>
    if f s = blank then collect seen rest
    else if f s ∈ seen then collect seen rest
    else f s :: collect (insert (f s) seen) rest

variable {f blank}

omit [DecidableEq β] in
lemma cons_adds_no_name {x : β} {seen : Finset β} {s : α} {rest : List α}
    (hdrop : x ∉ seen → x ≠ blank → f s ≠ x) :
    (x ∉ seen ∧ x ≠ blank ∧ ∃ t ∈ rest, f t = x) ↔
      x ∉ seen ∧ x ≠ blank ∧ ∃ t ∈ s :: rest, f t = x := by
  constructor
  · rintro ⟨hseen, hne, t, ht, rfl⟩
    exact ⟨hseen, hne, t, mem_cons_of_mem _ ht, rfl⟩
  · rintro ⟨hseen, hne, t, ht, rfl⟩
    rcases mem_cons.mp ht with rfl | ht
    · exact absurd rfl (hdrop hseen hne)
    · exact ⟨hseen, hne, t, ht, rfl⟩

lemma mem_collect {x : β} : ∀ (seen : Finset β) (l : List α),
    x ∈ collect f blank seen l ↔ x ∉ seen ∧ x ≠ blank ∧ ∃ s ∈ l, f s = x
  | seen, [] => by simp [collect]
  | seen, s :: rest => by
    rw [collect]
    by_cases hblank : f s = blank
    · rw [if_pos hblank, mem_collect seen rest]
      exact cons_adds_no_name fun _ hne heq => hne (heq.symm.trans hblank)
    rw [if_neg hblank]
    by_cases hold : f s ∈ seen
    · rw [if_pos hold, mem_collect seen rest]
      exact cons_adds_no_name fun hseen _ heq => hseen (heq ▸ hold)
    · rw [if_neg hold, mem_cons, mem_collect (insert (f s) seen) rest]
      constructor
      · rintro (rfl | ⟨hseen, hne, t, ht, rfl⟩)
        · exact ⟨hold, hblank, s, mem_cons_self, rfl⟩
        · exact ⟨fun h => hseen (Finset.mem_insert_of_mem h), hne, t, mem_cons_of_mem _ ht,
            rfl⟩
      · rintro ⟨hseen, hne, t, ht, rfl⟩
        by_cases heq : f t = f s
        · exact .inl heq
        · rcases mem_cons.mp ht with rfl | ht
          · exact absurd rfl heq
          · refine .inr ⟨?_, hne, t, ht, rfl⟩
            rw [Finset.mem_insert, not_or]
            exact ⟨heq, hseen⟩

lemma nodup_collect : ∀ (seen : Finset β) (l : List α), (collect f blank seen l).Nodup
  | _, [] => nodup_nil
  | seen, s :: rest => by
    rw [collect]
    split_ifs
    · exact nodup_collect seen rest
    · exact nodup_collect seen rest
    · refine nodup_cons.mpr ⟨?_, nodup_collect _ rest⟩
      rw [mem_collect]
      exact fun h => h.1 (Finset.mem_insert_self _ _)

lemma collect_of_normal {f : β → β} : ∀ (seen : Finset β) (l : List β),
    (∀ x ∈ l, f x = x ∧ x ≠ blank ∧ x ∉ seen) → l.Nodup → collect f blank seen l = l
  | _, [], _, _ => rfl
  | seen, s :: rest, hnormal, hnodup => by
    obtain ⟨hfix, hblank, hnew⟩ := hnormal s mem_cons_self
    obtain ⟨hs, hrest⟩ := nodup_cons.mp hnodup
    rw [collect, hfix, if_neg hblank, if_neg hnew, collect_of_normal (insert s seen) rest ?_ hrest]
    intro x hx
    obtain ⟨hfix, hblank, hnew⟩ := hnormal x (mem_cons_of_mem _ hx)
    refine ⟨hfix, hblank, ?_⟩
    rw [Finset.mem_insert, not_or]
    exact ⟨fun h => hs (h ▸ hx), hnew⟩

end

/-! ## Sorted names -/

variable {α β : Type*} [LinearOrder β] (f : α → β) (blank : β)

def sortedNames (l : List α) : List β := (collect f blank ∅ l).insertionSort (· ≤ ·)

/-- A list as `sortedNames` makes it: normal, without repetition and in order. -/
structure IsNormal (f : β → β) (blank : β) (l : List β) : Prop where
  fixed : ∀ x ∈ l, f x = x
  noBlank : blank ∉ l
  nodup : l.Nodup
  sorted : l.Pairwise (· ≤ ·)

variable {f blank}

lemma mem_sortedNames {x : β} {l : List α} :
    x ∈ sortedNames f blank l ↔ x ≠ blank ∧ ∃ s ∈ l, f s = x := by
  rw [sortedNames, (perm_insertionSort (· ≤ ·) _).mem_iff, mem_collect]
  simp

variable {f : β → β}

lemma isNormal_sortedNames (hf : ∀ x, f (f x) = f x) (l : List β) :
    IsNormal f blank (sortedNames f blank l) where
  fixed x hx := by
    obtain ⟨-, s, -, rfl⟩ := mem_sortedNames.mp hx
    exact hf s
  noBlank h := (mem_sortedNames.mp h).1 rfl
  nodup := (perm_insertionSort (· ≤ ·) _).nodup_iff.mpr (nodup_collect _ _)
  sorted := pairwise_insertionSort (· ≤ ·) _

variable {l : List β}

lemma IsNormal.sortedNames_eq (h : IsNormal f blank l) : sortedNames f blank l = l := by
  have hcollect : collect f blank ∅ l = l :=
    collect_of_normal ∅ l
      (fun x hx => ⟨h.fixed x hx, fun he => h.noBlank (he ▸ hx), Finset.notMem_empty x⟩) h.nodup
  rw [sortedNames, hcollect]
  exact h.sorted.insertionSort_eq

lemma isNormal_nil : IsNormal f blank [] :=
  ⟨by simp, by simp, nodup_nil, List.Pairwise.nil⟩

lemma IsNormal.add (h : IsNormal f blank l) {x : β} (hfix : f x = x) (hblank : x ≠ blank)
    (hnew : x ∉ l) : IsNormal f blank ((l ++ [x]).insertionSort (· ≤ ·)) := by
  have hperm := perm_insertionSort (· ≤ ·) (l ++ [x])
  refine ⟨?_, ?_, ?_, pairwise_insertionSort (· ≤ ·) _⟩
  · intro y hy
    rcases mem_append.mp (hperm.mem_iff.mp hy) with hy | hy
    · exact h.fixed y hy
    · rw [mem_singleton.mp hy, hfix]
  · rw [hperm.mem_iff, mem_append, mem_singleton, not_or]
    exact ⟨h.noBlank, hblank.symm⟩
  · rw [hperm.nodup_iff, nodup_append]
    refine ⟨h.nodup, by simp, ?_⟩
    intro a ha b hb hab
    exact hnew (by rw [← mem_singleton.mp hb, ← hab]; exact ha)

lemma IsNormal.filter (h : IsNormal f blank l) (p : β → Bool) : IsNormal f blank (l.filter p) :=
  ⟨fun x hx => h.fixed x (mem_of_mem_filter hx), fun hb => h.noBlank (mem_of_mem_filter hb),
    h.nodup.filter p, h.sorted.filter p⟩

end Wtg.Lib
