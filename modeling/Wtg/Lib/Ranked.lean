import Mathlib.Data.List.Sort
import Mathlib.Data.List.TakeWhile

/-! # Keys in ascending order

`ranked key l` is the list in ascending order of a key. -/

namespace Wtg.Lib.Ranked

open List hiding getElem?_eq_some_iff

variable {κ ν : Type*} [LinearOrder ν] (key : κ → ν)

def ranked (l : List κ) : List κ := l.insertionSort fun a b => key a ≤ key b

def Ascending (l : List κ) : Prop := l.Pairwise fun a b => key a < key b

variable {key} {l l' : List κ} {c : κ}

@[simp] lemma mem_ranked : c ∈ ranked key l ↔ c ∈ l := mem_insertionSort _

@[simp] lemma length_ranked (l : List κ) : (ranked key l).length = l.length :=
  length_insertionSort _ _

lemma Ascending.nodup (h : Ascending key l) : l.Nodup :=
  List.Pairwise.imp (fun hlt heq => (congrArg key heq).not_lt hlt) h

lemma ascending_ranked (hkey : Function.Injective key) (h : l.Nodup) :
    Ascending key (ranked key l) := by
  have : Std.Total fun a b : κ => key a ≤ key b := ⟨fun a b => le_total (key a) (key b)⟩
  have : IsTrans κ fun a b => key a ≤ key b := ⟨fun a b c hab hbc => le_trans hab hbc⟩
  have hsorted : (ranked key l).Pairwise fun a b => key a ≤ key b := pairwise_insertionSort _ l
  have hnodup : (ranked key l).Nodup := (perm_insertionSort _ l).nodup_iff.mpr h
  exact (hsorted.and hnodup).imp fun h => lt_of_le_of_ne h.1 (hkey.ne h.2)

lemma eq_of_ascending (h : Ascending key l) (h' : Ascending key l') (hmem : ∀ c, c ∈ l ↔ c ∈ l') :
    l = l' := by
  have hperm : l.Perm l' := (perm_ext_iff_of_nodup h.nodup h'.nodup).mpr hmem
  exact hperm.eq_of_pairwise (fun a b _ _ hab hba => absurd (hab.trans hba) (lt_irrefl _)) h h'

/-- **Where a new element goes.** -/
lemma exists_split (hkey : Function.Injective key) (h : Ascending key l) (hc : c ∉ l)
    (h' : Ascending key l') (hmem : ∀ d, d ∈ l' ↔ d = c ∨ d ∈ l) :
    ∃ below above, l = below ++ above ∧ l' = below ++ c :: above ∧
      (∀ d ∈ below, key d < key c) ∧ ∀ d ∈ above, key c < key d := by
  have hlow : ∀ d ∈ l.filter (fun d => key d < key c), key d < key c := fun d hd => by
    simpa using (mem_filter.mp hd).2
  have hhigh : ∀ d ∈ l.filter (fun d => key c < key d), key c < key d := fun d hd => by
    simpa using (mem_filter.mp hd).2
  have hsides : ∀ d, d ∈ l ↔ d ∈ l.filter (fun d => key d < key c) ∨
      d ∈ l.filter (fun d => key c < key d) := by
    intro d
    rw [mem_filter, mem_filter, ← and_or_left]
    refine ⟨fun hd => ⟨hd, ?_⟩, And.left⟩
    have hne : key d ≠ key c := fun heq => hc (hkey heq ▸ hd)
    simpa using lt_or_gt_of_ne hne
  have habove : Ascending key (c :: l.filter fun d => key c < key d) :=
    pairwise_cons.mpr ⟨hhigh, h.filter _⟩
  refine ⟨_, _, ?_, ?_, hlow, hhigh⟩
  · refine eq_of_ascending h (pairwise_append.mpr ⟨h.filter _, h.filter _, ?_⟩) fun d => ?_
    · exact fun a ha b hb => (hlow a ha).trans (hhigh b hb)
    · rw [mem_append, hsides]
  · refine eq_of_ascending h' (pairwise_append.mpr ⟨h.filter _, habove, ?_⟩) fun d => ?_
    · intro a ha b hb
      rcases mem_cons.mp hb with rfl | hb
      · exact hlow a ha
      · exact (hlow a ha).trans (hhigh b hb)
    · rw [hmem, hsides, mem_append, mem_cons, or_left_comm]

lemma getElem?_insert (hkey : Function.Injective key) (h : Ascending key l) (hc : c ∉ l)
    (h' : Ascending key l') (hmem : ∀ d, d ∈ l' ↔ d = c ∨ d ∈ l) {i : ℕ} {x : κ}
    (hx : l'[i]? = some x) :
    l[i]? = some x ∨ ((x = c ∨ x ∈ l ∧ key c < key x) ∧
      ∀ y, l[i]? = some y → key c < key y ∧ key x < key y) := by
  obtain ⟨below, above, rfl, rfl, -, habove⟩ := exists_split hkey h hc h' hmem
  rcases Nat.lt_or_ge i below.length with hi | hi
  · rw [getElem?_append_left hi] at hx ⊢
    exact .inl hx
  · rw [getElem?_append_right hi] at hx ⊢
    right
    generalize i - below.length = k at hx ⊢
    rcases k with _ | k
    · have hxc : c = x := Option.some.inj hx
      subst hxc
      refine ⟨.inl rfl, fun y hy => ?_⟩
      have hcy := habove y (mem_of_getElem? hy)
      exact ⟨hcy, hcy⟩
    · rw [getElem?_cons_succ] at hx
      have hxmem := mem_of_getElem? hx
      refine ⟨.inr ⟨mem_append_right _ hxmem, habove x hxmem⟩, fun y hy => ?_⟩
      obtain ⟨hk, rfl⟩ := getElem?_eq_some_iff.mp hx
      obtain ⟨hk', rfl⟩ := getElem?_eq_some_iff.mp hy
      have hasc : Ascending key above := (pairwise_append.mp h).2.1
      exact ⟨habove _ (getElem_mem hk'),
        pairwise_iff_getElem.mp hasc k (k + 1) hk hk' (Nat.lt_succ_self k)⟩

end Wtg.Lib.Ranked
