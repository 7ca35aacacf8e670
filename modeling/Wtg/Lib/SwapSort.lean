import Mathlib.Data.List.Induction
import Mathlib.Data.List.Sort
import Mathlib.Data.List.TakeWhile

/-! # Insertion sort by swaps

The loop that takes the elements in turn and swaps each one leftwards past the elements it must not
follow. -/

namespace Wtg.Lib.SwapSort

open List Option

variable {α : Type*} (r : α → α → Prop) [DecidableRel r]

def swapSort (l : List α) : List α := (l.foldl (fun done x => done.orderedInsert r x) []).reverse

lemma swapSort_eq (l : List α) : swapSort r l = (l.reverse.insertionSort r).reverse := by
  rw [swapSort, ← List.foldr_reverse]
  rfl

lemma perm_swapSort (l : List α) : swapSort r l ~ l := by
  rw [swapSort_eq]
  exact (reverse_perm _).trans ((perm_insertionSort r _).trans (reverse_perm l))

lemma pairwise_swapSort [Std.Total r] [IsTrans α r] (l : List α) :
    (swapSort r l).Pairwise fun a b => r b a := by
  rw [swapSort_eq, pairwise_reverse]
  exact pairwise_insertionSort r _

lemma swapSort_perm [Std.Total r] [IsTrans α r] {l l' : List α} (h : l ~ l')
    (hanti : ∀ a ∈ l, ∀ b ∈ l, r a b → r b a → a = b) : swapSort r l = swapSort r l' := by
  have hmem : ∀ {a}, a ∈ swapSort r l → a ∈ l := fun h => (perm_swapSort r l).mem_iff.mp h
  have hmem' : ∀ {a}, a ∈ swapSort r l' → a ∈ l := fun h' =>
    h.mem_iff.mpr ((perm_swapSort r l').mem_iff.mp h')
  refine Perm.eq_of_pairwise (fun a b ha hb hab hba => ?_) (pairwise_swapSort r l)
    (pairwise_swapSort r l') ?_
  · exact hanti a (hmem ha) b (hmem' hb) hba hab
  · exact (perm_swapSort r l).trans (h.trans (perm_swapSort r l').symm)

/-! ## The first of the best -/

variable {r} {p : α → Bool}

lemma swapSort_concat (l : List α) (x : α) :
    swapSort r (l ++ [x]) = ((swapSort r l).reverse.orderedInsert r x).reverse := by
  rw [swapSort, swapSort, foldl_append, reverse_reverse]
  rfl

lemma find_swapSort_concat [Std.Total r] [IsTrans α r] (l : List α) (x : α) :
    (swapSort r (l ++ [x])).find? p =
      match (swapSort r l).find? p with
      | some a => if p x = true ∧ ¬ r x a then some x else some a
      | none => if p x = true then some x else none := by
  rw [swapSort_concat, orderedInsert_eq_take_drop, reverse_append, reverse_cons, append_assoc]
  -- the part `x` stays behind and the part it passes
  generalize hstay : ((swapSort r l).reverse.dropWhile fun b => ¬ r x b).reverse = stay
  generalize hpass : ((swapSort r l).reverse.takeWhile fun b => ¬ r x b).reverse = pass
  have hsplit : swapSort r l = stay ++ pass := by
    rw [← hstay, ← hpass, ← reverse_append, takeWhile_append_dropWhile, reverse_reverse]
  have hpassed : ∀ b ∈ pass, ¬ r x b := by
    intro b hb
    rw [← hpass, mem_reverse] at hb
    simpa using mem_takeWhile_imp hb
  have hstayed : ∀ b ∈ stay, r x b := by
    have hsorted := pairwise_swapSort r l
    rw [hsplit, pairwise_append] at hsorted
    intro b hb
    rcases eq_nil_or_concat' stay with rfl | ⟨front, y, rfl⟩
    · exact absurd hb (by simp)
    have hy : r x y := by
      have h := head?_dropWhile_not (fun b => decide (¬ r x b)) (swapSort r l).reverse
      rw [← reverse_reverse (dropWhile _ _), hstay, head?_reverse, getLast?_concat] at h
      simpa using h
    rcases mem_append.mp hb with hb | hb
    · exact IsTrans.trans x y b hy ((pairwise_append.mp hsorted.1).2.2 b hb y mem_cons_self)
    · rw [mem_singleton.mp hb]
      exact hy
  rw [hsplit, find?_append, find?_append, find?_append]
  rcases ha : stay.find? p with _ | a
  · rcases hb : pass.find? p with _ | b
    · by_cases hx : p x = true <;> simp [hx]
    · have hnot := hpassed b (mem_of_find?_eq_some hb)
      by_cases hx : p x = true <;> simp [hx, hnot]
  · have hra := hstayed a (mem_of_find?_eq_some ha)
    simp [hra]

variable (r p) in
/-- `a` is the first of the best matches in `l`: it may follow no match before it, and every match
after it may follow it. -/
def FirstBest (l : List α) (a : α) : Prop :=
  ∃ before after, l = before ++ a :: after ∧ p a = true ∧
    (∀ b ∈ before, p b = true → ¬ r a b) ∧ ∀ b ∈ after, p b = true → r b a

variable {l : List α}

omit [DecidableRel r] in
lemma FirstBest.unique {a a' : α} (h : FirstBest r p l a) (h' : FirstBest r p l a') : a = a' := by
  -- of two places the one further left would be both before the other and not before it
  have hleft : ∀ {a a' : α} {before after before' after' c : List α},
      before' = before ++ c → a :: after = c ++ a' :: after' → p a = true → p a' = true →
      (∀ b ∈ before', p b = true → ¬ r a' b) → (∀ b ∈ after, p b = true → r b a) → a = a' := by
    intro a a' before after before' after' c hbefore hafter ha ha' hnot hr
    rcases c with _ | ⟨y, c⟩
    · exact (cons_eq_cons.mp hafter).1
    obtain ⟨rfl, rfl⟩ := cons_eq_cons.mp hafter
    have hmem : a ∈ before' := hbefore ▸ mem_append_right _ mem_cons_self
    exact absurd (hr a' (mem_append_right _ mem_cons_self) ha') (hnot a hmem ha)
  obtain ⟨before, after, rfl, ha, hnot, hr⟩ := h
  obtain ⟨before', after', heq, ha', hnot', hr'⟩ := h'
  rcases append_eq_append_iff.mp heq with ⟨c, hc, hc'⟩ | ⟨c, hc, hc'⟩
  · exact hleft hc hc' ha ha' hnot' hr
  · exact (hleft hc hc' ha' ha hnot hr').symm

omit [DecidableRel r] in
lemma FirstBest.best [Std.Total r] {a : α} (h : FirstBest r p l a) :
    ∀ b ∈ l, p b = true → r b a := by
  obtain ⟨before, after, rfl, -, hnot, hr⟩ := h
  intro b hb hpb
  rcases mem_append.mp hb with hb | hb
  · exact (Std.Total.total b a).resolve_right (hnot b hb hpb)
  rcases mem_cons.mp hb with rfl | hb
  · exact (Std.Total.total b b).elim id id
  · exact hr b hb hpb

lemma find_swapSort_firstBest [Std.Total r] [IsTrans α r] (l : List α) :
    ∀ a, (swapSort r l).find? p = some a → FirstBest r p l a := by
  induction l using reverseRecOn with
  | nil => exact fun a h => absurd h (by simp [swapSort])
  | append_singleton l x ih =>
    intro a h
    rw [find_swapSort_concat] at h
    rcases hfind : (swapSort r l).find? p with _ | a₀
    · rw [hfind] at h
      have hnone : ∀ b ∈ l, ¬ p b = true := fun b hb =>
        find?_eq_none.mp hfind b ((perm_swapSort r l).mem_iff.mpr hb)
      dsimp only at h
      split_ifs at h with hx
      obtain rfl := some.inj h
      exact ⟨l, [], rfl, hx, fun b hb hpb => absurd hpb (hnone b hb), by simp⟩
    · have hbest := ih a₀ hfind
      rw [hfind] at h
      dsimp only at h
      split_ifs at h with hx
      · obtain rfl := some.inj h
        refine ⟨l, [], rfl, hx.1, fun b hb hpb hxb => hx.2 ?_, by simp⟩
        exact IsTrans.trans x b a₀ hxb (hbest.best b hb hpb)
      · obtain rfl := some.inj h
        obtain ⟨before, after, rfl, ha, hnot, hr⟩ := hbest
        refine ⟨before, after ++ [x], by simp, ha, hnot, fun b hb hpb => ?_⟩
        rcases mem_append.mp hb with hb | hb
        · exact hr b hb hpb
        · rw [mem_singleton.mp hb] at hpb ⊢
          exact not_not.mp fun hxa => hx ⟨hpb, hxa⟩

lemma find_swapSort_iff [Std.Total r] [IsTrans α r] {a : α} :
    (swapSort r l).find? p = some a ↔ FirstBest r p l a := by
  refine ⟨find_swapSort_firstBest l a, fun h => ?_⟩
  obtain ⟨before, after, hl, ha, -⟩ := id h
  have hsome : ((swapSort r l).find? p).isSome := by
    refine find?_isSome.mpr ⟨a, (perm_swapSort r l).mem_iff.mpr ?_, ha⟩
    rw [hl]
    exact mem_append_right _ mem_cons_self
  obtain ⟨a', ha'⟩ := isSome_iff_exists.mp hsome
  rw [ha', (find_swapSort_firstBest l a' ha').unique h]

lemma firstBest_map {β : Type*} {r : β → β → Prop} {p : β → Bool} {f : α → β} {b : β} :
    FirstBest r p (l.map f) b ↔
      ∃ a, b = f a ∧ FirstBest (fun x y => r (f x) (f y)) (fun x => p (f x)) l a := by
  constructor
  · rintro ⟨before, after, hl, hp, hnot, hr⟩
    obtain ⟨l₁, l₂, rfl, rfl, hl₂⟩ := map_eq_append_iff.mp hl
    obtain ⟨a, l₃, rfl, rfl, rfl⟩ := map_eq_cons_iff.mp hl₂
    exact ⟨a, rfl, l₁, l₃, rfl, hp, fun x hx => hnot (f x) (mem_map_of_mem hx),
      fun x hx => hr (f x) (mem_map_of_mem hx)⟩
  · rintro ⟨a, rfl, before, after, rfl, hp, hnot, hr⟩
    refine ⟨before.map f, after.map f, by simp, hp, ?_, ?_⟩
    · rintro _ hb hpb
      obtain ⟨x, hx, rfl⟩ := mem_map.mp hb
      exact hnot x hx hpb
    · rintro _ hb hpb
      obtain ⟨x, hx, rfl⟩ := mem_map.mp hb
      exact hr x hx hpb

end Wtg.Lib.SwapSort
