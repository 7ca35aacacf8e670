import Wtg.Lib.Memory

/-! # Records in the slots of a table

A table in memory has slots of equal length, one after the other. -/

namespace Wtg.Lib.SlotTable

open Lib.Buffer Lib.Memory Option Function

/-- The part of a slot that holds a record. -/
structure Area (ρ : Type*) where
  base : ℕ
  stride : ℕ
  off : ℕ
  size : ℕ
  /-- The records that fill the area. -/
  Valid : ρ → Prop
  writes : ρ → List (ℕ × Bytes)
  shape_eq : ∀ {r r'}, Valid r → Valid r' → shape (writes r) = shape (writes r')
  within : ∀ r, Within 0 size (writes r)
  fits : off + size ≤ stride

namespace Area

variable {ρ κ : Type*} (A : Area ρ)

def addr (i : ℕ) : ℕ := A.base + i * A.stride + A.off

def write (m : Mem) (i : ℕ) (r : ρ) : Mem := pokes m (shift (A.addr i) (A.writes r))

/-- The bytes of an area that holds a record. -/
def image (r : ρ) : Mem := pokes blank (A.writes r)

/-- The bytes of an area that holds a record or nothing. -/
def imageOf (o : Option ρ) : Mem := o.elim blank A.image

/-- Every slot shows what its owner is labelled with. -/
def Shows (m : Mem) (owners : List κ) (label : κ → Option ρ) : Prop :=
  ∀ i a, a < A.size → m (A.addr i + a) = A.imageOf (owners[i]?.bind label) a

variable {A} {m m' : Mem} {owners owners' : List κ} {label label' : κ → Option ρ} {r : ρ}
  {i j a : ℕ}

lemma addr_outside (hij : i ≠ j) (ha : a < A.size) :
    A.addr j + a < A.addr i ∨ A.addr i + A.size ≤ A.addr j + a := by
  have hfits := A.fits
  unfold addr
  rcases Nat.lt_or_gt_of_ne hij with h | h
  · have hstep : i * A.stride + A.stride ≤ j * A.stride := by
      rw [← Nat.succ_mul]
      exact Nat.mul_le_mul_right _ h
    omega
  · have hstep : j * A.stride + A.stride ≤ i * A.stride := by
      rw [← Nat.succ_mul]
      exact Nat.mul_le_mul_right _ h
    omega

lemma write_of_outside {x : ℕ} (h : x < A.addr i ∨ A.addr i + A.size ≤ x) :
    A.write m i r x = m x := by
  have hwithin := (A.within r).shift (A.addr i)
  rw [Nat.add_zero] at hwithin
  exact pokes_of_outside hwithin h

lemma write_inside (hr : A.Valid r) {o : Option ρ} (ho : ∀ s, o = some s → A.Valid s)
    (h : m (A.addr i + a) = A.imageOf o a) : A.write m i r (A.addr i + a) = A.image r a := by
  have hview : A.write m i r (A.addr i + a) = pokes (view m (A.addr i)) (A.writes r) a :=
    congrFun view_pokes_shift a
  rw [hview, pokes_congr (show view m (A.addr i) a = A.imageOf o a from h)]
  rcases o with _ | s
  · rfl
  · exact congrFun (pokes_pokes (A.shape_eq hr (ho s rfl))) a

namespace Shows

lemma congr (h : A.Shows m owners label)
    (heq : ∀ i a, a < A.size → m' (A.addr i + a) = m (A.addr i + a)) :
    A.Shows m' owners label := by
  intro i a ha
  rw [heq i a ha, h i a ha]

lemma relabel (h : A.Shows m owners label)
    (heq : ∀ i : ℕ, owners'[i]?.bind label' = owners[i]?.bind label) : A.Shows m owners' label' := by
  intro i a ha
  rw [heq i, h i a ha]

lemma write [DecidableEq κ] (h : A.Shows m owners label) (hnodup : owners.Nodup) {c : κ}
    (hc : owners[i]? = some c) (hr : A.Valid r) (hlabel : ∀ s, label c = some s → A.Valid s) :
    A.Shows (A.write m i r) owners (update label c (some r)) := by
  intro j a ha
  by_cases hij : i = j
  · subst hij
    have hold := h i a ha
    rw [hc, bind_some] at hold ⊢
    rw [update_self, write_inside hr hlabel hold]
    rfl
  · rw [write_of_outside (addr_outside hij ha), h j a ha]
    rcases hd : owners[j]? with _ | d
    · rfl
    · have hne : d ≠ c := by
        rintro rfl
        exact hij ((List.getElem?_inj (List.getElem?_eq_some_iff.mp hc).1 hnodup).mp
          (hc.trans hd.symm))
      rw [bind_some, bind_some, update_of_ne hne]

end Shows

end Area

end Wtg.Lib.SlotTable
