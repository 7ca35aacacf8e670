import Wtg.Lib.TtlStore

/-! # Sets in a store whose keys expire

The set commands of a store with expiring keys. -/

namespace Wtg.Lib.TtlStore

open List

variable {κ α : Type*} (s : TtlStore κ (List α))

def smembers (now : ℤ) (k : κ) : List α := (s.get now k).getD []

/-- The members of a key, whether it has vanished or not. -/
def listed (k : κ) : List α := ((s k).map Prod.fst).getD []

variable [DecidableEq κ] [DecidableEq α]

def sadd (now : ℤ) (k : κ) (x : α) : TtlStore κ (List α) :=
  match s k with
  | some (l, e) => if alive now e then s.set k (l.insert x) e else s.set k [x] none
  | none => s.set k [x] none

def srem (now : ℤ) (k : κ) (x : α) : TtlStore κ (List α) :=
  match s k with
  | some (l, e) =>
    if alive now e then
      if (l.filter (· ≠ x)).isEmpty then s.del k else s.set k (l.filter (· ≠ x)) e
    else s
  | none => s

variable {s}

omit [DecidableEq κ] [DecidableEq α] in
lemma smembers_eq_listed {now : ℤ} {k : κ} {l : List α} (h : s.get now k = some l) :
    s.smembers now k = s.listed k := by
  obtain ⟨e, he, -⟩ := get_eq_some.mp h
  rw [smembers, h, listed, he]
  rfl

omit [DecidableEq κ] [DecidableEq α] in
lemma listed_congr {t : TtlStore κ (List α)} {k : κ} (h : s k = t k) :
    s.listed k = t.listed k := by
  unfold listed
  rw [h]

lemma sadd_ne {k k' : κ} (h : k' ≠ k) (now : ℤ) (x : α) : s.sadd now k x k' = s k' := by
  unfold sadd
  rcases s k with _ | ⟨l, e⟩
  · exact set_ne s h ..
  · dsimp only
    split_ifs <;> exact set_ne s h ..

lemma srem_ne {k k' : κ} (h : k' ≠ k) (now : ℤ) (x : α) : s.srem now k x k' = s k' := by
  unfold srem
  rcases s k with _ | ⟨l, e⟩
  · rfl
  · dsimp only
    split_ifs
    · exact del_ne s h
    · exact set_ne s h ..
    · rfl

lemma get_sadd (now : ℤ) (k : κ) (x : α) :
    ∃ l, (s.sadd now k x).get now k = some l ∧ ∀ y, y ∈ l ↔ y = x ∨ y ∈ s.smembers now k := by
  unfold sadd smembers
  rcases hk : s k with _ | ⟨l, e⟩
  · refine ⟨[x], get_eq_some.mpr ⟨none, set_self .., rfl⟩, fun y => ?_⟩
    rw [get_of_none hk]
    simp
  · dsimp only
    split_ifs with ha
    · refine ⟨l.insert x, get_eq_some.mpr ⟨e, set_self .., ha⟩, fun y => ?_⟩
      rw [get_eq_some.mpr ⟨e, hk, ha⟩]
      exact mem_insert_iff
    · refine ⟨[x], get_eq_some.mpr ⟨none, set_self .., rfl⟩, fun y => ?_⟩
      have hnone : s.get now k = none := by
        unfold get
        rw [hk]
        exact if_neg ha
      rw [hnone]
      simp

lemma mem_listed_sadd_pexpire (now : ℤ) (k : κ) (x y : α) (e : ℤ) :
    y ∈ ((s.sadd now k x).pexpire now k e).listed k ↔ y = x ∨ y ∈ s.smembers now k := by
  obtain ⟨l, hl, hmem⟩ := get_sadd (s := s) now k x
  rw [← hmem, listed, pexpire, hl]
  simp

lemma mem_listed_srem {now : ℤ} {k : κ} {x y : α} (hy : y ∈ s.listed k) (hne : y ≠ x) :
    y ∈ (s.srem now k x).listed k := by
  unfold srem
  rcases hk : s k with _ | ⟨l, e⟩
  · exact hy
  · have hmem : y ∈ l.filter (· ≠ x) := by
      rw [listed, hk] at hy
      exact mem_filter.mpr ⟨hy, by simpa using hne⟩
    dsimp only
    split_ifs with ha hempty
    · rw [isEmpty_iff.mp hempty] at hmem
      exact absurd hmem not_mem_nil
    · rw [listed, set_self]
      exact hmem
    · exact hy

variable {ν : Type*}

def delAll (t : TtlStore κ ν) (ks : List κ) : TtlStore κ ν := ks.foldl (fun t k => t.del k) t

omit [DecidableEq α] in
lemma delAll_eq {k : κ} : ∀ (ks : List κ) (t : TtlStore κ ν),
    delAll t ks k = if k ∈ ks then none else t k
  | [], t => (if_neg not_mem_nil).symm
  | k' :: ks, t => by
    have ih := delAll_eq (k := k) ks (t.del k')
    show delAll (t.del k') ks k = _
    rw [ih]
    by_cases hk : k = k'
    · subst hk
      simp
    · simp [hk]

end Wtg.Lib.TtlStore
