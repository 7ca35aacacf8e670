import Mathlib.Logic.Function.Basic
import Mathlib.Data.Int.Order.Basic

/-! # A key-value store whose keys expire

A store maps a key to a value and the time at which the key vanishes, if it has one. -/

namespace Wtg.Lib

open Function

def TtlStore (κ ν : Type*) := κ → Option (ν × Option ℤ)

namespace TtlStore

variable {κ ν : Type*} (s : TtlStore κ ν)

def empty : TtlStore κ ν := fun _ => none

/-- An entry with this expiry is still seen at `now`. -/
def alive (now : ℤ) : Option ℤ → Bool
  | none => true
  | some e => decide (now < e)

def get (now : ℤ) (k : κ) : Option ν :=
  match s k with
  | some (v, e) => if alive now e then some v else none
  | none => none

variable {s} {k : κ} {now : ℤ} {v : ν}

lemma get_eq_some : s.get now k = some v ↔ ∃ e, s k = some (v, e) ∧ alive now e = true := by
  unfold get
  rcases h : s k with _ | ⟨w, e⟩
  · simp
  · simp only
    split_ifs with ha
    · constructor
      · rintro ⟨⟩; exact ⟨e, rfl, ha⟩
      · rintro ⟨e', ⟨⟩, -⟩; rfl
    · constructor
      · intro h; cases h
      · rintro ⟨e', ⟨⟩, ha'⟩; exact absurd ha' ha

lemma get_of_entry {e : ℤ} (h : s k = some (v, some e)) (ha : now < e) : s.get now k = some v :=
  get_eq_some.mpr ⟨_, h, by simpa [alive] using ha⟩

lemma get_of_expired {e : ℤ} (h : s k = some (v, some e)) (ha : e ≤ now) :
    s.get now k = none := by
  unfold get
  rw [h]
  simp [alive, not_lt.mpr ha]

lemma get_of_none (h : s k = none) : s.get now k = none := by
  unfold get; rw [h]

lemma get_of_later {now now' : ℤ} (hle : now ≤ now') (h : s.get now' k = some v) :
    s.get now k = some v := by
  obtain ⟨e, he, ha⟩ := get_eq_some.mp h
  refine get_eq_some.mpr ⟨e, he, ?_⟩
  rcases e with _ | e
  · rfl
  · simp only [alive, decide_eq_true_eq] at ha ⊢
    omega

variable {t : TtlStore κ ν}

lemma get_congr (h : s k = t k) (now : ℤ) : s.get now k = t.get now k := by
  unfold get; rw [h]

variable [DecidableEq κ] (s)

def set (k : κ) (v : ν) (e : Option ℤ) : TtlStore κ ν := Function.update s k (some (v, e))

/-- `SET … NX` at `now`: sets the key if it is absent, and says whether it did. -/
def setNX (now : ℤ) (k : κ) (v : ν) (e : Option ℤ) : TtlStore κ ν × Bool :=
  match s.get now k with
  | some _ => (s, false)
  | none => (s.set k v e, true)

/-- `PEXPIRE` at `now`: a key that is there vanishes at `e`. -/
def pexpire (now : ℤ) (k : κ) (e : ℤ) : TtlStore κ ν :=
  match s.get now k with
  | some v => s.set k v (some e)
  | none => s

def del (k : κ) : TtlStore κ ν := Function.update s k none

@[simp] lemma set_self (k : κ) (v : ν) (e : Option ℤ) : s.set k v e k = some (v, e) :=
  update_self ..

variable {k k' : κ}

@[simp] lemma set_ne (h : k' ≠ k) (v : ν) (e : Option ℤ) : s.set k v e k' = s k' :=
  update_of_ne h ..

lemma pexpire_ne (h : k' ≠ k) (now e : ℤ) : s.pexpire now k e k' = s k' := by
  unfold pexpire
  rcases s.get now k with _ | v
  · rfl
  · exact set_ne s h v (some e)

lemma pexpire_congr (h : s k = t k) (now e : ℤ) :
    s.pexpire now k e k = t.pexpire now k e k := by
  unfold pexpire
  rw [get_congr h now]
  rcases t.get now k with _ | v
  · exact h
  · exact (set_self ..).trans (set_self ..).symm

@[simp] lemma del_self (k : κ) : s.del k k = none := update_self ..

@[simp] lemma del_ne (h : k' ≠ k) : s.del k k' = s k' := update_of_ne h ..

end TtlStore

end Wtg.Lib
