import Mathlib.Data.List.Induction

/-! # Logs of keyed updates

A message sets or clears the value of one key. `replay` is what a list of messages makes of an empty
map, and `latest` the last message of a list for a key. -/

namespace Wtg.Lib.KeyedLog

open List Function

variable {μ κ ν : Type*} [DecidableEq κ] (key : μ → κ) (val : μ → Option ν)

def latest (k : κ) (l : List μ) : Option μ := (l.filter fun m => key m = k).getLast?

/-- What the messages make of an empty map. -/
def replay (l : List μ) : κ → Option ν :=
  l.foldl (fun map m => Function.update map (key m) (val m)) fun _ => none

variable {key val}

@[simp] lemma latest_nil (k : κ) : latest key k [] = none := rfl

variable {k : κ} {m : μ}

lemma latest_append_self (h : key m = k) (l : List μ) : latest key k (l ++ [m]) = some m := by
  simp [latest, filter_append, h]

lemma latest_append_of_ne (h : key m ≠ k) (l : List μ) :
    latest key k (l ++ [m]) = latest key k l := by
  simp [latest, filter_append, h]

lemma latest_concat (m : μ) (l : List μ) : (fun k => latest key k (l ++ [m])) =
    update (fun k => latest key k l) (key m) (some m) := by
  funext k
  by_cases h : key m = k
  · rw [latest_append_self h, ← h, update_self]
  · rw [latest_append_of_ne h, update_of_ne (Ne.symm h)]

lemma latest_append (k : κ) (l l' : List μ) :
    latest key k (l ++ l') = (latest key k l').or (latest key k l) := by
  rw [latest, filter_append, getLast?_append, latest, latest]

lemma latest_cons_of_some {l : List μ} (h : latest key k l = some m) (x : μ) :
    latest key k (x :: l) = some m := by
  unfold latest at h ⊢
  rw [filter_cons]
  split
  · rw [getLast?_cons, h]
    rfl
  · exact h

lemma latest_cons_self {l : List μ} (h : latest key k l = none) {x : μ} (hx : key x = k) :
    latest key k (x :: l) = some x := by
  unfold latest at h ⊢
  rw [filter_cons, if_pos (by simpa using hx), getLast?_eq_none_iff.mp h]
  rfl

lemma latest_cons_of_ne {x : μ} (hx : key x ≠ k) (l : List μ) :
    latest key k (x :: l) = latest key k l := by
  simp [latest, hx]

/-- A message that is the only one of its key. -/
lemma latest_eq_of_mem_iff {l : List μ} {o : Option μ}
    (h : ∀ m, m ∈ l.filter (fun m => key m = k) ↔ o = some m) : latest key k l = o := by
  unfold latest
  rcases hlast : (l.filter fun m => key m = k).getLast? with _ | m
  · rw [getLast?_eq_none_iff.mp hlast] at h
    exact (Option.eq_none_iff_forall_ne_some.mpr fun m hm => not_mem_nil ((h m).mpr hm)).symm
  · exact ((h m).mp (mem_of_getLast? hlast)).symm

lemma replay_append_self (h : key m = k) (l : List μ) : replay key val (l ++ [m]) k = val m := by
  unfold replay
  rw [foldl_append, foldl_cons, foldl_nil, ← h, update_self]

lemma replay_append_of_ne (h : key m ≠ k) (l : List μ) :
    replay key val (l ++ [m]) k = replay key val l k := by
  unfold replay
  rw [foldl_append, foldl_cons, foldl_nil, update_of_ne (Ne.symm h)]

end Wtg.Lib.KeyedLog
