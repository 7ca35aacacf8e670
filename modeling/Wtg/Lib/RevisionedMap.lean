import Wtg.Lib.Follower
import Wtg.Lib.GoMap

/-! # A map with revisions

A map whose store numbers its writes: the entries it had at first and the events since, in the order
of their revisions. An event sets a key or deletes it. -/

namespace Wtg.Lib

open Follower

/-- The first entries and the events since; `none` is a deletion. -/
structure RevisionedMap (κ ν : Type*) where
  first : GoMap κ ν
  events : List (κ × Option ν)

namespace RevisionedMap

variable {κ ν : Type*} [DecidableEq κ]

def revision (m : RevisionedMap κ ν) : ℕ := m.events.length

def applyEvent (entries : GoMap κ ν) (e : κ × Option ν) : GoMap κ ν :=
  match e.2 with
  | some v => entries.insert e.1 v
  | none => entries.erase e.1

def contents (m : RevisionedMap κ ν) : GoMap κ ν := m.events.foldl applyEvent m.first

def put (m : RevisionedMap κ ν) (k : κ) (v : ν) : RevisionedMap κ ν :=
  ⟨m.first, m.events ++ [(k, some v)]⟩

/-- A deletion makes an event if there is something to delete. -/
def delete (m : RevisionedMap κ ν) (k : κ) : RevisionedMap κ ν :=
  if (m.contents.lookup k).isSome then ⟨m.first, m.events ++ [(k, none)]⟩ else m

def ofKey (k : κ) (e : κ × Option ν) : Option (Option ν) := if e.1 = k then some e.2 else none

lemma lookup_applyEvent (entries : GoMap κ ν) (e : κ × Option ν) (k : κ) :
    (applyEvent entries e).lookup k = (ofKey k e).getD (entries.lookup k) := by
  obtain ⟨k', _ | v⟩ := e
  · by_cases hk : k' = k
    · subst hk; simp [applyEvent, ofKey]
    · simp [applyEvent, ofKey, hk, AList.lookup_erase_ne (Ne.symm hk)]
  · by_cases hk : k' = k
    · subst hk; simp [applyEvent, ofKey]
    · simp [applyEvent, ofKey, hk, AList.lookup_insert_ne (Ne.symm hk)]

lemma lookup_contents (m : RevisionedMap κ ν) (k : κ) :
    m.contents.lookup k = settle (ofKey k) (m.first.lookup k) m.events :=
  view_foldl m.first fun e _ entries => lookup_applyEvent entries e k

lemma delete_cases (m : RevisionedMap κ ν) (k : κ) :
    m.delete k = ⟨m.first, m.events ++ [(k, none)]⟩ ∨
      m.contents.lookup k = none ∧ m.delete k = m := by
  unfold delete
  split_ifs with h
  · exact .inl rfl
  · exact .inr ⟨by simpa using h, rfl⟩

end RevisionedMap

end Wtg.Lib
