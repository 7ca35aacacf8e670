import Mathlib

/-! # Header fields

A header is a list of fields, names with values, in which a name may occur any number of times and
in any letter case. Only all of Mathlib brings in the lemmas of Batteries on the case of letters. -/

namespace Wtg.Lib.Headers

def tokenChar (c : Char) : Bool := c.isAlphanum || "!#$%&'*+-.^_`|~".toList.contains c

/-- The letters in canonical case, the first one a capital if `upper`. -/
def capitals : Bool → List Char → List Char
  | _, [] => []
  | upper, c :: cs =>
    (if upper then c.toUpper else c.toLower) ::
      capitals ((if upper then c.toUpper else c.toLower) == '-') cs

def canonical (name : String) : String :=
  if name.toList.all tokenChar then String.ofList (capitals true name.toList) else name

lemma capitals_capitals : ∀ (upper : Bool) (cs : List Char),
    capitals upper (capitals upper cs) = capitals upper cs
  | _, [] => rfl
  | true, c :: cs => by simp [capitals, capitals_capitals _ cs]
  | false, c :: cs => by simp [capitals, capitals_capitals _ cs]

lemma tokenChar_case {c : Char} (h : tokenChar c = true) (upper : Bool) :
    tokenChar (if upper then c.toUpper else c.toLower) = true := by
  by_cases halpha : c.isAlpha
  · cases upper <;> simp [tokenChar, Char.isAlphanum, halpha]
  · -- a character that is not a letter has one case
    have hupper : c.isUpper = false := by simp_all [Char.isAlpha]
    have hlower : c.isLower = false := by simp_all [Char.isAlpha]
    have hu : c.toUpper = c := Char.toUpper_eq_of_not_isLower (by simp [hlower])
    have hl : c.toLower = c := Char.toLower_eq_of_not_isUpper (by simp [hupper])
    cases upper
    · simpa [hl] using h
    · simpa [hu] using h

lemma all_tokenChar_capitals : ∀ {upper : Bool} {cs : List Char}, cs.all tokenChar = true →
    (capitals upper cs).all tokenChar = true
  | _, [], _ => rfl
  | upper, c :: cs, h => by
    rw [List.all_cons, Bool.and_eq_true] at h
    rw [capitals, List.all_cons, Bool.and_eq_true]
    exact ⟨tokenChar_case h.1 upper, all_tokenChar_capitals h.2⟩

@[simp] lemma canonical_canonical (name : String) :
    canonical (canonical name) = canonical name := by
  unfold canonical
  by_cases h : name.toList.all tokenChar = true
  · rw [if_pos h, String.toList_ofList, if_pos (all_tokenChar_capitals h), capitals_capitals]
  · rw [if_neg h, if_neg h]

end Wtg.Lib.Headers

namespace Wtg.Lib

abbrev Headers := List (String × String)

namespace Headers

variable (h : Headers) (name : String)

/-- The header as a receiver reads it. -/
def read : Headers := h.map fun f => (canonical f.1, f.2)

/-- The first value under a name, empty if there is none. -/
def get : String := ((h.find? fun f => f.1 = canonical name).map Prod.snd).getD ""

def values : List String := (h.filter fun f => f.1 = canonical name).map Prod.snd

def del : Headers := h.filter fun f => f.1 ≠ canonical name

def set (value : String) : Headers := h.del name ++ [(canonical name, value)]

def delAll (names : List String) : Headers := names.foldl del h

variable {h name}

def IsCanonical (h : Headers) : Prop := ∀ f ∈ h, canonical f.1 = f.1

lemma isCanonical_read (h : Headers) : h.read.IsCanonical := by
  intro f hf
  obtain ⟨f', -, rfl⟩ := List.mem_map.mp hf
  exact canonical_canonical f'.1

lemma read_eq_self (hc : h.IsCanonical) : h.read = h := by
  have hmap : h.map (fun f => (canonical f.1, f.2)) = h.map id :=
    List.map_congr_left fun f hf => Prod.ext (hc f hf) rfl
  exact hmap.trans (List.map_id h)

lemma IsCanonical.del (hc : h.IsCanonical) (name : String) : (h.del name).IsCanonical :=
  fun f hf => hc f (List.mem_of_mem_filter hf)

lemma IsCanonical.set (hc : h.IsCanonical) (name value : String) :
    (h.set name value).IsCanonical := by
  intro f hf
  rcases List.mem_append.mp hf with hf | hf
  · exact hc.del name f hf
  · rw [List.mem_singleton.mp hf]
    exact canonical_canonical name

lemma IsCanonical.delAll (hc : h.IsCanonical) (names : List String) :
    (h.delAll names).IsCanonical := by
  induction names generalizing h with
  | nil => exact hc
  | cons name names ih => exact ih (hc.del name)

lemma get_eq_empty (hnone : ∀ f ∈ h, f.1 ≠ canonical name) : h.get name = "" := by
  have hfind : h.find? (fun f => f.1 = canonical name) = none := by
    rw [List.find?_eq_none]
    intro f hf
    simpa using hnone f hf
  rw [get, hfind]
  rfl

lemma get_del_self (h : Headers) (name : String) : (h.del name).get name = "" := by
  refine get_eq_empty fun f hf => ?_
  simpa using (List.mem_filter.mp hf).2

lemma get_del_of_ne {name' : String} (hne : canonical name' ≠ canonical name) :
    (h.del name).get name' = h.get name' := by
  have hsame : ∀ f : String × String,
      decide (decide (f.1 ≠ canonical name) = true ∧ decide (f.1 = canonical name') = true) =
        decide (f.1 = canonical name') := by
    intro f
    by_cases hf : f.1 = canonical name'
    · simp [hf, hne]
    · simp [hf]
  unfold get del
  rw [List.find?_filter, funext hsame]

lemma get_set_self (h : Headers) (name value : String) : (h.set name value).get name = value := by
  have hnone : (h.del name).find? (fun f => f.1 = canonical name) = none := by
    rw [List.find?_eq_none]
    intro f hf
    simpa using (List.mem_filter.mp hf).2
  unfold set get
  rw [List.find?_append, hnone]
  simp

lemma get_set_of_ne {name' value : String} (hne : canonical name' ≠ canonical name) :
    (h.set name value).get name' = h.get name' := by
  have hlast : [(canonical name, value)].find? (fun f => f.1 = canonical name') = none := by
    simpa using hne.symm
  have hdel := get_del_of_ne (h := h) hne
  unfold get at hdel
  rw [set, get, List.find?_append, hlast, Option.or_none, hdel, get]

lemma get_del (h : Headers) (name name' : String) :
    (h.del name).get name' = h.get name' ∨ (h.del name).get name' = "" := by
  by_cases heq : canonical name' = canonical name
  · right
    have hself := get_del_self h name
    unfold get at hself ⊢
    rwa [heq]
  · exact .inl (get_del_of_ne heq)

lemma get_delAll : ∀ (names : List String) (h : Headers) (name : String),
    (h.delAll names).get name = h.get name ∨ (h.delAll names).get name = ""
  | [], _, _ => .inl rfl
  | name' :: names, h, name => by
    rcases get_delAll names (h.del name') name with heq | hnone
    · rcases get_del h name' name with heq' | hnone'
      · exact .inl (heq.trans heq')
      · exact .inr (heq.trans hnone')
    · exact .inr hnone

lemma get_delAll_of_mem {names : List String} (hmem : name ∈ names) (h : Headers) :
    (h.delAll names).get name = "" := by
  induction names generalizing h with
  | nil => cases hmem
  | cons name' names ih =>
    rcases List.mem_cons.mp hmem with rfl | hmem
    · rcases get_delAll names (h.del name) name with heq | hnone
      · exact heq.trans (get_del_self h name)
      · exact hnone
    · exact ih hmem (h.del name')

end Headers

end Wtg.Lib
