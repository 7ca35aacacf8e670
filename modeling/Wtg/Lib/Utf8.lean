import Mathlib.Data.List.DropRight

/-! # Well-formed UTF-8

`encode` writes characters as bytes, `decode` reads bytes that are well-formed and refuses the
others; they are inverse to each other (`decode_eq_some`). -/

namespace Wtg.Lib.Utf8

open List Option

def IsAscii (c : Char) : Prop := c.toNat < 128

instance : DecidablePred IsAscii := fun _ => inferInstanceAs (Decidable (_ < _))

def asciiByte (c : Char) : UInt8 := UInt8.ofNat c.toNat

def encode (cs : List Char) : List UInt8 := cs.flatMap String.utf8EncodeChar

def decode (b : List UInt8) : Option (List Char) :=
  (String.fromUTF8? b.toByteArray).map String.toList

@[simp] lemma encode_nil : encode [] = [] := rfl

@[simp] lemma encode_cons (c : Char) (cs : List Char) :
    encode (c :: cs) = String.utf8EncodeChar c ++ encode cs := rfl

@[simp] lemma encode_append (cs ds : List Char) : encode (cs ++ ds) = encode cs ++ encode ds :=
  flatMap_append

variable {b : List UInt8}

lemma decode_eq_some {cs : List Char} : decode b = some cs ↔ encode cs = b := by
  unfold decode String.fromUTF8?
  constructor
  · intro h
    split_ifs at h with hvalid
    · simp only [map_some, some.injEq] at h
      have hbytes : (String.fromUTF8 b.toByteArray hvalid).toByteArray = b.toByteArray := rfl
      rw [← String.ofList_toList (s := String.fromUTF8 b.toByteArray hvalid), h,
        String.toByteArray_ofList] at hbytes
      have hdata := congrArg ByteArray.data hbytes
      rw [utf8Encode, data_toByteArray, data_toByteArray] at hdata
      exact congrArg Array.toList hdata
    · simp at h
  · intro h
    have hvalid : b.toByteArray.IsValidUTF8 := ⟨cs, by rw [← h]; rfl⟩
    rw [dif_pos hvalid]
    have hstring : String.fromUTF8 b.toByteArray hvalid = String.ofList cs := by
      rw [← String.toByteArray_inj, String.toByteArray_ofList]
      exact (congrArg toByteArray h).symm
    rw [hstring, map_some, String.toList_ofList]

lemma decode_encode (cs : List Char) : decode (encode cs) = some cs := decode_eq_some.mpr rfl

variable {c : Char}

lemma utf8EncodeChar_ascii (h : IsAscii c) : String.utf8EncodeChar c = [asciiByte c] := by
  have hle : c.val.toNat ≤ 127 := Nat.le_of_lt_succ h
  unfold String.utf8EncodeChar
  exact if_pos hle

lemma encode_ascii : ∀ {cs : List Char}, (∀ c ∈ cs, IsAscii c) → encode cs = cs.map asciiByte
  | [], _ => rfl
  | c :: cs, h => by
    rw [encode_cons, utf8EncodeChar_ascii (h c mem_cons_self),
      encode_ascii fun d hd => h d (mem_cons_of_mem c hd)]
    rfl

lemma two_le_length (h : ¬ IsAscii c) : 2 ≤ (String.utf8EncodeChar c).length := by
  have hgt : ¬ c.val.toNat ≤ 127 := fun hle => h (Nat.lt_succ_of_le hle)
  unfold String.utf8EncodeChar
  simp only [hgt, if_false]
  split_ifs <;> simp

lemma high_of_mem (h : ¬ IsAscii c) {b : UInt8} (hb : b ∈ String.utf8EncodeChar c) :
    128 ≤ b.toNat := by
  have hgt : ¬ c.val.toNat ≤ 127 := fun hle => h (Nat.lt_succ_of_le hle)
  unfold String.utf8EncodeChar at hb
  simp only [hgt, if_false] at hb
  split_ifs at hb <;>
    · simp only [mem_cons, not_mem_nil, or_false] at hb
      rcases hb with rfl | hb <;> (try rcases hb with rfl | hb) <;> (try rcases hb with rfl | hb) <;>
        (try subst hb) <;> rw [UInt8.toNat_ofNat'] <;> omega

lemma asciiByte_toNat (h : IsAscii c) : (asciiByte c).toNat = c.toNat := by
  unfold asciiByte
  rw [UInt8.toNat_ofNat']
  unfold IsAscii at h
  omega

/-- An ASCII byte at the end is a character of its own. -/
lemma eq_concat_of_encode {cs : List Char} (hc : IsAscii c) (h : encode cs = b ++ [asciiByte c]) :
    ∃ ds, encode ds = b := by
  rcases eq_nil_or_concat cs with rfl | ⟨ds, d, rfl⟩
  · simp at h
  · have hbytes : encode ds ++ String.utf8EncodeChar d = b ++ [asciiByte c] := by
      rw [← h]
      simp
    have hd : IsAscii d := by
      by_contra hd
      have hne : String.utf8EncodeChar d ≠ [] := by
        have := two_le_length hd
        intro hnil
        simp [hnil] at this
      obtain ⟨front, last, hlast⟩ := eq_nil_or_concat (String.utf8EncodeChar d)
        |>.resolve_left hne
      rw [hlast, concat_eq_append, ← append_assoc] at hbytes
      have hsame : last = asciiByte c := by
        simpa using (append_inj' hbytes rfl).2
      have hhigh : 128 ≤ last.toNat := high_of_mem hd (by rw [hlast]; simp)
      rw [hsame, asciiByte_toNat hc] at hhigh
      exact absurd hc (not_lt.mpr hhigh)
    rw [utf8EncodeChar_ascii hd] at hbytes
    exact ⟨ds, (append_inj' hbytes rfl).1⟩

lemma decode_append_eq_none {as : List Char} (has : ∀ c ∈ as, IsAscii c) (h : decode b = none) :
    decode (b ++ encode as) = none := by
  induction as using reverseRecOn with
  | nil => simpa using h
  | append_singleton as c ih =>
    have hc : IsAscii c := has c (by simp)
    have hb : decode (b ++ encode as) = none := ih fun d hd => has d (by simp [hd])
    by_contra hsome
    obtain ⟨cs, hcs⟩ := ne_none_iff_exists'.mp hsome
    rw [decode_eq_some] at hcs
    have hlast : encode cs = b ++ encode as ++ [asciiByte c] := by
      rw [hcs, encode_append, encode_cons, utf8EncodeChar_ascii hc]
      simp
    obtain ⟨ds, hds⟩ := eq_concat_of_encode hc hlast
    rw [decode_eq_some.mpr hds] at hb
    exact absurd hb (by simp)

end Wtg.Lib.Utf8
