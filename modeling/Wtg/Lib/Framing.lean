import Wtg.Lib.Buffer

/-! # Frames with their length in front

A frame is four big-endian bytes of length and as many bytes of payload. -/

namespace Wtg.Lib.Framing

open Lib.Buffer List

def frame (payload : Bytes) : Bytes := bigEndian 4 payload.length ++ payload

/-- One frame off the front of the stream, and what follows it. -/
def unframe (accepts : ℕ → Bool) (input : Bytes) : Option (Bytes × Bytes) :=
  if 4 ≤ input.length ∧ accepts (ofBigEndian (input.take 4)) = true ∧
      ofBigEndian (input.take 4) ≤ (input.drop 4).length then
    some ((input.drop 4).take (ofBigEndian (input.take 4)),
      (input.drop 4).drop (ofBigEndian (input.take 4)))
  else none

variable {accepts : ℕ → Bool} {input payload rest : Bytes}

lemma foldl_bytes_lt : ∀ (bs : Bytes) (acc : ℕ),
    bs.foldl (fun acc b => acc * 256 + b.toNat) acc < (acc + 1) * 256 ^ bs.length
  | [], acc => by simp
  | b :: bs, acc => by
    have hb : b.toNat < 256 := b.toNat_lt
    have ih := foldl_bytes_lt bs (acc * 256 + b.toNat)
    have hstep : acc * 256 + b.toNat + 1 ≤ (acc + 1) * 256 := by omega
    calc (b :: bs).foldl (fun acc b => acc * 256 + b.toNat) acc
        < (acc * 256 + b.toNat + 1) * 256 ^ bs.length := ih
      _ ≤ (acc + 1) * 256 * 256 ^ bs.length := Nat.mul_le_mul_right _ hstep
      _ = (acc + 1) * 256 ^ (b :: bs).length := by rw [length_cons, pow_succ]; ring

lemma unframe_frame (hlen : payload.length < 256 ^ 4) (hacc : accepts payload.length = true) :
    unframe accepts (frame payload ++ rest) = some (payload, rest) := by
  have hhead : (frame payload ++ rest).take 4 = bigEndian 4 payload.length := by
    rw [frame, append_assoc]
    exact take_left' (length_bigEndian 4 _)
  have htail : (frame payload ++ rest).drop 4 = payload ++ rest := by
    rw [frame, append_assoc]
    exact drop_left' (length_bigEndian 4 _)
  have hn : ofBigEndian (bigEndian 4 payload.length) = payload.length := by
    rw [ofBigEndian_bigEndian, Nat.mod_eq_of_lt hlen]
  have hfour : 4 ≤ (frame payload ++ rest).length := by
    simp only [frame, length_append, length_bigEndian]
    omega
  rw [unframe, hhead, htail, hn, if_pos ⟨hfour, hacc, by simp⟩, take_left, drop_left]

lemma length_of_unframe (h : unframe accepts input = some (payload, rest)) :
    payload.length < 256 ^ 4 ∧ rest.length < input.length := by
  unfold unframe at h
  split_ifs at h with hc
  obtain ⟨hfour, -, hle⟩ := hc
  obtain ⟨rfl, rfl⟩ := Prod.mk.inj (Option.some.inj h)
  have hbound := foldl_bytes_lt (input.take 4) 0
  have hwidth : (input.take 4).length = 4 := by rw [length_take]; omega
  rw [hwidth, zero_add, one_mul] at hbound
  have hdrop : (input.drop 4).length = input.length - 4 := length_drop
  refine ⟨?_, ?_⟩
  · rw [length_take, min_eq_left hle]
    exact hbound
  · rw [length_drop, hdrop]
    omega

/-- The frames of a stream, and what is left after the last. -/
def unframeAll (accepts : ℕ → Bool) (input : Bytes) : List Bytes × Bytes :=
  match h : unframe accepts input with
  | none => ([], input)
  | some (payload, rest) =>
    have : rest.length < input.length := (length_of_unframe h).2
    (payload :: (unframeAll accepts rest).1, (unframeAll accepts rest).2)
termination_by input.length

lemma unframeAll_of_none (h : unframe accepts input = none) :
    unframeAll accepts input = ([], input) := by
  rw [unframeAll]
  split
  · rfl
  · rename_i hsome
    rw [h] at hsome
    cases hsome

lemma unframeAll_of_some (h : unframe accepts input = some (payload, rest)) :
    unframeAll accepts input =
      (payload :: (unframeAll accepts rest).1, (unframeAll accepts rest).2) := by
  rw [unframeAll]
  split
  · rename_i hnone
    rw [h] at hnone
    cases hnone
  · rename_i hsome
    rw [h] at hsome
    obtain ⟨rfl, rfl⟩ := Prod.mk.inj (Option.some.inj hsome)
    rfl

lemma unframeAll_flatMap_frame : ∀ {ps : List Bytes},
    (∀ p ∈ ps, p.length < 256 ^ 4 ∧ accepts p.length = true) →
      unframeAll accepts (ps.flatMap frame) = (ps, [])
  | [], _ => unframeAll_of_none (by simp [unframe])
  | p :: ps, h => by
    obtain ⟨hlen, hacc⟩ := h p mem_cons_self
    have ih := unframeAll_flatMap_frame fun q hq => h q (mem_cons_of_mem _ hq)
    rw [flatMap_cons, unframeAll_of_some (unframe_frame hlen hacc), ih]

lemma length_lt_of_mem_unframeAll (input : Bytes) :
    ∀ p ∈ (unframeAll accepts input).1, p.length < 256 ^ 4 := by
  intro p hp
  rcases h : unframe accepts input with _ | ⟨first, rest⟩
  · rw [unframeAll_of_none h] at hp
    cases hp
  · obtain ⟨hfirst, hrest⟩ := length_of_unframe h
    rw [unframeAll_of_some h] at hp
    rcases mem_cons.mp hp with rfl | hp
    · exact hfirst
    · exact length_lt_of_mem_unframeAll rest p hp
termination_by input.length

end Wtg.Lib.Framing
