import Wtg.Lib.Buffer

/-! # A memory of bytes

A memory gives every address a byte. `poke` writes bytes at an address, `pokes` several pieces one
after the other. -/

namespace Wtg.Lib.Memory

open Lib.Buffer List

abbrev Mem := ℕ → UInt8

def blank : Mem := fun _ => 0

def poke (m : Mem) (off : ℕ) (bs : Bytes) : Mem := fun a =>
  if off ≤ a then bs[a - off]?.getD (m a) else m a

def pokes (m : Mem) (ws : List (ℕ × Bytes)) : Mem := ws.foldl (fun m w => poke m w.1 w.2) m

def shift (base : ℕ) (ws : List (ℕ × Bytes)) : List (ℕ × Bytes) :=
  ws.map fun w => (base + w.1, w.2)

def view (m : Mem) (base : ℕ) : Mem := fun a => m (base + a)

/-- Where the pieces are and how long. -/
def shape (ws : List (ℕ × Bytes)) : List (ℕ × ℕ) := ws.map fun w => (w.1, w.2.length)

/-- The addresses written by pieces of a shape. -/
def Covered (sh : List (ℕ × ℕ)) (a : ℕ) : Prop := ∃ w ∈ sh, w.1 ≤ a ∧ a < w.1 + w.2

variable {m m' : Mem} {ws ws' : List (ℕ × Bytes)} {a base lo hi : ℕ}

@[simp] lemma pokes_cons (m : Mem) (w : ℕ × Bytes) (ws : List (ℕ × Bytes)) :
    pokes m (w :: ws) = pokes (poke m w.1 w.2) ws := rfl

lemma pokes_append (m : Mem) (ws ws' : List (ℕ × Bytes)) :
    pokes m (ws ++ ws') = pokes (pokes m ws) ws' := foldl_append

variable {bs : Bytes} {off : ℕ}

lemma poke_of_outside (h : a < off ∨ off + bs.length ≤ a) : poke m off bs a = m a := by
  unfold poke
  split_ifs with hle
  · have hlen : bs.length ≤ a - off := by omega
    rw [getElem?_eq_none hlen]
    rfl
  · rfl

lemma poke_of_inside (hle : off ≤ a) (hlt : a < off + bs.length) :
    poke m off bs a = poke m' off bs a := by
  have hlen : a - off < bs.length := by omega
  unfold poke
  rw [if_pos hle, if_pos hle, getElem?_eq_getElem hlen]
  rfl

lemma poke_apply {off i : ℕ} (h : i < bs.length) : poke m off bs (off + i) = bs.get ⟨i, h⟩ := by
  unfold poke
  rw [if_pos (Nat.le_add_right _ _), Nat.add_sub_cancel_left, getElem?_eq_getElem h]
  rfl

lemma poke_congr (h : m a = m' a) : poke m off bs a = poke m' off bs a := by
  unfold poke
  rw [h]

lemma pokes_congr (h : m a = m' a) : pokes m ws a = pokes m' ws a := by
  induction ws generalizing m m' with
  | nil => exact h
  | cons w ws ih => exact ih (poke_congr h)

lemma pokes_of_not_covered (h : ¬ Covered (shape ws) a) : pokes m ws a = m a := by
  induction ws generalizing m with
  | nil => rfl
  | cons w ws ih =>
    have hw : ¬ (w.1 ≤ a ∧ a < w.1 + w.2.length) := fun hw =>
      h ⟨(w.1, w.2.length), mem_cons_self, hw⟩
    have hws : ¬ Covered (shape ws) a := fun ⟨v, hv, hin⟩ =>
      h ⟨v, mem_cons_of_mem _ hv, hin⟩
    rw [pokes_cons, ih hws, poke_of_outside (by omega)]

lemma pokes_of_covered (h : Covered (shape ws) a) : pokes m ws a = pokes m' ws a := by
  induction ws generalizing m m' with
  | nil =>
    obtain ⟨w, hw, -⟩ := h
    cases hw
  | cons w ws ih =>
    rw [pokes_cons, pokes_cons]
    by_cases hws : Covered (shape ws) a
    · exact ih hws
    · obtain ⟨v, hv, hin⟩ := h
      rcases mem_cons.mp hv with rfl | hv
      · exact pokes_congr (poke_of_inside hin.1 hin.2)
      · exact absurd ⟨v, hv, hin⟩ hws

lemma pokes_eq {v : UInt8} (hcov : Covered (shape ws) a)
    (hval : ∀ w ∈ ws, w.1 ≤ a → a < w.1 + w.2.length → w.2[a - w.1]? = some v) :
    pokes m ws a = v := by
  induction ws generalizing m with
  | nil =>
    obtain ⟨w, hw, -⟩ := hcov
    cases hw
  | cons w ws ih =>
    rw [pokes_cons]
    by_cases hws : Covered (shape ws) a
    · exact ih hws fun x hx => hval x (mem_cons_of_mem _ hx)
    · obtain ⟨x, hx, hle, hlt⟩ := hcov
      rcases mem_cons.mp hx with rfl | hx
      · rw [pokes_of_not_covered hws, poke, if_pos hle, hval w mem_cons_self hle hlt]
        rfl
      · exact absurd ⟨x, hx, hle, hlt⟩ hws

lemma pokes_pokes (h : shape ws = shape ws') : pokes (pokes m ws') ws = pokes m ws := by
  funext a
  by_cases hcov : Covered (shape ws) a
  · exact pokes_of_covered hcov
  · refine pokes_congr (pokes_of_not_covered ?_)
    rwa [← h]

lemma view_poke_shift (off : ℕ) (bs : Bytes) :
    view (poke m (base + off) bs) base = poke (view m base) off bs := by
  funext a
  unfold view poke
  by_cases h : off ≤ a
  · rw [if_pos h, if_pos (Nat.add_le_add_left h base), Nat.add_sub_add_left]
  · rw [if_neg h, if_neg fun hle => h (Nat.le_of_add_le_add_left hle)]

lemma view_pokes_shift : view (pokes m (shift base ws)) base = pokes (view m base) ws := by
  induction ws generalizing m with
  | nil => rfl
  | cons w ws ih =>
    show view (pokes (poke m (base + w.1) w.2) (shift base ws)) base = _
    rw [ih, view_poke_shift, pokes_cons]

def Within (lo hi : ℕ) (ws : List (ℕ × Bytes)) : Prop := ∀ w ∈ ws, lo ≤ w.1 ∧ w.1 + w.2.length ≤ hi

lemma pokes_of_outside (hws : Within lo hi ws) (ha : a < lo ∨ hi ≤ a) : pokes m ws a = m a := by
  refine pokes_of_not_covered ?_
  rintro ⟨v, hv, hle, hlt⟩
  obtain ⟨w, hw, rfl⟩ := mem_map.mp hv
  have hbounds := hws w hw
  simp only at hle hlt
  omega

lemma Within.shift (h : Within lo hi ws) (base : ℕ) :
    Within (base + lo) (base + hi) (shift base ws) := by
  intro v hv
  obtain ⟨w, hw, rfl⟩ := mem_map.mp hv
  have hbounds := h w hw
  simp only
  omega

lemma Within.append (h : Within lo hi ws) (h' : Within lo hi ws') : Within lo hi (ws ++ ws') := by
  intro w hw
  rcases mem_append.mp hw with hw | hw
  · exact h w hw
  · exact h' w hw

def littleEndian : ℕ → ℕ → Bytes
  | 0, _ => []
  | w + 1, n => UInt8.ofNat n :: littleEndian w (n / 256)

def readLittleEndian (m : Mem) : ℕ → ℕ → ℕ
  | _, 0 => 0
  | off, w + 1 => (m off).toNat + 256 * readLittleEndian m (off + 1) w

@[simp] lemma length_littleEndian : ∀ w n : ℕ, (littleEndian w n).length = w
  | 0, _ => rfl
  | w + 1, n => by rw [littleEndian, length_cons, length_littleEndian w]

lemma readLittleEndian_congr : ∀ {w off : ℕ}, (∀ i < w, m (off + i) = m' (off + i)) →
    readLittleEndian m off w = readLittleEndian m' off w
  | 0, _, _ => rfl
  | w + 1, off, h => by
    have hhead := h 0 (Nat.succ_pos w)
    have htail : readLittleEndian m (off + 1) w = readLittleEndian m' (off + 1) w :=
      readLittleEndian_congr fun i hi => by
        have hi' := h (i + 1) (Nat.succ_lt_succ hi)
        rwa [Nat.add_comm i 1, ← Nat.add_assoc] at hi'
    rw [readLittleEndian, readLittleEndian, htail]
    rw [Nat.add_zero] at hhead
    rw [hhead]

lemma readLittleEndian_poke : ∀ (w off n : ℕ) (m : Mem),
    readLittleEndian (poke m off (littleEndian w n)) off w = n % 256 ^ w
  | 0, _, n, _ => by rw [readLittleEndian, pow_zero, Nat.mod_one]
  | w + 1, off, n, m => by
    have hpos : 0 < (littleEndian (w + 1) n).length := by
      rw [length_littleEndian]
      exact Nat.succ_pos w
    have hhead : poke m off (littleEndian (w + 1) n) off = UInt8.ofNat n := poke_apply hpos
    have htail : readLittleEndian (poke m off (littleEndian (w + 1) n)) (off + 1) w =
        readLittleEndian (poke m (off + 1) (littleEndian w (n / 256))) (off + 1) w := by
      refine readLittleEndian_congr fun i hi => ?_
      have hlen : i < (littleEndian w (n / 256)).length := by rwa [length_littleEndian]
      rw [poke_apply hlen, Nat.add_assoc, Nat.add_comm 1 i]
      exact poke_apply (Nat.succ_lt_succ hlen)
    have hbyte : (UInt8.ofNat n).toNat = n % 256 := UInt8.toNat_ofNat'
    rw [readLittleEndian, hhead, htail, readLittleEndian_poke w, hbyte, pow_succ, Nat.mul_comm,
      Nat.mul_comm (256 ^ w) 256, Nat.mod_mul, Nat.mul_comm]

end Wtg.Lib.Memory
