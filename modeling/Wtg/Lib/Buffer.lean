import Mathlib.Data.Vector.Basic
import Mathlib.Tactic.Ring

/-! # Byte buffers

Buffers are lists of bytes. `write` overwrites a range, `slice` reads one, and `writes` is a
sequence of writes, each with its offset. -/

namespace Wtg.Lib.Buffer

open List

abbrev Bytes := List UInt8

def write (buf : Bytes) (off : ℕ) (bs : Bytes) : Bytes :=
  buf.take off ++ bs ++ buf.drop (off + bs.length)

def slice (buf : Bytes) (off n : ℕ) : Bytes := (buf.drop off).take n

def writes (buf : Bytes) (l : List (ℕ × Bytes)) : Bytes :=
  l.foldl (fun b w => write b w.1 w.2) buf

variable {buf : Bytes} {off n : ℕ}

lemma length_slice (h : off + n ≤ buf.length) : (slice buf off n).length = n := by
  simp only [slice, length_take, length_drop]
  omega

lemma slice_append {a b c : Bytes} (ha : a.length = off) (hb : b.length = n) :
    slice (a ++ (b ++ c)) off n = b := by
  unfold slice
  rw [drop_left' ha, take_left' hb]

variable {off : ℕ}

lemma getD_of_slice {b : UInt8} (h : slice buf off 1 = [b]) : buf.getD off 0 = b := by
  have hhead : (slice buf off 1)[0]? = some b := by rw [h]; rfl
  rw [slice, getElem?_take_of_lt (by omega), getElem?_drop, Nat.add_zero] at hhead
  rw [getD_eq_getElem?_getD, hhead]
  rfl

lemma slice_one (h : off < buf.length) : slice buf off 1 = [buf.getD off 0] := by
  rw [slice, drop_eq_getElem_cons h, take_succ_cons, take_zero,
    getD_eq_getElem?_getD, getElem?_eq_getElem h]
  rfl

lemma slice_add (buf : Bytes) (off m n : ℕ) :
    slice buf off m ++ slice buf (off + m) n = slice buf off (m + n) := by
  unfold slice
  rw [take_add, drop_drop]

@[simp] lemma write_nil (buf : Bytes) (off : ℕ) : write buf off [] = buf := by
  simp [write]

lemma length_write {bs : Bytes} (h : off + bs.length ≤ buf.length) :
    (write buf off bs).length = buf.length := by
  simp only [write, length_append, length_take, length_drop]
  omega

lemma write_append {a b c bs : Bytes} (ha : a.length = off) (hb : b.length = bs.length) :
    write (a ++ (b ++ c)) off bs = a ++ (bs ++ c) := by
  unfold write
  rw [take_left' ha, ← append_assoc a b c, drop_left', append_assoc]
  rw [length_append, ha, hb]

/-- The writes fill the buffer from `o` on without a gap. -/
def Contiguous : ℕ → List (ℕ × Bytes) → Prop
  | _, [] => True
  | o, (off, bs) :: l => off = o ∧ Contiguous (o + bs.length) l

def written (l : List (ℕ × Bytes)) : Bytes := l.flatMap Prod.snd

lemma writes_contiguous : ∀ {o : ℕ} {l : List (ℕ × Bytes)} {buf : Bytes}, Contiguous o l →
    o + (written l).length ≤ buf.length →
    writes buf l = buf.take o ++ (written l ++ buf.drop (o + (written l).length))
  | o, [], buf, _, _ => by simp [writes, written]
  | o, (off, bs) :: l, buf, ⟨ho, hl⟩, hlen => by
    subst ho
    have hw : written ((off, bs) :: l) = bs ++ written l := rfl
    rw [hw, length_append] at hlen
    have hlen' : (write buf off bs).length = buf.length := length_write (by omega)
    have hstep : writes buf ((off, bs) :: l) = writes (write buf off bs) l := rfl
    rw [hstep, writes_contiguous hl (by omega), hw]
    have htake : (write buf off bs).take (off + bs.length) = buf.take off ++ bs := by
      unfold write
      refine take_left' ?_
      rw [length_append, length_take]
      omega
    have hdrop : (write buf off bs).drop (off + bs.length + (written l).length) =
        buf.drop (off + (bs ++ written l).length) := by
      unfold write
      rw [drop_append, drop_eq_nil_of_le, nil_append, drop_drop]
      · congr 1
        simp only [length_append, length_take]
        omega
      · simp only [length_append, length_take]
        omega
    rw [htake, hdrop, append_assoc, append_assoc]

lemma slice_contiguous : ∀ {o : ℕ} {l : List (ℕ × Bytes)} {off : ℕ} {bs : Bytes} (a rest : Bytes),
    a.length = o → Contiguous o l → (off, bs) ∈ l →
    slice (a ++ (written l ++ rest)) off bs.length = bs
  | o, [], _, _, _, _, _, _, h => by cases h
  | o, (off', bs') :: l, off, bs, a, rest, ha, ⟨ho, hl⟩, h => by
    have hw : written ((off', bs') :: l) = bs' ++ written l := rfl
    rw [hw, append_assoc]
    rcases mem_cons.mp h with h | h
    · obtain ⟨rfl, rfl⟩ := Prod.mk.inj h
      exact slice_append (ha.trans ho.symm) rfl
    · rw [← append_assoc]
      exact slice_contiguous (a ++ bs') rest (by rw [length_append, ha]) hl h

variable {l : List (ℕ × Bytes)}

lemma writes_full (hl : Contiguous 0 l) (h : buf.length = (written l).length) :
    writes buf l = written l := by
  rw [writes_contiguous hl (by omega), take_zero, nil_append,
    drop_eq_nil_of_le (by omega), append_nil]

lemma slice_writes {bs : Bytes} (hl : Contiguous 0 l)
    (hlen : (written l).length ≤ buf.length) (h : (off, bs) ∈ l) (hn : bs.length = n) :
    slice (writes buf l) off n = bs := by
  subst hn
  rw [writes_contiguous hl (by omega)]
  exact slice_contiguous (buf.take 0) _ rfl hl h

lemma getD_writes {b : UInt8} (hl : Contiguous 0 l) (hlen : (written l).length ≤ buf.length)
    (h : (off, [b]) ∈ l) : (writes buf l).getD off 0 = b :=
  getD_of_slice (slice_writes hl hlen h rfl)

/-- The `w` big-endian bytes of `n`; higher digits are dropped. -/
def bigEndian : ℕ → ℕ → Bytes
  | 0, _ => []
  | w + 1, n => UInt8.ofNat (n / 256 ^ w) :: bigEndian w n

def ofBigEndian (bs : Bytes) : ℕ := bs.foldl (fun acc b => acc * 256 + b.toNat) 0

@[simp] lemma length_bigEndian (w n : ℕ) : (bigEndian w n).length = w := by
  induction w with
  | zero => rfl
  | succ w ih => simp [bigEndian, ih]

lemma foldl_bigEndian (w n acc : ℕ) :
    (bigEndian w n).foldl (fun acc b => acc * 256 + b.toNat) acc = acc * 256 ^ w + n % 256 ^ w := by
  induction w generalizing acc with
  | zero => simp [bigEndian, Nat.mod_one]
  | succ w ih =>
    have hdigit : (UInt8.ofNat (n / 256 ^ w)).toNat = n / 256 ^ w % 256 := by simp
    have hsplit : n % 256 ^ (w + 1) = n % 256 ^ w + 256 ^ w * (n / 256 ^ w % 256) := by
      rw [pow_succ, Nat.mod_mul]
    rw [bigEndian, foldl_cons, ih, hdigit, hsplit]
    ring

lemma ofBigEndian_bigEndian (w n : ℕ) : ofBigEndian (bigEndian w n) = n % 256 ^ w := by
  unfold ofBigEndian
  rw [foldl_bigEndian]
  omega

abbrev Fixed (n : ℕ) := List.Vector UInt8 n

def padCopy (n : ℕ) (src : Bytes) : Fixed n :=
  ⟨src.take n ++ List.replicate (n - src.length) 0, by simp; omega⟩

lemma toList_padCopy {n : ℕ} {src : Bytes} (h : src.length = n) :
    (padCopy n src).toList = src := by
  show src.take n ++ replicate (n - src.length) 0 = src
  rw [h, Nat.sub_self, replicate_zero, append_nil, take_of_length_le h.le]

@[simp] lemma padCopy_toList {n : ℕ} (v : Fixed n) : padCopy n v.toList = v := by
  apply List.Vector.eq
  show v.toList.take n ++ replicate (n - v.toList.length) 0 = v.toList
  rw [List.Vector.toList_length, Nat.sub_self, replicate_zero, append_nil,
    take_of_length_le (by rw [List.Vector.toList_length])]

/-- `out` with `n` more bytes, each the one `dist` before it. -/
def backCopy (dist : ℕ) : ℕ → Bytes → Bytes
  | 0, out => out
  | n + 1, out => backCopy dist n (out ++ [out.getD (out.length - dist) 0])

@[simp] lemma length_backCopy (dist : ℕ) : ∀ (n : ℕ) (out : Bytes),
    (backCopy dist n out).length = out.length + n
  | 0, _ => rfl
  | n + 1, out => by
    rw [backCopy, length_backCopy dist n, length_append, length_singleton]
    omega

end Wtg.Lib.Buffer
