import Wtg.Lib.Numeral
import Wtg.Lib.Runs
import Wtg.QuoteId.Registry

/-! # Quote ids

`Generator` of `pkg/quoteid/quoteid.go`: an id is the name of the instance, the time in milliseconds
and the number of the call, joined by hyphens, both numbers in base 36. -/

namespace Wtg.QuoteId.Ids

open Lib Lib.Runs Lib.Numeral QuoteId.Registry List Function

def digits : List Char := "0123456789abcdefghijklmnopqrstuvwxyz".toList

def digit36 (d : ℕ) : Char := digits.getD d '0'

def formatUint (n : ℕ) : List Char := format digit36 36 n

def formatInt (n : ℤ) : List Char :=
  if n < 0 then '-' :: formatUint n.natAbs else formatUint n.natAbs

lemma digit36_injOn : Set.InjOn digit36 {d | d < 36} := by
  have h : ∀ d < 36, ∀ e < 36, digit36 d = digit36 e → d = e := by decide
  intro d hd e he
  exact h d hd e he

lemma hyphen_not_mem (n : ℕ) : '-' ∉ formatUint n := by
  have hdigit : ∀ d < 36, '-' ≠ digit36 d := by decide
  intro hmem
  obtain ⟨d, hd, hc⟩ := mem_format (by omega) hmem
  exact hdigit d hd hc

lemma formatUint_inj {m n : ℕ} (h : formatUint m = formatUint n) : m = n :=
  format_inj (by omega) digit36_injOn h

lemma formatInt_of_nonneg {n : ℤ} (h : 0 ≤ n) : formatInt n = formatUint n.natAbs :=
  if_neg (by omega)

structure Generator where
  «instance» : String
  seq : UInt64
deriving DecidableEq, Repr

def newGenerator (name : String) : Generator := ⟨if name = "" then "A" else name, 0⟩

def quoteID (name : String) (ms : ℤ) (seq : UInt64) : QuoteID :=
  name ++ "-" ++ String.ofList (formatInt ms) ++ "-" ++ String.ofList (formatUint seq.toNat)

def Generator.next (g : Generator) (ms : ℤ) : Generator × QuoteID :=
  ({ g with seq := g.seq + 1 }, quoteID g.instance ms (g.seq + 1))

def Generator.nextSequence (g : Generator) : UInt64 := g.seq

lemma toList_quoteID (name : String) (ms : ℤ) (seq : UInt64) :
    (quoteID name ms seq).toList =
      (name.toList ++ '-' :: formatInt ms) ++ '-' :: formatUint seq.toNat := by
  simp [quoteID]

lemma quoteID_inj {name name' : String} {ms ms' : ℤ} {seq seq' : UInt64} (hms : 0 ≤ ms)
    (hms' : 0 ≤ ms') (h : quoteID name ms seq = quoteID name' ms' seq') :
    name = name' ∧ ms = ms' ∧ seq = seq' := by
  have hlist := congrArg String.toList h
  rw [toList_quoteID, toList_quoteID, formatInt_of_nonneg hms, formatInt_of_nonneg hms'] at hlist
  -- the last hyphen stands before the call number, the one before it before the time
  obtain ⟨hrest, hseq⟩ := append_sep_inj (hyphen_not_mem _) (hyphen_not_mem _) hlist
  obtain ⟨hname, htime⟩ := append_sep_inj (hyphen_not_mem _) (hyphen_not_mem _) hrest
  have habs : ms.natAbs = ms'.natAbs := formatUint_inj htime
  exact ⟨String.toList_inj.mp hname, by omega, UInt64.toNat_inj.mp (formatUint_inj hseq)⟩

/-! ## Calls on several instances -/

section

variable {ι : Type*} [DecidableEq ι]

def step (gens : ι → Generator) (c : ι × ℤ) : (ι → Generator) × QuoteID :=
  (Function.update gens c.1 ((gens c.1).next c.2).1, ((gens c.1).next c.2).2)

def issued (gens : ι → Generator) (calls : List (ι × ℤ)) : List QuoteID :=
  (log step gens calls).map Prod.snd

def callsOn (i : ι) (calls : List (ι × ℤ)) : ℕ := (calls.filter (·.1 = i)).length

variable (gens : ι → Generator)

lemma step_self (c : ι × ℤ) : (step gens c).1 c.1 = ⟨(gens c.1).instance, (gens c.1).seq + 1⟩ :=
  update_self _ _ _

lemma step_ne {c : ι × ℤ} {i : ι} (h : i ≠ c.1) : (step gens c).1 i = gens i :=
  update_of_ne h _ _

lemma step_instance (c : ι × ℤ) (i : ι) : ((step gens c).1 i).instance = (gens i).instance := by
  by_cases h : i = c.1
  · rw [h, step_self]
  · rw [step_ne gens h]

lemma callsOn_cons (i : ι) (c : ι × ℤ) (calls : List (ι × ℤ)) :
    callsOn i (c :: calls) = (if c.1 = i then 1 else 0) + callsOn i calls := by
  by_cases h : c.1 = i
  · simp only [callsOn, filter_cons, h, decide_true, if_true, length_cons]
    omega
  · simp [callsOn, h]

lemma mem_issued : ∀ {gens : ι → Generator} {calls : List (ι × ℤ)} {id : QuoteID},
    id ∈ issued gens calls → ∃ i ms k, (i, ms) ∈ calls ∧ 1 ≤ k ∧ k ≤ callsOn i calls ∧
      id = quoteID (gens i).instance ms ((gens i).seq + UInt64.ofNat k)
  | gens, c :: calls, id, h => by
    simp only [issued, log_cons, map_cons, mem_cons] at h
    rcases h with rfl | h
    · refine ⟨c.1, c.2, 1, mem_cons_self, le_refl 1, ?_, rfl⟩
      rw [callsOn_cons, if_pos rfl]
      omega
    · obtain ⟨i, ms, k, hmem, hlo, hhi, rfl⟩ := mem_issued h
      by_cases hi : i = c.1
      · subst hi
        refine ⟨c.1, ms, k + 1, mem_cons_of_mem _ hmem, by omega, ?_, ?_⟩
        · rw [callsOn_cons, if_pos rfl]
          omega
        · rw [step_self, add_comm k 1, UInt64.ofNat_add, ← UInt64.add_assoc]
          rfl
      · refine ⟨i, ms, k, mem_cons_of_mem _ hmem, hlo, ?_, ?_⟩
        · rw [callsOn_cons]
          omega
        · rw [step_ne gens hi]

lemma seq_ne {n : UInt64} {k : ℕ} (hlo : 1 ≤ k) (hhi : k < 2 ^ 64) : n ≠ n + UInt64.ofNat k := by
  intro h
  have hzero : UInt64.ofNat k = 0 := by
    have : n + 0 = n + UInt64.ofNat k := by rw [UInt64.add_zero]; exact h
    exact (UInt64.add_right_inj n).mp this.symm
  have hnat : k % 2 ^ 64 = 0 := by
    have := congrArg UInt64.toNat hzero
    rwa [UInt64.toNat_ofNat'] at this
  omega

/-- **Issued ids are distinct**, for any interleaving of fewer than 2^64 calls on each of a family
of generators with distinct names. -/
theorem issued_nodup : ∀ (gens : ι → Generator) (calls : List (ι × ℤ)),
    (Function.Injective fun i => (gens i).instance) → (∀ c ∈ calls, 0 ≤ c.2) →
      (∀ i, callsOn i calls < 2 ^ 64) → (issued gens calls).Nodup
  | _, [], _, _, _ => nodup_nil
  | gens, c :: calls, hnames, hclock, hcount => by
    have hrest : ∀ i, callsOn i calls < 2 ^ 64 := by
      intro i
      have := hcount i
      rw [callsOn_cons] at this
      omega
    have hnames' : Function.Injective fun i => ((step gens c).1 i).instance := by
      intro i j hij
      simp only [step_instance] at hij
      exact hnames hij
    refine nodup_cons.mpr ⟨fun hmem => ?_,
      issued_nodup (step gens c).1 calls hnames' (fun d hd => hclock d (mem_cons_of_mem _ hd))
        hrest⟩
    obtain ⟨i, ms, k, hcall, hlo, hhi, hid⟩ := mem_issued hmem
    have hms : 0 ≤ ms := hclock _ (mem_cons_of_mem _ hcall)
    obtain ⟨hname, -, hseq⟩ := quoteID_inj (hclock c mem_cons_self) hms hid
    rw [step_instance] at hname
    obtain rfl : c.1 = i := hnames hname
    rw [step_self] at hseq
    have := hrest c.1
    exact seq_ne hlo (by omega) hseq

end

def twoInstances (second : Bool) : Generator := newGenerator (if second then "A-1" else "A")

theorem issued_nodup_twoInstances :
    (issued twoInstances [(true, 37), (false, 37), (true, 36), (false, 36)]).Nodup :=
  issued_nodup twoInstances _ (fun a b => by revert a b; decide) (by decide) (by decide)

end Wtg.QuoteId.Ids
