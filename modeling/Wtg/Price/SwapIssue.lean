import Wtg.Price.Lock

/-! # Issuing a swap is all or nothing

`putSwapAtomic` writes the two legs to the registry and the swap to the index, and takes back what
it wrote if a later write fails. -/

namespace Wtg.Price.SwapIssue

open Function Lib.Program QuoteId.Registry QuoteId.Interface QuoteId.Memory Option
open Price.Lock

def written {α : Type} (new old : α) : Except RegErr Unit → α
  | .ok _ => new
  | .error _ => old

/-- A registry and its index of swaps, as far as `putSwapAtomic` relies on them: a write that fails
changes nothing. -/
structure SwapStore (σ : Type) where
  answer : σ → (c : LockCall) → σ × Answer c
  records : σ → QuoteID → Option Record
  swaps : σ → String → Option SwapRecord
  put : ∀ s rec, swaps (answer s (.put rec)).1 = swaps s ∧ records (answer s (.put rec)).1 =
    written (update (records s) rec.quoteID (some rec)) (records s) (answer s (.put rec)).2
  putSwap : ∀ s sw, records (answer s (.putSwap sw)).1 = records s ∧
    swaps (answer s (.putSwap sw)).1 =
      written (update (swaps s) sw.swapID (some sw)) (swaps s) (answer s (.putSwap sw)).2
  delete : ∀ s id, swaps (answer s (.delete id)).1 = swaps s ∧
    records (answer s (.delete id)).1 = update (records s) id none

variable {σ : Type} (S : SwapStore σ) (s : σ) (near far : Record) (sw : SwapRecord)

/-- What `putSwapAtomic` returns, and the registry it leaves. -/
def issue : σ × Option String := (putSwapAtomic near far sw).eval S.answer s

/-- Everything was stored. -/
structure AllStored (s' : σ) : Prop where
  records : S.records s' =
    update (update (S.records s) near.quoteID (some near)) far.quoteID (some far)
  swaps : S.swaps s' = update (S.swaps s) sw.swapID (some sw)

/-- Nothing was stored in the index, and each leg that was stored is gone. -/
structure TakenBack (s' : σ) : Prop where
  records : S.records s' = S.records s ∨ S.records s' = update (S.records s) near.quoteID none ∨
    S.records s' = update (update (S.records s) near.quoteID none) far.quoteID none
  swaps : S.swaps s' = S.swaps s

/-! ## Calls of the registry -/

section

variable {α : Type} (answer : σ → (c : LockCall) → σ × Answer c)
  (k : Except RegErr Unit → Issuer α)

lemma eval_put (rec : Record) : (Call.put rec >>= k).eval answer s =
    (k (answer s (.put rec)).2).eval answer (answer s (.put rec)).1 := rfl

lemma eval_putSwap : (Call.putSwap sw >>= k).eval answer s =
    (k (answer s (.putSwap sw)).2).eval answer (answer s (.putSwap sw)).1 := rfl

end

lemma issue_cases :
    ((issue S s near far sw).2 = none ∧ AllStored S s near far sw (issue S s near far sw).1) ∨
      ((issue S s near far sw).2 ≠ none ∧ TakenBack S s near far (issue S s near far sw).1) := by
  have hput := S.put s near
  rw [issue, putSwapAtomic, eval_put]
  generalize S.answer s (.put near) = r₁ at hput ⊢
  obtain ⟨s₁, e | ⟨⟩⟩ := r₁
  · exact .inr ⟨some_ne_none _, .inl hput.2, hput.1⟩
  have hput₂ := S.put s₁ far
  rw [hput.1, hput.2] at hput₂
  simp only [eval_put]
  generalize S.answer s₁ (.put far) = r₂ at hput₂ ⊢
  obtain ⟨s₂, e | ⟨⟩⟩ := r₂
  · have hdel := S.delete s₂ near.quoteID
    rw [hput₂.1, hput₂.2] at hdel
    refine .inr ⟨some_ne_none _, .inr (.inl ?_), hdel.1⟩
    exact hdel.2.trans (by simp [written])
  have hputSwap := S.putSwap s₂ sw
  rw [hput₂.1, hput₂.2] at hputSwap
  rw [eval_putSwap]
  generalize S.answer s₂ (.putSwap sw) = r₃ at hputSwap ⊢
  obtain ⟨s₃, e | ⟨⟩⟩ := r₃
  · have hdel := S.delete s₃ near.quoteID
    have hdel₂ := S.delete (S.answer s₃ (.delete near.quoteID)).1 far.quoteID
    rw [hdel.1, hdel.2, hputSwap.1, hputSwap.2] at hdel₂
    refine .inr ⟨some_ne_none _, .inr (.inr ?_), hdel₂.1⟩
    refine hdel₂.2.trans (funext fun id => ?_)
    simp only [written, update_apply]
    split_ifs <;> rfl
  · exact .inl ⟨rfl, hputSwap.1, hputSwap.2⟩

/-- The ids of the request are its own. -/
structure Fresh : Prop where
  nearID : S.records s near.quoteID = none
  farID : S.records s far.quoteID = none
  ne : near.quoteID ≠ far.quoteID
  swapID : S.swaps s sw.swapID = none

/-- **Atomic swap issuance**: all three entries are stored, or what was stored is taken back, and
nothing else is touched; with ids of its own, an error leaves the registry as before. -/
theorem putSwapAtomic_atomic :
    (((issue S s near far sw).2 = none ∧ AllStored S s near far sw (issue S s near far sw).1) ∨
      ((issue S s near far sw).2 ≠ none ∧ TakenBack S s near far (issue S s near far sw).1)) ∧
    (Fresh S s near far sw →
      ((issue S s near far sw).2 = none ↔
        S.records (issue S s near far sw).1 near.quoteID = some near ∧
        S.records (issue S s near far sw).1 far.quoteID = some far ∧
        S.swaps (issue S s near far sw).1 sw.swapID = some sw) ∧
      ((issue S s near far sw).2 ≠ none →
        S.records (issue S s near far sw).1 = S.records s ∧
        S.swaps (issue S s near far sw).1 = S.swaps s)) := by
  have hcases := issue_cases S s near far sw
  refine ⟨hcases, fun hfresh => ?_⟩
  rcases hcases with ⟨hnone, hall⟩ | ⟨herr, hback⟩
  · refine ⟨iff_of_true hnone ⟨?_, ?_, ?_⟩, fun h => absurd hnone h⟩
    · rw [hall.records, update_of_ne hfresh.ne, update_self]
    · rw [hall.records, update_self]
    · rw [hall.swaps, update_self]
  · refine ⟨iff_of_false herr fun h => ?_, fun _ => ⟨?_, hback.swaps⟩⟩
    · rw [hback.swaps, hfresh.swapID] at h
      cases h.2.2
    · have hnear : update (S.records s) near.quoteID none = S.records s := by
        rw [← hfresh.nearID, update_eq_self]
      have hfar : update (S.records s) far.quoteID none = S.records s := by
        rw [← hfresh.farID, update_eq_self]
      rcases hback.records with h | h | h
      · exact h
      · exact h.trans hnear
      · rw [h, hnear, hfar]

def memoryAnswer (m : MemoryRegistry) : (c : LockCall) → MemoryRegistry × Answer c
  | .put rec => ((m.put rec).1, (m.put rec).2.mapError .sentinel)
  | .putSwap sw => ((m.putSwap sw).1, (m.putSwap sw).2.mapError .sentinel)
  | .delete id => (m.delete id, .ok ())
  | .stats => (m, fun _ => none)
  | .latestCross _ => (m, none)
  | .load => (m, none)
  | .now => (m, ⟨0, 0⟩)
  | .next => (m, "")
  | .nextSequence => (m, (0 : UInt64))

def memoryStore : SwapStore MemoryRegistry where
  answer := memoryAnswer
  records m id := if id = "" then none else m.records.lookup id
  swaps m id := m.swaps.lookup id
  put m rec := by
    simp only [memoryAnswer, MemoryRegistry.put]
    split_ifs with _ hid
    · exact ⟨rfl, rfl⟩
    · exact ⟨rfl, rfl⟩
    · refine ⟨rfl, funext fun id => ?_⟩
      by_cases h : id = rec.quoteID
      · subst h
        simp [written, Except.mapError, hid]
      · simp [written, Except.mapError, h]
  putSwap m sw := by
    simp only [memoryAnswer, MemoryRegistry.putSwap]
    split_ifs
    · exact ⟨rfl, rfl⟩
    · exact ⟨rfl, rfl⟩
    · refine ⟨rfl, funext fun id => ?_⟩
      by_cases h : id = sw.swapID
      · subst h
        simp [written, Except.mapError]
      · simp [written, Except.mapError, h]
  delete m id := by
    simp only [memoryAnswer, MemoryRegistry.delete]
    split_ifs with hid
    · refine ⟨rfl, funext fun id' => ?_⟩
      by_cases h : id' = id
      · simp [h, hid]
      · simp [h]
    · refine ⟨rfl, funext fun id' => ?_⟩
      by_cases h : id' = id
      · subst h
        simp
      · simp [h, AList.lookup_erase_ne]

/-- `putSwapAtomic` on an empty registry in memory. -/
def issueInMemory (swapID : String) : MemoryRegistry × Option String :=
  issue memoryStore (newMemoryRegistry 0) sampleQuote { sampleQuote with quoteID := "q2" }
    ⟨swapID, "q1", "q2", 0, 1, ""⟩

example : (issueInMemory "s1").2 = none ∧ (issueInMemory "s1").1.records.keys = ["q2", "q1"] ∧
    (issueInMemory "s1").1.swaps.keys = ["s1"] := by
  decide +kernel

/-- The index refuses a swap without an id, and both legs are taken back. -/
example : (issueInMemory "").2.isSome ∧ (issueInMemory "").1.records.keys = [] := by
  decide +kernel

end Wtg.Price.SwapIssue
