import Wtg.QuoteId.MemoryOnce

/-! # Markers and batches of the in-memory registry

`MarkConsumedMany` repeats the body of `MarkConsumed` inside its own loop and fills a slice of
answers by index. -/

namespace Wtg.QuoteId.MemoryMarkers

open Lib Lib.Runs QuoteId.Registry QuoteId.Memory MemoryRegistry

def markLoop (now : ℤ) : MemoryRegistry → List ConsumeResult → ℕ → List ConsumeRequest →
    MemoryRegistry × List ConsumeResult
  | m, out, _, [] => (m, out)
  | m, out, i, req :: reqs =>
    match m.records.lookup req.quoteID with
    | none => markLoop now m (out.set i { status := .notFound }) (i + 1) reqs
    | some rec =>
      if m.expired now rec.validUntil then
        markLoop now { m with records := m.records.erase req.quoteID
                              consumed := m.consumed.erase req.quoteID }
          (out.set i { status := .notFound }) (i + 1) reqs
      else if !rec.validAt now then
        markLoop now m (out.set i { status := .expired, record := rec }) (i + 1) reqs
      else
        match m.consumed.lookup req.quoteID with
        | some prev =>
          markLoop now m (out.set i { status := .alreadyDone, record := rec, consumedBy := prev })
            (i + 1) reqs
        | none =>
          markLoop now { m with consumed := m.consumed.insert req.quoteID req.consumerID }
            (out.set i { status := .ok, record := rec }) (i + 1) reqs

def markConsumedManyLoop (now : ℤ) (m : MemoryRegistry) (reqs : List ConsumeRequest) :
    MemoryRegistry × List ConsumeResult :=
  markLoop now m (List.replicate reqs.length { status := .unknown }) 0 reqs

lemma markLoop_cons (now : ℤ) (m : MemoryRegistry) (out : List ConsumeResult) (i : ℕ)
    (req : ConsumeRequest) (reqs : List ConsumeRequest) :
    markLoop now m out i (req :: reqs) =
      markLoop now (m.markConsumed now req).1 (out.set i (m.markConsumed now req).2) (i + 1) reqs := by
  rw [markLoop, markConsumed]
  rcases m.records.lookup req.quoteID with _ | rec
  · rfl
  simp only
  split_ifs
  · rfl
  · rfl
  · rcases m.consumed.lookup req.quoteID with _ | prev
    · rfl
    · rfl

lemma markLoop_eq (now : ℤ) : ∀ (reqs : List ConsumeRequest) (m : MemoryRegistry)
    (before after : List ConsumeResult), after.length = reqs.length →
    markLoop now m (before ++ after) before.length reqs =
      ((markConsumedMany now m reqs).1, before ++ (markConsumedMany now m reqs).2)
  | [], m, before, after, h => by
    rw [List.length_eq_zero_iff.mp h]
    rfl
  | req :: reqs, m, before, [], h => by simp at h
  | req :: reqs, m, before, a :: after, h => by
    have hset : (before ++ a :: after).set before.length (m.markConsumed now req).2 =
        (before ++ [(m.markConsumed now req).2]) ++ after := by simp
    have hnext := markLoop_eq now reqs (m.markConsumed now req).1
      (before ++ [(m.markConsumed now req).2]) after (Nat.succ.inj h)
    rw [List.length_append, List.length_singleton] at hnext
    rw [markLoop_cons, hset, hnext, markConsumedMany, List.append_assoc]
    rfl

lemma markConsumedManyLoop_eq (now : ℤ) (m : MemoryRegistry) (reqs : List ConsumeRequest) :
    markConsumedManyLoop now m reqs = markConsumedMany now m reqs :=
  markLoop_eq now reqs m [] _ List.length_replicate

lemma replies_items (now : ℤ) : ∀ (reqs : List ConsumeRequest) (m : MemoryRegistry),
    (log step m (reqs.map fun req => (now, Op.markConsumed req))).map Prod.snd =
      (markConsumedMany now m reqs).2.map fun r => .results [r]
  | [], _ => rfl
  | req :: reqs, m => congrArg (_ :: ·) (replies_items now reqs (m.markConsumed now req).1)

/-- **A batch is its items one after the other**: the same state, and the same answers. -/
theorem markConsumedMany_sequence (now : ℤ) (m : MemoryRegistry) (reqs : List ConsumeRequest) :
    final step m (reqs.map fun req => (now, .markConsumed req)) =
        (markConsumedManyLoop now m reqs).1 ∧
      (log step m (reqs.map fun req => (now, .markConsumed req))).map Prod.snd =
        (markConsumedManyLoop now m reqs).2.map fun r => .results [r] := by
  rw [markConsumedManyLoop_eq]
  exact ⟨(markConsumedMany_items now reqs m).1.symm, replies_items now reqs m⟩

/-- Every consumed quote has a record. -/
def Marked (m : MemoryRegistry) : Prop :=
  ∀ id, m.consumed.lookup id ≠ none → m.records.lookup id ≠ none

/-- The call is a `Get` of a consumed quote past its grace, which evicts the record alone. -/
def Orphans (m : MemoryRegistry) : ℤ × Op → Prop
  | (now, .get id) => m.consumed.lookup id ≠ none ∧
      ∃ rec, m.records.lookup id = some rec ∧ m.expired now rec.validUntil = true
  | _ => False

/-! ## What the calls keep -/

section

variable {m : MemoryRegistry}

lemma Marked.insertRecord (h : Marked m) (id : QuoteID) (rec : Record) :
    Marked { m with records := m.records.insert id rec } := by
  intro k hk
  show (m.records.insert id rec).lookup k ≠ none
  by_cases hkid : k = id
  · rw [hkid, AList.lookup_insert]
    exact Option.some_ne_none rec
  · rw [AList.lookup_insert_ne hkid]
    exact h k hk

lemma Marked.eraseBoth (h : Marked m) (id : QuoteID) :
    Marked { m with records := m.records.erase id, consumed := m.consumed.erase id } := by
  intro k hk
  by_cases hkid : k = id
  · rw [hkid] at hk
    exact absurd (AList.lookup_erase ..) hk
  · rw [AList.lookup_erase_ne hkid] at hk ⊢
    exact h k hk

lemma Marked.put (h : Marked m) (rec : Record) : Marked (m.put rec).1 := by
  rw [put_eq]
  split_ifs
  · exact h.insertRecord _ rec
  · exact h

lemma Marked.putMany : ∀ (recs : List Record) {m : MemoryRegistry}, Marked m → Marked (m.putMany recs)
  | [], _, h => h
  | rec :: recs, m, h => by
    rw [MemoryRegistry.putMany]
    split_ifs
    · exact Marked.putMany recs h
    · exact Marked.putMany recs (h.insertRecord rec.quoteID rec)

lemma Marked.markConsumed (h : Marked m) (now : ℤ) (req : ConsumeRequest) :
    Marked (m.markConsumed now req).1 := by
  have ho := m.markConsumed_outcome now req
  generalize m.markConsumed now req = x at ho ⊢
  cases ho with
  | absent | invalid | taken => exact h
  | evicted => exact h.eraseBoth _
  | free hr hc =>
    intro k hk
    by_cases hkid : k = req.quoteID
    · rw [hkid, hr.1]
      exact Option.some_ne_none _
    · rw [AList.lookup_insert_ne hkid] at hk
      exact h k hk

lemma Marked.markConsumedMany (now : ℤ) : ∀ (reqs : List ConsumeRequest) {m : MemoryRegistry},
    Marked m → Marked (markConsumedMany now m reqs).1
  | [], _, h => h
  | req :: reqs, _, h => Marked.markConsumedMany now reqs (h.markConsumed now req)

lemma Marked.sweep (h : Marked m) (now : ℤ) : Marked (m.sweep now).1 := by
  intro k hk
  simp only [MemoryRegistry.sweep, GoMap.lookup_eraseWhere_entries] at hk ⊢
  split_ifs at hk ⊢
  · exact absurd rfl hk
  · exact h k hk

lemma Marked.delete (h : Marked m) (id : QuoteID) : Marked (m.delete id) := by
  unfold MemoryRegistry.delete
  split_ifs
  · exact h
  · exact h.eraseBoth id

lemma marked_get_iff (h : Marked m) (now : ℤ) (id : QuoteID) :
    Marked (m.get now id).1 ↔ ¬ Orphans m (now, .get id) := by
  unfold MemoryRegistry.get
  rcases hr : m.records.lookup id with _ | rec
  · refine iff_of_true h fun ⟨_, rec, hrec, _⟩ => ?_
    cases hr.symm.trans hrec
  rcases he : m.expired now rec.validUntil with _ | _
  · refine iff_of_true (by simpa [he] using h) fun ⟨_, rec', hrec, he'⟩ => ?_
    cases hr.symm.trans hrec
    cases he.symm.trans he'
  simp only [he, if_true]
  constructor
  · exact fun hm ⟨hc, _⟩ => hm id hc (AList.lookup_erase ..)
  · intro ho k hk
    have hkid : k ≠ id := fun hkid => ho ⟨hkid ▸ hk, rec, hr, he⟩
    rw [AList.lookup_erase_ne hkid]
    exact h k hk

lemma marked_step_iff (h : Marked m) (call : ℤ × Op) :
    Marked (step m call).1 ↔ ¬ Orphans m call := by
  obtain ⟨now, op⟩ := call
  cases op with
  | get id => exact marked_get_iff h now id
  | put rec => exact iff_of_true (h.put rec) id
  | putMany recs => exact iff_of_true (Marked.putMany recs h) id
  | markConsumed req => exact iff_of_true (h.markConsumed now req) id
  | markConsumedMany reqs => exact iff_of_true (Marked.markConsumedMany now reqs h) id
  | sweep => exact iff_of_true (h.sweep now) id
  | delete id' => exact iff_of_true (h.delete id') id
  | putSwap rec =>
    refine iff_of_true ?_ id
    show Marked (m.putSwap rec).1
    unfold putSwap
    split_ifs <;> exact h
  | getSwap swapID =>
    refine iff_of_true ?_ id
    show Marked (m.getSwap now swapID).1
    unfold getSwap
    split
    · exact h
    · split <;> exact h
  | deleteSwap swapID =>
    refine iff_of_true ?_ id
    show Marked (m.deleteSwap swapID)
    unfold deleteSwap
    split_ifs <;> exact h
  | lookup _ | lookupMany _ | consumed _ => exact iff_of_true h id

lemma Marked.sweep_all (h : Marked m) {now : ℤ}
    (hexpired : ∀ id rec, m.records.lookup id = some rec → m.expired now rec.validUntil = true)
    (id : QuoteID) : (m.sweep now).1.consumed.lookup id = none := by
  by_contra hc
  obtain ⟨rec, hrec⟩ := Option.ne_none_iff_exists'.mp (h.sweep now id hc)
  simp only [MemoryRegistry.sweep, GoMap.lookup_eraseWhere_entries] at hrec
  split_ifs at hrec with hx
  exact hx (by rw [hrec]; exact hexpired id rec hrec)

end

/-- **When no marker outlives its record**: along every run in which no `Get` finds a consumed quote
past its grace, and only then; then a late `Sweep` clears all of them. -/
theorem marked_iff (grace : ℤ) (ops : List (ℤ × Op)) :
    ((∀ p, p <+: ops → Marked (final step (newMemoryRegistry grace) p)) ↔
      ∀ p call, p ++ [call] <+: ops → ¬ Orphans (final step (newMemoryRegistry grace) p) call) ∧
    ∀ m now, Marked m →
      (∀ id rec, m.records.lookup id = some rec → m.expired now rec.validUntil = true) →
      ∀ id, (m.sweep now).1.consumed.lookup id = none := by
  refine ⟨⟨fun h p call hp => ?_, fun h p => ?_⟩, fun m now hm he id => hm.sweep_all he id⟩
  · have hcall := h _ hp
    rw [final_append] at hcall
    exact (marked_step_iff (h p ((List.prefix_append p [call]).trans hp)) call).mp hcall
  · induction p using List.reverseRecOn with
    | nil => exact fun _ id hid => absurd rfl hid
    | append_singleton p call ih =>
      intro hp
      rw [final_append]
      exact (marked_step_iff (ih ((List.prefix_append p [call]).trans hp)) call).mpr (h p call hp)

theorem get_orphans_marker :
    let m := final step (newMemoryRegistry 0) [(0, .put sampleQuote), (1, .markConsumed ⟨"q1", "c"⟩),
      (11 * second, .get "q1")]
    m.consumed.lookup "q1" = some "c" ∧ m.records.lookup "q1" = none := by
  decide

end Wtg.QuoteId.MemoryMarkers
