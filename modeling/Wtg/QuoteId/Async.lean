import Wtg.QuoteId.Registry
import Wtg.Lib.Transition

/-! # The asynchronous registry

`AsyncRegistry` (`pkg/quoteid/async.go`) puts the records of the price path into a channel, from
which one worker hands them to the inner registry in batches. A `Put` sends its record and then,
as a step of its own, counts it: the worker may run in between. -/

namespace Wtg.QuoteId.Async

open Registry Lib Lib.Transition

structure AsyncRegistryOptions where
  queueSize : ℤ
  batchMax : ℤ

namespace AsyncRegistryOptions

def queueCap (opt : AsyncRegistryOptions) : ℕ :=
  if opt.queueSize ≤ 0 then 10000 else opt.queueSize.toNat

def batchCap (opt : AsyncRegistryOptions) : ℕ :=
  if opt.batchMax ≤ 0 then 200 else opt.batchMax.toNat

lemma batchCap_pos (opt : AsyncRegistryOptions) : 0 < opt.batchCap := by
  unfold batchCap
  split <;> omega

end AsyncRegistryOptions

/-- `sent` are the records the channel took, `handed` the batches given to the inner `PutMany`,
`counting` the `Put` calls between their send and `enqueued.Add(1)`; `done` says that the worker
has closed `doneC`, which is when `Close` returns nil, and `crashed` that a send panicked. -/
structure AsyncRegistry where
  queue : List Record := []
  closed : Bool := false
  batch : List Record := []
  done : Bool := false
  enqueued : ℕ := 0
  dropped : ℕ := 0
  written : ℕ := 0
  failed : ℕ := 0
  counting : ℕ := 0
  sent : List Record := []
  handed : List (List Record) := []
  crashed : Bool := false

def newAsyncRegistry : AsyncRegistry := {}

inductive Action
  | put (rec : Record)
  | count
  | receive (err : Bool)
  | tick (err : Bool)
  | close
deriving DecidableEq

/-- The worker's `flush`; `err` says how the inner `PutMany` ends. -/
def flush (err : Bool) (a : AsyncRegistry) : AsyncRegistry :=
  if a.batch = [] then a
  else
    { a with
      handed := a.handed ++ [a.batch]
      failed := if err then a.failed + a.batch.length else a.failed
      written := if err then a.written else a.written + a.batch.length
      batch := [] }

variable (opt : AsyncRegistryOptions)

/-- `Put` up to the end of its `select`. A send on a closed channel panics. -/
def put (a : AsyncRegistry) (rec : Record) : AsyncRegistry :=
  if !rec.wellFormed then a
  else if a.closed then { a with crashed := true }
  else if a.queue.length < opt.queueCap then
    { a with queue := a.queue ++ [rec], sent := a.sent ++ [rec], counting := a.counting + 1 }
  else { a with dropped := a.dropped + 1 }

/-- The worker's receive: a record, or on a drained closed channel the end of `run`. -/
def receive (err : Bool) (a : AsyncRegistry) : Option AsyncRegistry :=
  match a.queue with
  | rec :: queue =>
    let a' := { a with queue, batch := a.batch ++ [rec] }
    some (if opt.batchCap ≤ a'.batch.length then flush err a' else a')
  | [] => if a.closed then some { flush err a with done := true } else none

def step (a : AsyncRegistry) (act : Action) : Option AsyncRegistry :=
  if a.crashed then none
  else match act with
    | .put rec => some (put opt a rec)
    | .count =>
      if a.counting = 0 then none
      else some { a with enqueued := a.enqueued + 1, counting := a.counting - 1 }
    | .receive err => if a.done then none else receive opt err a
    | .tick err => if a.done then none else some (flush err a)
    | .close => some { a with closed := true }

/-- What an action does, where it is possible. -/
def Does (a : AsyncRegistry) (act : Action) (a' : AsyncRegistry) : Prop :=
  match act with
  | .put rec => put opt a rec = a'
  | .count =>
    a.counting ≠ 0 ∧ { a with enqueued := a.enqueued + 1, counting := a.counting - 1 } = a'
  | .receive err => a.done ≠ true ∧ receive opt err a = some a'
  | .tick err => a.done ≠ true ∧ flush err a = a'
  | .close => { a with closed := true } = a'

/-! ## Nothing accepted is lost -/

/-- The invariant of a run, with fewer than `n` records in the batch. -/
structure Inv (n : ℕ) (a : AsyncRegistry) : Prop where
  order : a.handed.flatten ++ a.batch ++ a.queue = a.sent
  few : a.batch.length < n
  sizes : ∀ b ∈ a.handed, b.length ≤ opt.batchCap
  counted : a.enqueued + a.counting = a.written + a.failed + a.queue.length + a.batch.length
  ended : a.done = true → a.closed = true ∧ a.queue = [] ∧ a.batch = []

variable {opt} {a a' : AsyncRegistry} {act : Action} {acts : List Action} {err : Bool}

lemma step_eq_some :
    step opt a act = some a' ↔ a.crashed ≠ true ∧ Does opt a act a' := by
  cases act <;> simp [step, Does]

lemma batch_flush (err a) : (flush err a).batch = [] := by
  unfold flush
  split <;> simp_all

lemma inv_flush (h : Inv opt (opt.batchCap + 1) a) :
    Inv opt opt.batchCap (flush err a) := by
  have hpos := opt.batchCap_pos
  obtain ⟨order, few, sizes, counted, ended⟩ := h
  unfold flush
  split
  case isTrue hnil => exact ⟨order, by simpa [hnil] using hpos, sizes, counted, ended⟩
  case isFalse =>
    refine ⟨by simpa using order, hpos, ?_, ?_, fun hdone => ?_⟩
    · intro b hb
      rcases List.mem_append.mp hb with hb | hb
      · exact sizes b hb
      · obtain rfl := List.mem_singleton.mp hb
        omega
    · cases err <;> simp only [List.length_nil, Bool.false_eq_true, if_true, if_false] <;> omega
    · exact ⟨(ended hdone).1, (ended hdone).2.1, rfl⟩

lemma inv_put (rec : Record) (h : Inv opt opt.batchCap a) :
    Inv opt opt.batchCap (put opt a rec) := by
  obtain ⟨order, few, sizes, counted, ended⟩ := h
  fun_cases put opt a rec
  case case1 => exact ⟨order, few, sizes, counted, ended⟩
  case case2 => exact ⟨order, few, sizes, counted, ended⟩
  case case3 _ hopen _ =>
    refine ⟨by simp [← order], few, sizes, ?_, fun hdone => absurd (ended hdone).1 hopen⟩
    simp only [List.length_append, List.length_singleton]
    omega
  case case4 => exact ⟨order, few, sizes, counted, ended⟩

lemma inv_receive (h : Inv opt opt.batchCap a)
    (hrun : a.done ≠ true) (hstep : receive opt err a = some a') : Inv opt opt.batchCap a' := by
  revert hstep
  obtain ⟨order, few, sizes, counted, ended⟩ := h
  fun_cases receive opt err a <;> rintro ⟨⟩
  case case1 rec queue hq taken =>
    have htaken : Inv opt (opt.batchCap + 1) taken := by
      refine ⟨by simp [taken, ← order, hq], ?_, sizes, ?_, fun hdone => absurd hdone hrun⟩
      · simpa [taken] using few
      · simp only [hq, List.length_cons] at counted
        simp only [taken, List.length_append, List.length_singleton]
        omega
    split
    case isTrue => exact inv_flush htaken
    case isFalse hfew => exact { htaken with few := not_le.mp hfew }
  case case2 hq hclosed =>
    have hflush : Inv opt opt.batchCap (flush err a) :=
      inv_flush ⟨order, by omega, sizes, counted, ended⟩
    refine { hflush with ended := fun _ => ⟨?_, ?_, batch_flush err a⟩ }
    all_goals
      unfold flush
      split <;> assumption

lemma inv_step (h : Inv opt opt.batchCap a)
    (hstep : step opt a act = some a') : Inv opt opt.batchCap a' := by
  have hfew := h.few
  have hcounted := h.counted
  obtain ⟨-, hdoes⟩ := step_eq_some.mp hstep
  cases act
  case put rec =>
    obtain rfl := hdoes
    exact inv_put rec h
  case count =>
    obtain ⟨hsent, rfl⟩ := hdoes
    exact { h with counted := by simp only; omega }
  case receive err => exact inv_receive h hdoes.1 hdoes.2
  case tick err =>
    obtain ⟨-, rfl⟩ := hdoes
    exact inv_flush { h with few := by omega }
  case close =>
    obtain rfl := hdoes
    exact { h with ended := fun hdone => ⟨rfl, (h.ended hdone).2⟩ }

/-- **Nothing accepted is lost**: the batches have at most `BatchMax` records and hold, in order,
what was sent and is no longer queued or batched; when the worker has ended they hold all of it.
Each record sent is counted, or its `Put` is still about to. -/
theorem handed_over (hrun : run (step opt) newAsyncRegistry acts = some a) :
    a.handed.flatten ++ a.batch ++ a.queue = a.sent ∧
      (∀ b ∈ a.handed, b.length ≤ opt.batchCap) ∧
      a.enqueued + a.counting = a.written + a.failed + a.queue.length + a.batch.length ∧
      (a.done = true → a.handed.flatten = a.sent) := by
  have hstart : Inv opt opt.batchCap newAsyncRegistry :=
    ⟨rfl, opt.batchCap_pos, by simp [newAsyncRegistry], rfl, by simp [newAsyncRegistry]⟩
  have h : Inv opt opt.batchCap a := invariant (step opt) (P := Inv opt opt.batchCap)
    (fun _ _ _ h _ => inv_step h) hstart (along_of_forall _ (fun _ _ => trivial) acts _) hrun
  refine ⟨h.order, h.sizes, h.counted, fun hdone => ?_⟩
  obtain ⟨-, hqueue, hbatch⟩ := h.ended hdone
  simpa [hqueue, hbatch] using h.order

def oneByOne : AsyncRegistryOptions := ⟨0, 1⟩

def shutdown : List Action :=
  [.put sampleQuote, .receive false, .count, .close, .receive false]

def afterShutdown : AsyncRegistry :=
  { closed := true, done := true, enqueued := 1, written := 1, sent := [sampleQuote]
    handed := [[sampleQuote]] }

lemma run_shutdown : run (step oneByOne) newAsyncRegistry shutdown = some afterShutdown := rfl

theorem handed_over_shutdown :
    run (step oneByOne) newAsyncRegistry shutdown = some afterShutdown ∧
      afterShutdown.handed.flatten = afterShutdown.sent :=
  ⟨run_shutdown, (handed_over run_shutdown).2.2.2 rfl⟩

/-- The worker may write a record before its `Put` has counted it. -/
theorem written_before_counted :
    ∃ a, run (step oneByOne) newAsyncRegistry (shutdown.take 2) = some a ∧
      a.enqueued ≠ a.written + a.failed + a.queue.length + a.batch.length :=
  ⟨_, rfl, by decide⟩

/-! ## Shutdown -/

lemma closed_flush (err a) :
    (flush err a).closed = a.closed ∧ (flush err a).crashed = a.crashed := by
  unfold flush
  split <;> exact ⟨rfl, rfl⟩

lemma closed_put (a : AsyncRegistry) (rec : Record) :
    (put opt a rec).closed = a.closed ∧
      (put opt a rec).crashed = (a.crashed || (rec.wellFormed && a.closed)) := by
  fun_cases put opt a rec <;> simp_all

lemma closed_receive (h : receive opt err a = some a') :
    a'.closed = a.closed ∧ a'.crashed = a.crashed := by
  revert h
  fun_cases receive opt err a <;> rintro ⟨⟩
  case case1 =>
    split
    · exact closed_flush err _
    · exact ⟨rfl, rfl⟩
  case case2 => exact closed_flush err a

lemma closed_step (hstep : step opt a act = some a') :
    (a'.closed = true ↔ a.closed = true ∨ act = .close) ∧
      (a'.crashed = true ↔ a.closed = true ∧ ∃ rec, rec.wellFormed = true ∧ act = .put rec) := by
  obtain ⟨hup, hdoes⟩ := step_eq_some.mp hstep
  cases act
  case put rec =>
    obtain rfl := hdoes
    simp [closed_put, hup, and_comm]
  case count =>
    obtain ⟨-, rfl⟩ := hdoes
    simp [hup]
  case receive err =>
    obtain ⟨hclosed, hcrashed⟩ := closed_receive hdoes.2
    simp [hclosed, hcrashed, hup]
  case tick err =>
    obtain ⟨-, rfl⟩ := hdoes
    simp [closed_flush, hup]
  case close =>
    obtain rfl := hdoes
    simp [hup]

/-- **Shutdown**: a run crashes just when a well-formed record is put after a `Close`. -/
theorem crashed_iff (hrun : run (step opt) newAsyncRegistry acts = some a) :
    a.crashed = true ↔ ∃ rec, rec.wellFormed = true ∧ Once (.close ∈ ·) (.put rec) acts := by
  refine (history_run (step opt) (P := fun past a => (a.closed = true ↔ .close ∈ past) ∧
    (a.crashed = true ↔ ∃ rec, rec.wellFormed = true ∧ Once (.close ∈ ·) (.put rec) past))
    (by simp [newAsyncRegistry, not_once_nil]) ?_ acts a hrun).2
  intro past a₁ act a₂ _ ⟨hclosed, hcrashed⟩ hstep
  obtain ⟨hclosed', hcrashed'⟩ := closed_step hstep
  have hup : ¬ ∃ rec, rec.wellFormed = true ∧ Once (.close ∈ ·) (.put rec) past :=
    hcrashed.not.mp (step_eq_some.mp hstep).1
  constructor
  · simp [hclosed', hclosed, eq_comm]
  · rw [hcrashed', hclosed]
    constructor
    · rintro ⟨hpast, rec, hrec, rfl⟩
      exact ⟨rec, hrec, once_append_singleton.mpr (.inr ⟨rfl, hpast⟩)⟩
    · rintro ⟨rec, hrec, honce⟩
      rcases once_append_singleton.mp honce with honce | ⟨rfl, hpast⟩
      · exact absurd ⟨rec, hrec, honce⟩ hup
      · exact ⟨hpast, rec, hrec, rfl⟩

theorem crashed_iff_shutdown :
    ¬ ∃ rec, rec.wellFormed = true ∧ Once (Action.close ∈ ·) (.put rec) shutdown :=
  (crashed_iff run_shutdown).not.mp (by decide)

/-- A price is put while the process shuts down. -/
theorem put_after_close :
    ∃ a, run (step oneByOne) newAsyncRegistry [.close, .put sampleQuote] = some a ∧
      a.crashed = true :=
  ⟨_, rfl, by decide⟩

end Wtg.QuoteId.Async
