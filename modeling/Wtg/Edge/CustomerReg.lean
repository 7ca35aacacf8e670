import Mathlib.Data.Fintype.Basic
import Wtg.Lib.GoMap
import Wtg.Lib.KeyedLog
import Wtg.Lib.Transition

/-! # What the price server learns of an edge's customers

`customerRegManager` (`internal/edge/price/customer_reg.go`). The manager counts the connections of
each customer and their sources under a lock. -/

namespace Wtg.Edge.CustomerReg

open Lib Lib.KeyedLog List Option Function AList

structure CustRegState where
  profileKey : String
  conns : ℤ
  srcRefs : GoMap String ℕ

def CustRegState.sourcesUnion (st : CustRegState) : List String := st.srcRefs.keys

def addSource (refs : GoMap String ℕ) (src : String) : GoMap String ℕ :=
  if src = "" then refs else refs.insert src ((refs.lookup src).getD 0 + 1)

def dropSource (refs : GoMap String ℕ) (src : String) : GoMap String ℕ :=
  if src = "" then refs else
  match refs.lookup src with
  | none | some 0 => refs
  | some 1 => refs.erase src
  | some (n + 2) => refs.insert src (n + 1)

inductive Registration
  | register (customerID profileKey : String) (sources : List String)
  | unregister (customerID : String)
  deriving DecidableEq, Repr

def Registration.customerID : Registration → String
  | .register customerID _ _ => customerID
  | .unregister customerID => customerID

def Registration.entry : Registration → Option (String × Finset String)
  | .register _ profileKey sources => some (profileKey, sources.toFinset)
  | .unregister _ => none

abbrev Active := GoMap String CustRegState

namespace Active

variable (active : Active)

def entry (cid : String) : Option (String × Finset String) :=
  (active.lookup cid).map fun st => (st.profileKey, st.sourcesUnion.toFinset)

def message (cid : String) : Registration :=
  match active.lookup cid with
  | some st => .register cid st.profileKey st.sourcesUnion
  | none => .unregister cid

/-- `Register`, under the lock; nothing without a customer or a profile. -/
def register (customerID profileKey : String) (sources : List String) :
    Option (Active × Registration) :=
  if customerID = "" || profileKey = "" then none else
  let st := (active.lookup customerID).getD ⟨profileKey, 0, ∅⟩
  let st' : CustRegState := ⟨profileKey, st.conns + 1, sources.foldl addSource st.srcRefs⟩
  some (active.insert customerID st', .register customerID profileKey st'.sourcesUnion)

/-- `Unregister`, under the lock; nothing for a customer that is not active. -/
def unregister (customerID : String) (sources : List String) : Option (Active × Registration) :=
  if customerID = "" then none else
  match active.lookup customerID with
  | none => none
  | some st =>
    let st' : CustRegState := ⟨st.profileKey, st.conns - 1, sources.foldl dropSource st.srcRefs⟩
    if st'.conns ≤ 0 then some (active.erase customerID, .unregister customerID)
    else some (active.insert customerID st',
      .register customerID st'.profileKey st'.sourcesUnion)

variable {active}

lemma customerID_message (cid : String) : (active.message cid).customerID = cid := by
  unfold message
  split <;> rfl

lemma entry_message (cid : String) : (active.message cid).entry = active.entry cid := by
  unfold message entry
  cases active.lookup cid <;> rfl

end Active

structure Announced (active : Active) (cid : String) (change : Active × Registration) : Prop where
  message : change.2 = change.1.message cid
  others : ∀ c, c ≠ cid → change.1.lookup c = active.lookup c

namespace Active

variable {active : Active} {change : Active × Registration} {sources : List String}

lemma register_announced {cid profileKey : String}
    (h : active.register cid profileKey sources = some change) : Announced active cid change := by
  unfold register at h
  split_ifs at h
  obtain rfl := some.inj h
  refine ⟨?_, fun c hc => lookup_insert_ne hc⟩
  simp only [message, lookup_insert]

lemma unregister_announced {cid : String}
    (h : active.unregister cid sources = some change) : Announced active cid change := by
  revert h
  fun_cases unregister active cid sources <;> rintro ⟨⟩
  case case3 =>
    refine ⟨?_, fun c hc => lookup_erase_ne hc⟩
    simp only [message, lookup_erase]
  case case4 =>
    refine ⟨?_, fun c hc => lookup_insert_ne hc⟩
    simp only [message, lookup_insert]

end Active

inductive Phase
  | down
  | healing (todo : List String)
  | sending (held : Option Registration)

def Phase.held : Phase → List Registration
  | .sending (some reg) => [reg]
  | .down | .healing _ | .sending none => []

/-- `customerRegManager`: the active customers, the queue, the calls that changed the state and have
not enqueued yet, the sender, and what was sent on the current stream. -/
structure State (ι : Type) where
  active : Active
  queue : List Registration
  pending : ι → Option Registration
  phase : Phase
  sent : List Registration

def newCustomerRegManager (ι : Type) : State ι := ⟨∅, [], fun _ => none, .down, []⟩

def queueCap : ℕ := 1024

def enqueue (queue : List Registration) (reg : Registration) : List Registration :=
  if queue.length < queueCap then queue ++ [reg] else queue

/-- The steps of the calls, which change the state and enqueue a message, and of the sender: it
opens a stream, heals the active customers, and takes and sends messages. -/
inductive Action (ι : Type)
  | register (i : ι) (customerID profileKey : String) (sources : List String)
  | unregister (i : ι) (customerID : String) (sources : List String)
  | enqueue (i : ι)
  | connect (order : List String)
  | heal
  | healed
  | take
  | send (ok : Bool)
  | disconnect

/-! ## The manager -/

section

variable {ι : Type}

section

variable [DecidableEq ι]

def State.change (s : State ι) (i : ι) (change : Option (Active × Registration)) :
    Option (State ι) :=
  match s.phase, s.pending i, change with
  | .healing _, _, _ => none
  | _, some _, _ => none
  | _, none, none => some s
  | _, none, some (active, reg) =>
    some { s with active := active, pending := Function.update s.pending i (some reg) }

def step (s : State ι) : Action ι → Option (State ι)
  | .register i customerID profileKey sources =>
    s.change i (s.active.register customerID profileKey sources)
  | .unregister i customerID sources => s.change i (s.active.unregister customerID sources)
  | .enqueue i =>
    match s.pending i with
    | none => none
    | some reg => some { s with
        queue := CustomerReg.enqueue s.queue reg, pending := Function.update s.pending i none }
  | .connect order =>
    match s.phase with
    | .down =>
      if order.Perm s.active.keys then some { s with phase := .healing order, sent := [] } else none
    | _ => none
  | .heal =>
    match s.phase with
    | .healing (cid :: todo) => some { s with
        queue := CustomerReg.enqueue s.queue (s.active.message cid), phase := .healing todo }
    | _ => none
  | .healed =>
    match s.phase with
    | .healing [] => some { s with phase := .sending none }
    | _ => none
  | .take =>
    match s.phase, s.queue with
    | .sending none, reg :: queue => some { s with queue := queue, phase := .sending (some reg) }
    | _, _ => none
  | .send ok =>
    match s.phase with
    | .sending (some reg) =>
      if ok then some { s with phase := .sending none, sent := s.sent ++ [reg] }
      else some { s with phase := .down }
    | _ => none
  | .disconnect =>
    match s.phase with
    | .sending none => some { s with phase := .down }
    | _ => none

inductive Does (s : State ι) : Action ι → State ι → Prop
  | register {i customerID profileKey sources s'}
      (h : s.change i (s.active.register customerID profileKey sources) = some s') :
      Does s (.register i customerID profileKey sources) s'
  | unregister {i customerID sources s'}
      (h : s.change i (s.active.unregister customerID sources) = some s') :
      Does s (.unregister i customerID sources) s'
  | enqueue {i reg} (h : s.pending i = some reg) : Does s (.enqueue i)
      { s with
        queue := CustomerReg.enqueue s.queue reg, pending := Function.update s.pending i none }
  | connect {order} (h : s.phase = .down) (horder : order.Perm s.active.keys) :
      Does s (.connect order) { s with phase := .healing order, sent := [] }
  | heal {cid todo} (h : s.phase = .healing (cid :: todo)) : Does s .heal
      { s with
        queue := CustomerReg.enqueue s.queue (s.active.message cid), phase := .healing todo }
  | healed (h : s.phase = .healing []) : Does s .healed { s with phase := .sending none }
  | take {reg queue} (h : s.phase = .sending none) (hqueue : s.queue = reg :: queue) :
      Does s .take { s with queue := queue, phase := .sending (some reg) }
  | sent {reg} (h : s.phase = .sending (some reg)) :
      Does s (.send true) { s with phase := .sending none, sent := s.sent ++ [reg] }
  | lost {reg} (h : s.phase = .sending (some reg)) : Does s (.send false) { s with phase := .down }
  | disconnect (h : s.phase = .sending none) : Does s .disconnect { s with phase := .down }

lemma does_of_step {s s' : State ι} {a : Action ι} (h : step s a = some s') : Does s a s' := by
  revert h
  fun_cases step s a <;> intro h
  case case1 => exact .register h
  case case2 => exact .unregister h
  all_goals cases h
  case case4 i reg hi => exact .enqueue hi
  case case5 order hphase horder => exact .connect hphase horder
  case case8 cid todo hphase => exact .heal hphase
  case case10 hphase => exact .healed hphase
  case case12 reg queue hqueue hphase => exact .take hphase hqueue
  case case14 reg hphase => exact .sent hphase
  case case15 ok reg hphase hok =>
    rw [Bool.eq_false_of_not_eq_true hok]
    exact .lost hphase
  case case17 hphase => exact .disconnect hphase

end

def NoPending (s : State ι) (c : String) : Prop := ∀ i, ∀ reg ∈ s.pending i, reg.customerID ≠ c

def Room (s : State ι) : Prop := s.queue.length < queueCap

/-- **An orderly step** for a customer: its state changes only while no call is about to enqueue a
message for it, and its messages find room in the queue. -/
def Orderly (c : String) (s : State ι) : Action ι → Prop
  | .register _ customerID _ _ => customerID = c → NoPending s c
  | .unregister _ customerID _ => customerID = c → NoPending s c
  | .enqueue i => ∀ reg ∈ s.pending i, reg.customerID = c → Room s
  | .heal =>
    match s.phase with
    | .healing (cid :: _) => cid = c → Room s
    | _ => True
  | .connect _ | .healed | .take | .send _ | .disconnect => True

instance [Fintype ι] (s : State ι) (c : String) : Decidable (NoPending s c) :=
  inferInstanceAs (Decidable (∀ _, _))

instance (s : State ι) : Decidable (Room s) := inferInstanceAs (Decidable (_ < _))

instance [Fintype ι] (c : String) (s : State ι) : ∀ a, Decidable (Orderly c s a)
  | .register _ customerID _ _ => inferInstanceAs (Decidable (_ → _))
  | .unregister _ customerID _ => inferInstanceAs (Decidable (_ → _))
  | .enqueue i => inferInstanceAs (Decidable (∀ _ ∈ _, _))
  | .heal =>
    match h : s.phase with
    | .healing (cid :: _) => decidable_of_iff (cid = c → Room s) (by simp only [Orderly, h])
    | .down | .healing [] | .sending _ => .isTrue (by simp only [Orderly, h])
  | .connect _ | .healed | .take | .send _ | .disconnect => .isTrue trivial

def State.ahead (s : State ι) : List Registration := s.phase.held ++ s.queue

/-- A stream is open, and the customer is not among those to be healed. -/
def State.Reached (s : State ι) (c : String) : Prop :=
  match s.phase with
  | .down => False
  | .healing todo => c ∉ todo
  | .sending _ => True

structure Inv (c : String) (s : State ι) : Prop where
  single : ∀ i j, ∀ reg ∈ s.pending i, ∀ reg' ∈ s.pending j, reg.customerID = c →
    reg'.customerID = c → i = j
  pending : ∀ i, ∀ reg ∈ s.pending i, reg.customerID = c → reg = s.active.message c
  latest : NoPending s c → ∀ reg, latest Registration.customerID c s.ahead = some reg →
    reg = s.active.message c
  synced : NoPending s c → s.Reached c → KeyedLog.latest Registration.customerID c s.ahead = none →
    replay Registration.customerID Registration.entry s.sent c = s.active.entry c

lemma inv_new (c : String) : Inv c (newCustomerRegManager ι) where
  single _ _ _ h := nomatch h
  pending _ _ h := nomatch h
  latest _ _ h := nomatch h
  synced _ h := nomatch h

variable {c : String} {s s' : State ι}

lemma Inv.sender (h : Inv c s) (hactive : s'.active = s.active)
    (hpending : s'.pending = s.pending)
    (hlatest : ∀ reg, KeyedLog.latest Registration.customerID c s'.ahead = some reg →
      KeyedLog.latest Registration.customerID c s.ahead = some reg ∨ reg = s.active.message c)
    (hsynced : NoPending s c → s'.Reached c →
      KeyedLog.latest Registration.customerID c s'.ahead = none →
      replay Registration.customerID Registration.entry s'.sent c = s.active.entry c) :
    Inv c s' := by
  have hno : NoPending s' c → NoPending s c := by
    intro hno
    unfold NoPending at hno
    rwa [hpending] at hno
  refine ⟨?_, ?_, fun hn reg hreg => ?_, fun hn hreached hnone => ?_⟩
  · rw [hpending]
    exact h.single
  · rw [hpending, hactive]
    exact h.pending
  · rw [hactive]
    rcases hlatest reg hreg with hold | hnew
    · exact h.latest (hno hn) reg hold
    · exact hnew
  · rw [hactive]
    exact hsynced (hno hn) hreached hnone

variable {reg : Registration} {queue : List Registration} {cid : String}

lemma latest_enqueue_of_ne (hreg : reg.customerID ≠ c) (held queue : List Registration) :
    KeyedLog.latest Registration.customerID c (held ++ enqueue queue reg) =
      KeyedLog.latest Registration.customerID c (held ++ queue) := by
  unfold enqueue
  split_ifs
  · rw [← append_assoc, latest_append_of_ne hreg]
  · rfl

lemma latest_enqueue_self (hreg : reg.customerID = c) (hroom : queue.length < queueCap)
    (held : List Registration) :
    KeyedLog.latest Registration.customerID c (held ++ enqueue queue reg) = some reg := by
  unfold enqueue
  rw [if_pos hroom, ← append_assoc, latest_append_self hreg]

lemma Inv.connect (h : Inv c s) (hphase : s.phase = .down) {order : List String}
    (horder : order.Perm s.active.keys) : Inv c { s with phase := .healing order, sent := [] } := by
  refine h.sender rfl rfl (fun reg hreg => .inl ?_) fun _ hreached _ => ?_
  · unfold State.ahead
    rw [hphase]
    exact hreg
  · have hnot : c ∉ s.active := fun hmem => hreached (horder.mem_iff.mpr (mem_keys.mp hmem))
    unfold Active.entry
    rw [lookup_eq_none.mpr hnot]
    rfl

lemma Inv.heal (h : Inv c s) {todo : List String} (hphase : s.phase = .healing (cid :: todo))
    (hroom : cid = c → Room s) :
    Inv c { s with
      queue := CustomerReg.enqueue s.queue (s.active.message cid), phase := .healing todo } := by
  have hid : (s.active.message cid).customerID = cid := Active.customerID_message cid
  have hahead : s.ahead = s.queue := by
    unfold State.ahead
    rw [hphase]
    rfl
  by_cases hc : cid = c
  · subst hc
    have hlatest := latest_enqueue_self hid (hroom rfl) []
    refine h.sender rfl rfl (fun reg hreg => .inr ?_) fun _ _ hnone => ?_
    · exact (some.inj (hlatest.symm.trans hreg)).symm
    · exact absurd (hlatest.symm.trans hnone) nofun
  · have hlatest := latest_enqueue_of_ne (hid.trans_ne hc) [] s.queue
    refine h.sender rfl rfl (fun reg hreg => .inl ?_) fun hno hreached hnone => ?_
    · rw [hahead]
      exact hlatest.symm.trans hreg
    · refine h.synced hno ?_ (by rw [hahead]; exact hlatest.symm.trans hnone)
      unfold State.Reached
      rw [hphase]
      exact not_mem_cons_of_ne_of_not_mem (Ne.symm hc) hreached

lemma Inv.same (h : Inv c s) {phase : Phase} (hahead : phase.held ++ queue = s.ahead)
    (hreached : phase = .down ∨ s.Reached c) : Inv c { s with queue := queue, phase := phase } := by
  refine h.sender rfl rfl (fun reg hreg => .inl (hahead ▸ hreg)) fun hno hr hnone => ?_
  rcases hreached with rfl | hold
  · exact absurd hr id
  · exact h.synced hno hold (hahead ▸ hnone)

lemma Inv.sent (h : Inv c s) (hphase : s.phase = .sending (some reg)) :
    Inv c { s with phase := .sending none, sent := s.sent ++ [reg] } := by
  have hahead : s.ahead = reg :: s.queue := by
    unfold State.ahead
    rw [hphase]
    rfl
  have hreached : s.Reached c := by
    unfold State.Reached
    rw [hphase]
    exact trivial
  refine h.sender rfl rfl (fun r hr => .inl ?_) fun hno _ hnone => ?_
  · rw [hahead]
    exact latest_cons_of_some hr reg
  · by_cases hc : reg.customerID = c
    · -- the last message ahead is the last one sent now
      have hlast : KeyedLog.latest Registration.customerID c s.ahead = some reg := by
        rw [hahead]
        exact latest_cons_self hnone hc
      rw [replay_append_self hc, h.latest hno reg hlast, Active.entry_message]
    · have hold : KeyedLog.latest Registration.customerID c s.ahead = none := by
        rw [hahead, latest_cons_of_ne hc]
        exact hnone
      rw [replay_append_of_ne hc]
      exact h.synced hno hreached hold

lemma Inv.lost (h : Inv c s) (hphase : s.phase = .sending (some reg)) :
    Inv c { s with phase := .down } := by
  refine h.sender rfl rfl (fun r hr => .inl ?_) fun _ hr => absurd hr id
  unfold State.ahead
  rw [hphase]
  exact latest_cons_of_some hr reg

/-- **Nothing is on its way**: no call is in progress, the queue is empty, and the sender waits for
messages on an open stream. -/
structure Quiet (s : State ι) : Prop where
  noCall : ∀ i, s.pending i = none
  queue : s.queue = []
  phase : s.phase = .sending none

lemma Inv.synced_of_quiet (h : Inv c s) (hquiet : Quiet s) :
    replay Registration.customerID Registration.entry s.sent c = s.active.entry c := by
  refine h.synced (fun i reg hreg => ?_) ?_ ?_
  · rw [hquiet.noCall i] at hreg
    cases hreg
  · simp only [State.Reached, hquiet.phase]
  · simp only [State.ahead, hquiet.phase, hquiet.queue, Phase.held, append_nil, latest_nil]

/-! ## What the calls keep -/

variable [DecidableEq ι] {x : Option Registration}

lemma mem_update {i j : ι} (h : reg ∈ update s.pending i x j) :
    (j = i ∧ reg ∈ x) ∨ (j ≠ i ∧ reg ∈ s.pending j) := by
  by_cases hj : j = i
  · rw [hj, update_self] at h
    exact .inl ⟨hj, h⟩
  · rw [update_of_ne hj] at h
    exact .inr ⟨hj, h⟩

variable {i : ι}

lemma NoPending.of_update (h : NoPending s' c)
    (hpending : s'.pending = update s.pending i x)
    (hi : ∀ reg ∈ s.pending i, reg.customerID ≠ c) : NoPending s c := by
  intro j reg hreg
  by_cases hj : j = i
  · exact hi reg (hj ▸ hreg)
  · refine h j reg ?_
    rwa [hpending, update_of_ne hj]

variable {change : Active × Registration}

lemma Inv.change_self (h : NoPending s c)
    (hchange : Announced s.active c change) :
    Inv c { s with active := change.1
                   pending := update s.pending i (some change.2) } := by
  have hmine : ∀ j, ∀ reg ∈ update s.pending i (some change.2) j, reg.customerID = c →
      j = i ∧ reg = change.2 := by
    intro j reg hreg hr
    rcases mem_update hreg with ⟨hj, hnew⟩ | ⟨-, hold⟩
    · exact ⟨hj, (mem_some_iff.mp hnew).symm⟩
    · exact absurd hr (h j reg hold)
  have hpend : ¬ NoPending { s with
      active := change.1, pending := update s.pending i (some change.2) } c := by
    refine fun hn => hn i change.2 (by simp) ?_
    rw [hchange.message]
    exact Active.customerID_message c
  refine ⟨fun j k reg hreg reg' hreg' hr hr' => ?_, fun j reg hreg hr => ?_,
    fun hn => absurd hn hpend, fun hn => absurd hn hpend⟩
  · exact (hmine j reg hreg hr).1.trans (hmine k reg' hreg' hr').1.symm
  · exact (hmine j reg hreg hr).2.trans hchange.message

lemma Inv.change_other (h : Inv c s)
    (hfree : s.pending i = none) (hchange : Announced s.active cid change) (hc : c ≠ cid) :
    Inv c { s with active := change.1
                   pending := update s.pending i (some change.2) } := by
  have hlookup : change.1.lookup c = s.active.lookup c := hchange.others c hc
  have hmessage : change.1.message c = s.active.message c := by
    unfold Active.message
    rw [hlookup]
  have hentry : change.1.entry c = s.active.entry c := by
    unfold Active.entry
    rw [hlookup]
  have hold : ∀ j, ∀ reg ∈ update s.pending i (some change.2) j, reg.customerID = c →
      reg ∈ s.pending j := by
    intro j reg hreg hr
    rcases mem_update hreg with ⟨-, hnew⟩ | ⟨-, hold⟩
    · obtain rfl := mem_some_iff.mp hnew
      rw [hchange.message, Active.customerID_message] at hr
      exact absurd hr.symm hc
    · exact hold
  have hno : NoPending { s with
      active := change.1, pending := update s.pending i (some change.2) } c →
      NoPending s c := by
    refine fun hn => hn.of_update rfl fun reg hreg => ?_
    rw [hfree] at hreg
    cases hreg
  refine ⟨fun j k reg hreg reg' hreg' hr hr' => ?_, fun j reg hreg hr => ?_,
    fun hn reg hreg => ?_, fun hn hreached hnone => ?_⟩
  · exact h.single j k reg (hold j reg hreg hr) reg' (hold k reg' hreg' hr') hr hr'
  · rw [hmessage]
    exact h.pending j reg (hold j reg hreg hr) hr
  · rw [hmessage]
    exact h.latest (hno hn) reg hreg
  · rw [hentry]
    exact h.synced (hno hn) hreached hnone

lemma Inv.enqueue (h : Inv c s) (hi : s.pending i = some reg)
    (hroom : reg.customerID = c → Room s) :
    Inv c { s with
      queue := enqueue s.queue reg, pending := update s.pending i none } := by
  have hold : ∀ j, ∀ r ∈ update s.pending i none j, r ∈ s.pending j := by
    intro j r hr
    rcases mem_update hr with ⟨-, hnone⟩ | ⟨-, hold⟩
    · cases hnone
    · exact hold
  have hsingle : ∀ j k, ∀ r ∈ update s.pending i none j,
      ∀ r' ∈ update s.pending i none k, r.customerID = c → r'.customerID = c → j = k :=
    fun j k r hr r' hr' => h.single j k r (hold j r hr) r' (hold k r' hr')
  have hpending : ∀ j, ∀ r ∈ update s.pending i none j, r.customerID = c →
      r = s.active.message c := fun j r hr => h.pending j r (hold j r hr)
  by_cases hc : reg.customerID = c
  · have hlatest := latest_enqueue_self hc (hroom hc) s.phase.held
    refine ⟨hsingle, hpending, fun _ r hr => ?_, fun _ _ hnone => ?_⟩
    · obtain rfl := some.inj (hlatest.symm.trans hr)
      exact h.pending i reg hi hc
    · exact absurd (hlatest.symm.trans hnone) nofun
  · have hlatest := latest_enqueue_of_ne hc s.phase.held s.queue
    have hno : NoPending { s with
        queue := CustomerReg.enqueue s.queue reg, pending := update s.pending i none } c →
        NoPending s c := by
      refine fun hn => hn.of_update rfl fun r hr => ?_
      rw [hi] at hr
      obtain rfl := some.inj hr
      exact hc
    refine ⟨hsingle, hpending, fun hn r hr => ?_, fun hn hreached hnone => ?_⟩
    · exact h.latest (hno hn) r (hlatest.symm.trans hr)
    · exact h.synced (hno hn) hreached (hlatest.symm.trans hnone)

lemma Inv.changed (h : Inv c s) {change : Option (Active × Registration)}
    (hchange : ∀ x, change = some x → Announced s.active cid x) (hno : cid = c → NoPending s c)
    (hstep : s.change i change = some s') : Inv c s' := by
  unfold State.change at hstep
  split at hstep
  · cases hstep
  · cases hstep
  · obtain rfl := some.inj hstep
    exact h
  · rename_i hfree _
    obtain rfl := some.inj hstep
    by_cases hc : c = cid
    · subst hc
      exact .change_self (hno rfl) (hchange _ rfl)
    · exact h.change_other hfree (hchange _ rfl) hc

lemma Inv.step (h : Inv c s) {a : Action ι} (hgood : Orderly c s a)
    (hstep : CustomerReg.step s a = some s') : Inv c s' := by
  cases does_of_step hstep with
  | register hchange => exact h.changed (fun _ => Active.register_announced) hgood hchange
  | unregister hchange => exact h.changed (fun _ => Active.unregister_announced) hgood hchange
  | enqueue hi => exact h.enqueue hi (hgood _ hi)
  | connect hphase horder => exact h.connect hphase horder
  | heal hphase =>
    simp only [Orderly, hphase] at hgood
    exact h.heal hphase hgood
  | healed hphase =>
    refine h.same ?_ (.inr ?_)
    · simp only [State.ahead, hphase, Phase.held]
    · simp only [State.Reached, hphase, not_mem_nil, not_false_iff]
  | take hphase hqueue =>
    refine h.same ?_ (.inr ?_)
    · simp only [State.ahead, hphase, hqueue, Phase.held, nil_append, cons_append]
    · simp only [State.Reached, hphase]
  | sent hphase => exact h.sent hphase
  | lost hphase => exact h.lost hphase
  | disconnect hphase =>
    refine h.same ?_ (.inl rfl)
    simp only [State.ahead, hphase, Phase.held]

/-- **The price server learns the final state**: in every orderly run, whenever nothing is on its
way, the messages sent give an empty registry the customer's entry. -/
theorem learned (c : String) {acts : List (Action ι)} {s : State ι}
    (hgood : Transition.Along step (Orderly c) (newCustomerRegManager ι) acts)
    (hrun : Transition.run step (newCustomerRegManager ι) acts = some s) (hquiet : Quiet s) :
    replay Registration.customerID Registration.entry s.sent c = s.active.entry c := by
  have hinv : Inv c s := Transition.invariant _ (fun _ _ _ h hgood hstep => h.step hgood hstep)
    (inv_new c) hgood hrun
  exact hinv.synced_of_quiet hquiet

end

def twoConnections : List (Action Bool) :=
  [.register false "C1" "WEB.SEL.GOLD" [], .enqueue false, .connect ["C1"], .heal, .healed, .take,
    .send true, .register true "C1" "WEB.SEL.GOLD" ["LP1"], .enqueue true, .take, .send true, .take,
    .send true]

theorem learned_twoConnections :
    Transition.Along step (Orderly "C1") (newCustomerRegManager Bool) twoConnections ∧
    ∃ s, Transition.run step (newCustomerRegManager Bool) twoConnections = some s ∧ Quiet s ∧
      s.active.entry "C1" = some ("WEB.SEL.GOLD", {"LP1"}) ∧
      replay Registration.customerID Registration.entry s.sent "C1" = s.active.entry "C1" := by
  have hgood : Transition.Along step (Orderly "C1") (newCustomerRegManager Bool)
      twoConnections := by
    decide
  exact ⟨hgood, _, rfl, ⟨by decide, rfl, rfl⟩, rfl, learned "C1" hgood rfl ⟨by decide, rfl, rfl⟩⟩

theorem learned_wrong :
    ∃ s, Transition.run step (newCustomerRegManager Bool)
      [.connect [], .healed, .register false "C1" "WEB.SEL.GOLD" [], .unregister true "C1" [],
        .enqueue true, .enqueue false, .take, .send true, .take, .send true] = some s ∧
      Quiet s ∧ s.active.entry "C1" = none ∧
      replay Registration.customerID Registration.entry s.sent "C1" =
        some ("WEB.SEL.GOLD", ∅) :=
  ⟨_, rfl, ⟨by decide, rfl, rfl⟩, rfl, rfl⟩

end Wtg.Edge.CustomerReg
