import Wtg.Edge.CustomerReg
import Wtg.Price.CustomerRegistry

/-! # An edge and the price server

The messages of an edge's `customerRegManager` as they come to `RegisterCustomer` of the price
server, on one stream. -/

namespace Wtg.Edge.CustomerSync

open Lib Lib.KeyedLog List Option AList CustomerReg
open QuoteId.Registry (Profile)
open Price.Lock (GoLib parseProfileKey)
open Price.CustomerRegistry (Registry CustomerReg CustomerRegistration newCustomerRegistry
  handle)
open Edge.CustomerReg (Registration CustRegState Active State Action Announced Orderly Quiet
  newCustomerRegManager step)

def wire : Registration → CustomerRegistration
  | .register customerID profileKey sources => ⟨.register, customerID, profileKey, sources⟩
  | .unregister customerID => ⟨.unregister, customerID, "", []⟩

def receiveOne (lib : GoLib) (x : Registry × Finset String) (reg : Registration) :
    Registry × Finset String :=
  ((handle lib x.1 x.2 (wire reg)).1, (handle lib x.1 x.2 (wire reg)).2.1)

def receive (lib : GoLib) (regs : List Registration) : Registry × Finset String :=
  regs.foldl (receiveOne lib) (newCustomerRegistry, ∅)

def read (lib : GoLib) (e : String × Finset String) : Option CustomerReg :=
  match parseProfileKey lib e.1 with
  | .ok profile => some ⟨profile, e.2.erase ""⟩
  | .error _ => none

def Acceptable (lib : GoLib) : Registration → Prop
  | .register customerID profileKey _ =>
    customerID ≠ "" ∧ ∃ profile, parseProfileKey lib profileKey = .ok profile
  | .unregister customerID => customerID ≠ ""

/-! ## What the server makes of the messages -/

section

variable {lib : GoLib}

def Exact (x : Registry × Finset String) : Prop :=
  ∀ c, c ∈ x.2 ↔ (x.1.entries.lookup c).isSome

variable {x : Registry × Finset String}

lemma receiveOne_register {cid profileKey : String} {sources : List String} {profile : Profile}
    (hid : cid ≠ "") (hparse : parseProfileKey lib profileKey = .ok profile) :
    receiveOne lib x (.register cid profileKey sources) =
      (x.1.registerWithSources cid profile sources, insert cid x.2) := by
  simp only [receiveOne, handle, wire, if_neg hid, hparse]

lemma receiveOne_unregister (cid : String) :
    receiveOne lib x (.unregister cid) =
      if cid ∈ x.2 then (x.1.unregister cid, x.2.erase cid) else x := by
  by_cases hmem : cid ∈ x.2
  · have hhandle : handle lib x.1 x.2 (wire (.unregister cid)) = (_, _, _) := if_pos hmem
    rw [receiveOne, hhandle, if_pos hmem]
    rfl
  · have hhandle : handle lib x.1 x.2 (wire (.unregister cid)) = (_, _, _) := if_neg hmem
    rw [receiveOne, hhandle, if_neg hmem]

variable {reg : Registration}

lemma lookup_receiveOne (hx : Exact x) (hreg : Acceptable lib reg)
    (c : String) :
    (receiveOne lib x reg).1.entries.lookup c =
      if c = reg.customerID then reg.entry.bind (read lib) else x.1.entries.lookup c := by
  cases reg with
  | register cid profileKey sources =>
    obtain ⟨hid, profile, hparse⟩ := hreg
    have hread : read lib (profileKey, sources.toFinset) =
        some ⟨profile, sources.toFinset.erase ""⟩ := by
      simp only [read, hparse]
    rw [receiveOne_register hid hparse, Registry.entries_registerWithSources hid]
    change _ = if c = cid then read lib (profileKey, sources.toFinset) else _
    by_cases hc : c = cid
    · subst hc
      rw [if_pos rfl, hread, lookup_insert]
    · rw [if_neg hc, lookup_insert_ne hc]
  | unregister cid =>
    change _ = if c = cid then none else _
    rw [receiveOne_unregister]
    by_cases hmem : cid ∈ x.2
    · rw [if_pos hmem, Registry.lookup_unregister hreg]
    · rw [if_neg hmem]
      split_ifs with hc
      · rwa [hx cid, not_isSome_iff_eq_none, ← hc] at hmem
      · rfl

lemma Exact.receiveOne (hx : Exact x) (hreg : Acceptable lib reg) :
    Exact (receiveOne lib x reg) := by
  intro c
  rw [lookup_receiveOne hx hreg]
  cases reg with
  | register cid profileKey sources =>
    obtain ⟨hid, profile, hparse⟩ := hreg
    rw [receiveOne_register hid hparse, Finset.mem_insert, hx c]
    change _ ↔ (if c = cid then read lib (profileKey, sources.toFinset) else _).isSome = true
    split_ifs with hc
    · simp [hc, read, hparse]
    · exact or_iff_right hc
  | unregister cid =>
    rw [receiveOne_unregister]
    change _ ↔ (if c = cid then none else _).isSome = true
    by_cases hc : c = cid
    · subst hc
      rw [if_pos rfl]
      refine iff_of_false ?_ Bool.false_ne_true
      split_ifs with hmem
      · exact Finset.notMem_erase _ _
      · exact hmem
    · rw [if_neg hc, ← hx c]
      split_ifs
      · exact Finset.mem_erase.trans (and_iff_right hc)
      · rfl

end

def Parses (lib : GoLib) {ι : Type} : Action ι → Prop
  | .register _ _ profileKey _ => ∃ profile, parseProfileKey lib profileKey = .ok profile
  | .unregister _ _ _ | .enqueue _ | .connect _ | .heal | .healed | .take | .send _
  | .disconnect => True

def ActiveSound (lib : GoLib) (active : Active) : Prop :=
  ∀ c st, active.lookup c = some st →
    c ≠ "" ∧ ∃ profile, parseProfileKey lib st.profileKey = .ok profile

namespace ActiveSound

variable {lib : GoLib} {active : Active}

lemma message (h : ActiveSound lib active) {c : String} (hc : c ≠ "") :
    Acceptable lib (active.message c) := by
  unfold Active.message
  split
  next st hst => exact h c st hst
  next => exact hc

lemma insert (h : ActiveSound lib active) {c : String} {st : CustRegState} (hc : c ≠ "")
    (hst : ∃ profile, parseProfileKey lib st.profileKey = .ok profile) :
    ActiveSound lib (active.insert c st) := by
  intro c' st' hlookup
  by_cases heq : c' = c
  · subst heq
    rw [lookup_insert] at hlookup
    obtain rfl := some.inj hlookup
    exact ⟨hc, hst⟩
  · rw [lookup_insert_ne heq] at hlookup
    exact h c' st' hlookup

lemma erase (h : ActiveSound lib active) (c : String) : ActiveSound lib (active.erase c) := by
  intro c' st' hlookup
  by_cases heq : c' = c
  · subst heq
    rw [lookup_erase] at hlookup
    cases hlookup
  · rw [lookup_erase_ne heq] at hlookup
    exact h c' st' hlookup

variable {change : Active × Registration} {sources : List String}

lemma register (h : ActiveSound lib active) {cid profileKey : String}
    (hkey : ∃ profile, parseProfileKey lib profileKey = .ok profile)
    (hchange : active.register cid profileKey sources = some change) :
    ActiveSound lib change.1 ∧ cid ≠ "" := by
  unfold Active.register at hchange
  split_ifs at hchange with hempty
  obtain rfl := some.inj hchange
  have hcid : cid ≠ "" := fun heq => hempty (by simp [heq])
  exact ⟨h.insert hcid hkey, hcid⟩

lemma unregister (h : ActiveSound lib active) {cid : String}
    (hchange : active.unregister cid sources = some change) :
    ActiveSound lib change.1 ∧ cid ≠ "" := by
  unfold Active.unregister at hchange
  split_ifs at hchange with hempty
  split at hchange
  · cases hchange
  · rename_i st hst
    dsimp only at hchange
    split_ifs at hchange
    · obtain rfl := some.inj hchange
      exact ⟨h.erase cid, hempty⟩
    · obtain rfl := some.inj hchange
      exact ⟨h.insert hempty (h cid st hst).2, hempty⟩

end ActiveSound

/-- **The messages are acceptable**, wherever they are. -/
structure Sound (lib : GoLib) {ι : Type} (s : State ι) : Prop where
  active : ActiveSound lib s.active
  pending : ∀ i, ∀ reg ∈ s.pending i, Acceptable lib reg
  ahead : ∀ reg ∈ s.ahead, Acceptable lib reg
  healing : ∀ todo, s.phase = .healing todo → ∀ c ∈ todo, c ≠ ""
  sent : ∀ reg ∈ s.sent, Acceptable lib reg

/-! ## What the edge sends -/

section

variable {ι : Type} {lib : GoLib} {s s' : State ι}

lemma mem_enqueue {queue : List Registration} {reg reg' : Registration}
    (h : reg' ∈ enqueue queue reg) : reg' ∈ queue ∨ reg' = reg := by
  unfold enqueue at h
  split_ifs at h
  · simpa using h
  · exact .inl h

lemma Sound.sender (h : Sound lib s) {queue sent : List Registration}
    {phase : CustomerReg.Phase}
    (hahead : ∀ reg ∈ phase.held ++ queue, reg ∈ s.ahead ∨ Acceptable lib reg)
    (hhealing : ∀ todo, phase = .healing todo → ∀ c ∈ todo, c ≠ "")
    (hsent : ∀ reg ∈ sent, reg ∈ s.sent ∨ reg ∈ s.ahead) :
    Sound lib { s with queue := queue, phase := phase, sent := sent } := by
  refine ⟨h.active, h.pending, fun reg hreg => ?_, hhealing, fun reg hreg => ?_⟩
  · exact (hahead reg hreg).elim (h.ahead reg) id
  · exact (hsent reg hreg).elim (h.sent reg) (h.ahead reg)

variable [DecidableEq ι]

lemma Sound.change (h : Sound lib s) {i : ι} {cid : String}
    {change : Option (Active × Registration)}
    (hmessage : ∀ x, change = some x → Announced s.active cid x)
    (hsound : ∀ x, change = some x → ActiveSound lib x.1 ∧ cid ≠ "")
    (hstep : s.change i change = some s') : Sound lib s' := by
  unfold State.change at hstep
  split at hstep
  · cases hstep
  · cases hstep
  · obtain rfl := some.inj hstep
    exact h
  · rename_i active reg _ _
    obtain rfl := some.inj hstep
    obtain ⟨hactive, hcid⟩ := hsound _ rfl
    refine ⟨hactive, fun j reg' hreg' => ?_, h.ahead, h.healing, h.sent⟩
    rcases mem_update hreg' with ⟨-, hnew⟩ | ⟨-, hold⟩
    · obtain rfl := mem_some_iff.mp hnew
      have hreg : reg = active.message cid := (hmessage _ rfl).message
      rw [hreg]
      exact hactive.message hcid
    · exact h.pending j reg' hold

lemma Sound.enqueue (h : Sound lib s) {i : ι} {reg : Registration} (hi : s.pending i = some reg) :
    Sound lib { s with
      queue := enqueue s.queue reg, pending := Function.update s.pending i none } := by
  refine ⟨h.active, fun j r hr => ?_, fun r hr => ?_, h.healing, h.sent⟩
  · rcases mem_update hr with ⟨-, hnone⟩ | ⟨-, hold⟩
    · cases hnone
    · exact h.pending j r hold
  · rcases mem_append.mp hr with hheld | hqueue
    · exact h.ahead r (mem_append_left _ hheld)
    · rcases mem_enqueue hqueue with hold | rfl
      · exact h.ahead r (mem_append_right _ hold)
      · exact h.pending i r hi

lemma Sound.step (h : Sound lib s) {a : Action ι} (ha : Parses lib a)
    (hstep : step s a = some s') : Sound lib s' := by
  have hqueue : ∀ reg ∈ s.queue, reg ∈ s.ahead := fun _ hreg => mem_append_right _ hreg
  cases does_of_step hstep with
  | register hchange =>
    exact h.change (fun _ => Active.register_announced) (fun _ => h.active.register ha) hchange
  | unregister hchange =>
    exact h.change (fun _ => Active.unregister_announced) (fun _ => h.active.unregister) hchange
  | enqueue hi => exact h.enqueue hi
  | connect hphase horder =>
    refine h.sender (fun reg hreg => .inl (hqueue reg hreg)) ?_ (by simp)
    rintro todo heq c hc
    cases heq
    have hmem : c ∈ s.active := mem_keys.mpr (horder.mem_iff.mp hc)
    obtain ⟨st, hst⟩ := isSome_iff_exists.mp (lookup_isSome.mpr hmem)
    exact (h.active c st hst).1
  | heal hphase =>
    have htodo := h.healing _ hphase
    refine h.sender (fun reg hreg => ?_) ?_ fun reg hreg => .inl hreg
    · rcases mem_enqueue hreg with hold | rfl
      · exact .inl (hqueue reg hold)
      · exact .inr (h.active.message (htodo _ mem_cons_self))
    · rintro todo' heq c hc
      cases heq
      exact htodo c (mem_cons_of_mem _ hc)
  | healed | disconnect | lost =>
    exact h.sender (fun reg hreg => .inl (hqueue reg hreg)) nofun fun reg hreg => .inl hreg
  | take hphase hfirst =>
    refine h.sender (fun reg hreg => .inl (hqueue reg ?_)) nofun fun reg hreg => .inl hreg
    rw [hfirst]
    exact hreg
  | @sent reg hphase =>
    have hheld : reg ∈ s.ahead := by
      unfold State.ahead
      rw [hphase]
      exact mem_append_left _ (mem_singleton_self reg)
    exact h.sender (fun r hr => .inl (hqueue r hr)) nofun
      (forall_concat (fun _ hold => .inl hold) (.inr hheld))

end

end Wtg.Edge.CustomerSync
