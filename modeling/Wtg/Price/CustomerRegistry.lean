import Mathlib.Data.Finset.Card
import Mathlib.Data.Fintype.Basic
import Wtg.Lib.Transition
import Wtg.Price.Lock

/-! # Customers wanted by edges

`CustomerRegistry` (`internal/price/customer_registry.go`) and the stream `RegisterCustomer` that
fills it (`internal/price/grpc.go`). -/

namespace Wtg.Price.CustomerRegistry

open Lib QuoteId.Registry Price.Lock List Function AList

structure CustomerReg where
  profile : Profile
  sources : Finset String
  deriving DecidableEq

def CustomerReg.hasSources (reg : CustomerReg) : Bool := 0 < reg.sources.card

def srcTotal (entries : List (Sigma fun _ : String => CustomerReg)) : ℕ :=
  entries.countP fun e => e.2.hasSources

/-- `CustomerRegistry`. -/
structure Registry where
  entries : GoMap String CustomerReg
  count : ℤ
  srcCount : ℤ
  count_eq : count = entries.entries.length
  srcCount_eq : srcCount = srcTotal entries.entries

def newCustomerRegistry : Registry := ⟨∅, 0, 0, rfl, rfl⟩

lemma srcTotal_cons (e : Sigma fun _ : String => CustomerReg)
    (l : List (Sigma fun _ : String => CustomerReg)) :
    srcTotal (e :: l) = srcTotal l + e.2.hasSources.toNat := by
  unfold srcTotal
  rw [countP_cons]
  cases e.2.hasSources <;> rfl

namespace Registry

variable (r : Registry)

def Registered (cid : String) : Prop := (r.entries.lookup cid).isSome

instance (cid : String) : Decidable (r.Registered cid) := inferInstanceAs (Decidable (_ = true))

def registerWithSources (customerID : String) (profile : Profile) (sources : List String) :
    Registry :=
  if customerID = "" then r else
  let reg : CustomerReg := ⟨profile, sources.toFinset.erase ""⟩
  match h : r.entries.lookup customerID with
  | none =>
    { entries := r.entries.insert customerID reg
      count := r.count + 1
      srcCount := if reg.hasSources then r.srcCount + 1 else r.srcCount
      count_eq := by
        rw [r.count_eq, GoMap.entries_insert, GoMap.entries_erase_of_lookup_none h,
          List.length_cons, Nat.cast_succ]
      srcCount_eq := by
        rw [r.srcCount_eq, GoMap.entries_insert, GoMap.entries_erase_of_lookup_none h,
          srcTotal_cons]
        cases reg.hasSources <;> simp }
  | some prev =>
    { entries := r.entries.insert customerID reg
      count := r.count
      srcCount :=
        if prev.hasSources && !reg.hasSources then r.srcCount - 1
        else if !prev.hasSources && reg.hasSources then r.srcCount + 1
        else r.srcCount
      count_eq := by
        rw [r.count_eq, (GoMap.entries_perm_of_lookup h).length_eq, GoMap.entries_insert,
          List.length_cons, List.length_cons]
      srcCount_eq := by
        have htotal : srcTotal r.entries.entries = srcTotal (⟨customerID, prev⟩ :: _) :=
          (GoMap.entries_perm_of_lookup h).countP_eq _
        rw [r.srcCount_eq, htotal, GoMap.entries_insert, srcTotal_cons, srcTotal_cons]
        cases prev.hasSources <;> cases reg.hasSources <;> simp }

def unregister (customerID : String) : Registry :=
  if customerID = "" then r else
  match h : r.entries.lookup customerID with
  | none => r
  | some prev =>
    { entries := r.entries.erase customerID
      count := r.count - 1
      srcCount := if prev.hasSources then r.srcCount - 1 else r.srcCount
      count_eq := by
        rw [r.count_eq, (GoMap.entries_perm_of_lookup h).length_eq, List.length_cons, Nat.cast_succ,
          add_sub_cancel_right]
      srcCount_eq := by
        have htotal : srcTotal r.entries.entries = srcTotal (⟨customerID, prev⟩ :: _) :=
          (GoMap.entries_perm_of_lookup h).countP_eq _
        rw [r.srcCount_eq, htotal, srcTotal_cons]
        cases prev.hasSources <;> simp }

variable {r} {customerID : String}

lemma entries_registerWithSources (h : customerID ≠ "") (profile : Profile)
    (sources : List String) :
    (r.registerWithSources customerID profile sources).entries =
      r.entries.insert customerID ⟨profile, sources.toFinset.erase ""⟩ := by
  unfold registerWithSources
  rw [if_neg h]
  dsimp only
  split <;> rfl

lemma lookup_unregister (h : customerID ≠ "") (cid : String) :
    (r.unregister customerID).entries.lookup cid =
      if cid = customerID then none else r.entries.lookup cid := by
  unfold unregister
  rw [if_neg h]
  split
  next hnone =>
    by_cases hcid : cid = customerID
    · rw [if_pos hcid, hcid, hnone]
    · rw [if_neg hcid]
  next prev hsome =>
    by_cases hcid : cid = customerID
    · subst hcid
      rw [if_pos rfl]
      exact lookup_erase _ _
    · rw [if_neg hcid]
      exact lookup_erase_ne hcid

lemma registered_registerWithSources (h : customerID ≠ "") (profile : Profile)
    (sources : List String) (cid : String) :
    (r.registerWithSources customerID profile sources).Registered cid ↔
      cid = customerID ∨ r.Registered cid := by
  unfold Registered
  rw [entries_registerWithSources h]
  by_cases hcid : cid = customerID
  · subst hcid
    simp
  · simp [lookup_insert_ne hcid, hcid]

lemma registered_unregister (h : customerID ≠ "") (cid : String) :
    (r.unregister customerID).Registered cid ↔ cid ≠ customerID ∧ r.Registered cid := by
  unfold Registered
  rw [lookup_unregister h]
  by_cases hcid : cid = customerID
  · simp [hcid]
  · simp [hcid]

end Registry

inductive Op
  | register
  | unregister
  | other
  deriving DecidableEq, Repr

structure CustomerRegistration where
  op : Op
  customerId : String
  profileKey : String
  sources : List String
  deriving DecidableEq, Repr

structure CustomerAck where
  customerId : String
  ok : Bool
  error : String
  deriving DecidableEq, Repr

def CustomerRegistration.Registers (req : CustomerRegistration) (cid : String) : Prop :=
  req.op = .register ∧ req.customerId = cid

def CustomerRegistration.Unregisters (req : CustomerRegistration) (cid : String) : Prop :=
  req.op = .unregister ∧ req.customerId = cid

instance (req : CustomerRegistration) (cid : String) : Decidable (req.Registers cid) :=
  inferInstanceAs (Decidable (_ ∧ _))

instance (req : CustomerRegistration) (cid : String) : Decidable (req.Unregisters cid) :=
  inferInstanceAs (Decidable (_ ∧ _))

/-- The loop body of `RegisterCustomer`: what a message does to the registry and to the customers of
its stream, and the answer. -/
def handle (lib : GoLib) (r : Registry) (owned : Finset String) (req : CustomerRegistration) :
    Registry × Finset String × CustomerAck :=
  let cid := req.customerId
  match req.op with
  | .register =>
    if cid = "" then (r, owned, ⟨cid, false, "empty customer_id"⟩) else
    match parseProfileKey lib req.profileKey with
    | .error err => (r, owned, ⟨cid, false, "invalid profile_key: " ++ err⟩)
    | .ok profile =>
      (r.registerWithSources cid profile req.sources, insert cid owned, ⟨cid, true, ""⟩)
  | .unregister =>
    if cid ∈ owned then (r.unregister cid, owned.erase cid, ⟨cid, true, ""⟩)
    else (r, owned, ⟨cid, true, ""⟩)
  | .other => (r, owned, ⟨cid, false, "unknown op"⟩)

def Accepted (lib : GoLib) (req : CustomerRegistration) : Prop :=
  req.customerId ≠ "" ∧ (parseProfileKey lib req.profileKey).isOk

instance (lib : GoLib) (req : CustomerRegistration) : Decidable (Accepted lib req) :=
  inferInstanceAs (Decidable (_ ∧ _))

/-! ## One registration -/

section

variable {lib : GoLib} {r : Registry} {owned : Finset String} {req : CustomerRegistration}

lemma handle_cases :
    (req.op = .register ∧ Accepted lib req ∧ ∃ profile ack, handle lib r owned req =
      (r.registerWithSources req.customerId profile req.sources, insert req.customerId owned,
        ack)) ∨
    (req.op = .unregister ∧ req.customerId ∈ owned ∧ ∃ ack, handle lib r owned req =
      (r.unregister req.customerId, owned.erase req.customerId, ack)) ∨
    (¬ (req.op = .register ∧ Accepted lib req) ∧
      ¬ (req.op = .unregister ∧ req.customerId ∈ owned) ∧
      ∃ ack, handle lib r owned req = (r, owned, ack)) := by
  unfold handle Accepted
  rcases req with ⟨op, c, key, sources⟩
  cases op with
  | register =>
    dsimp only
    by_cases hc : c = ""
    · rw [if_pos hc]
      exact .inr (.inr ⟨fun h => h.2.1 hc, fun h => (nomatch h.1), _, rfl⟩)
    · rw [if_neg hc]
      cases parseProfileKey lib key with
      | error err => exact .inr (.inr ⟨fun h => (nomatch h.2.2), fun h => (nomatch h.1), _, rfl⟩)
      | ok profile => exact .inl ⟨rfl, ⟨hc, rfl⟩, profile, _, rfl⟩
  | unregister =>
    dsimp only
    by_cases hc : c ∈ owned
    · rw [if_pos hc]
      exact .inr (.inl ⟨rfl, hc, _, rfl⟩)
    · rw [if_neg hc]
      exact .inr (.inr ⟨fun h => (nomatch h.1), fun h => hc h.2, _, rfl⟩)
  | other => exact .inr (.inr ⟨fun h => (nomatch h.1), fun h => (nomatch h.1), _, rfl⟩)

/-- What `handle` does to a property of a customer, of the registry or of what a stream owns, that
an accepted REGISTER sets and the UNREGISTER of an owned customer clears. -/
lemma handle_iff {P : Registry × Finset String × CustomerAck → Prop} {Q : Prop}
    (cid : String)
    (hset : Accepted lib req → ∀ profile ack, P (r.registerWithSources req.customerId profile
      req.sources, insert req.customerId owned, ack) ↔ cid = req.customerId ∨ Q)
    (hclear : req.customerId ∈ owned → ∀ ack,
      P (r.unregister req.customerId, owned.erase req.customerId, ack) ↔ cid ≠ req.customerId ∧ Q)
    (hsame : ∀ ack, P (r, owned, ack) ↔ Q) :
    P (handle lib r owned req) ↔
      (req.Registers cid ∧ Accepted lib req) ∨ (¬ (req.Unregisters cid ∧ cid ∈ owned) ∧ Q) := by
  unfold CustomerRegistration.Registers CustomerRegistration.Unregisters
  rcases handle_cases with ⟨hop, hacc, profile, ack, h⟩ | ⟨hop, hmem, ack, h⟩ | ⟨hreg, hun, ack, h⟩
  · rw [h, hset hacc]
    simp [hop, hacc, eq_comm]
  · rw [h, hclear hmem]
    simp only [hop, reduceCtorEq, false_and, true_and, false_or]
    refine and_congr_left fun _ => not_congr ⟨fun he => ⟨he.symm, he ▸ hmem⟩, fun hu => hu.1.symm⟩
  · rw [h, hsame]
    constructor
    · intro hQ
      refine .inr ⟨?_, hQ⟩
      rintro ⟨⟨hop, rfl⟩, hmem⟩
      exact hun ⟨hop, hmem⟩
    · rintro (⟨⟨hop, -⟩, hacc⟩ | ⟨-, hQ⟩)
      · exact absurd ⟨hop, hacc⟩ hreg
      · exact hQ

lemma mem_handle_owned (cid : String) :
    cid ∈ (handle lib r owned req).2.1 ↔
      (req.Registers cid ∧ Accepted lib req) ∨ (¬ req.Unregisters cid ∧ cid ∈ owned) := by
  rw [handle_iff (P := fun x => cid ∈ x.2.1) cid (fun _ _ _ => Finset.mem_insert)
    (fun _ _ => Finset.mem_erase) fun _ => Iff.rfl]
  tauto

lemma registered_handle (hnames : "" ∉ owned) (cid : String) :
    (handle lib r owned req).1.Registered cid ↔
      (req.Registers cid ∧ Accepted lib req) ∨
        (¬ (req.Unregisters cid ∧ cid ∈ owned) ∧ r.Registered cid) := by
  refine handle_iff (P := fun x => x.1.Registered cid) cid ?_ ?_ fun _ => Iff.rfl
  · intro hacc _ _
    exact Registry.registered_registerWithSources hacc.1 ..
  · intro hmem _
    exact Registry.registered_unregister (fun he => hnames (he ▸ hmem)) cid

end

/-- Where a stream is: not open; open, with the customers it registered and what it received; ended
with customers still to take out. -/
inductive Stream
  | closed
  | running (owned : Finset String) (received : List CustomerRegistration)
  | ending (owned : Finset String)

def Stream.owned : Stream → Finset String
  | .closed => ∅
  | .running owned _ => owned
  | .ending owned => owned

def Stream.live : Stream → Finset String
  | .running owned _ => owned
  | .closed | .ending _ => ∅

def Wants (received : List CustomerRegistration) (cid : String) : Prop :=
  ∃ before req after, received = before ++ req :: after ∧ req.Registers cid ∧
    ∀ later ∈ after, ¬ later.Unregisters cid

lemma not_wants_nil (cid : String) : ¬ Wants [] cid := by
  rintro ⟨before, req, after, h, -⟩
  exact absurd h (by simp)

lemma wants_append (received : List CustomerRegistration) (req : CustomerRegistration)
    (cid : String) : Wants (received ++ [req]) cid ↔
      req.Registers cid ∨ (¬ req.Unregisters cid ∧ Wants received cid) := by
  constructor
  · rintro ⟨before, first, after, h, hreg, hafter⟩
    rcases eq_nil_or_concat after with rfl | ⟨after', last, rfl⟩
    · obtain ⟨-, hlast⟩ := append_inj' h rfl
      obtain rfl := head_eq_of_cons_eq hlast
      exact .inl hreg
    · have h' : received ++ [req] = (before ++ first :: after') ++ [last] := by
        rw [h, concat_eq_append, append_assoc, cons_append]
      rw [concat_eq_append] at hafter
      obtain ⟨hinit, hlast⟩ := append_inj' h' rfl
      obtain rfl := head_eq_of_cons_eq hlast
      refine .inr ⟨hafter req (mem_append_right _ mem_cons_self), before, first, after',
        hinit, hreg, fun later hl => hafter later (mem_append_left _ hl)⟩
  · rintro (hreg | ⟨hun, before, first, after, rfl, hreg, hafter⟩)
    · exact ⟨received, req, [], rfl, hreg, fun _ hl => nomatch hl⟩
    · exact ⟨before, first, after ++ [req], by rw [append_assoc, cons_append], hreg,
        forall_concat hafter hun⟩

structure State (ι : Type) where
  registry : Registry
  stream : ι → Stream

/-- The steps: a stream opens; it receives a message and answers, which may fail; it ends; after its
end it takes out a customer, in any order; it is gone. -/
inductive Action (ι : Type)
  | start (i : ι)
  | recv (i : ι) (req : CustomerRegistration) (sent : Bool)
  | stop (i : ι)
  | unregister (i : ι) (cid : String)
  | gone (i : ι)

/-! ## Streams that interleave -/

section

variable {ι : Type} [DecidableEq ι]

def idle (ι : Type) : State ι := ⟨newCustomerRegistry, fun _ => .closed⟩

def State.set (s : State ι) (i : ι) (r : Registry) (x : Stream) : State ι :=
  ⟨r, Function.update s.stream i x⟩

/-- A step of `RegisterCustomer`, if it is possible. -/
def step (lib : GoLib) (s : State ι) : Action ι → Option (State ι)
  | .start i =>
    match s.stream i with
    | .closed => some (s.set i s.registry (.running ∅ []))
    | _ => none
  | .recv i req sent =>
    match s.stream i with
    | .running owned received =>
      let (r, owned', ack) := handle lib s.registry owned req
      some (s.set i r
        (if ack.ok && !sent then .ending owned' else .running owned' (received ++ [req])))
    | _ => none
  | .stop i =>
    match s.stream i with
    | .running owned _ => some (s.set i s.registry (.ending owned))
    | _ => none
  | .unregister i cid =>
    match s.stream i with
    | .ending owned =>
      if cid ∈ owned then some (s.set i (s.registry.unregister cid) (.ending (owned.erase cid)))
      else none
    | _ => none
  | .gone i =>
    match s.stream i with
    | .ending owned => if owned = ∅ then some (s.set i s.registry .closed) else none
    | _ => none

def NoOther (s : State ι) (i : ι) (cid : String) : Prop :=
  ∀ j, j ≠ i → cid ∉ (s.stream j).live

/-- **An undisputed step** for a customer: a REGISTER for it is accepted, or the stream has it
already; and a stream takes it out only if no other open stream has it. -/
def Undisputed (lib : GoLib) (cid : String) (s : State ι) : Action ι → Prop
  | .recv i req _ =>
    (req.Registers cid → Accepted lib req ∨ cid ∈ (s.stream i).owned) ∧
      (req.Unregisters cid → cid ∈ (s.stream i).owned → NoOther s i cid)
  | .unregister i cid' => cid' = cid → NoOther s i cid
  | .start _ | .stop _ | .gone _ => True

instance [Fintype ι] (lib : GoLib) (cid : String) (s : State ι) :
    ∀ a, Decidable (Undisputed lib cid s a)
  | .recv i req _ => inferInstanceAs (Decidable
      ((req.Registers cid → Accepted lib req ∨ cid ∈ (s.stream i).owned) ∧
        (req.Unregisters cid → cid ∈ (s.stream i).owned →
          ∀ j, j ≠ i → cid ∉ (s.stream j).live)))
  | .unregister i cid' => inferInstanceAs
      (Decidable (cid' = cid → ∀ j, j ≠ i → cid ∉ (s.stream j).live))
  | .start _ | .stop _ | .gone _ => .isTrue trivial

structure Inv (cid : String) (s : State ι) : Prop where
  named : ∀ i, "" ∉ (s.stream i).owned
  wanted : ∀ i owned received, s.stream i = .running owned received →
    (cid ∈ owned ↔ Wants received cid)
  kept : ∀ i owned received, s.stream i = .running owned received → cid ∈ owned →
    s.registry.Registered cid
  held : s.registry.Registered cid → ∃ i, cid ∈ (s.stream i).owned

omit [DecidableEq ι] in
lemma inv_idle (cid : String) : Inv cid (idle ι) where
  named _ := Finset.notMem_empty _
  wanted _ _ _ h := nomatch h
  kept _ _ _ h := nomatch h
  held h := nomatch h

variable {lib : GoLib} {cid : String} {s s' : State ι} {i : ι} {x : Stream}

lemma Inv.set (h : Inv cid s) {r : Registry} (hnamed : "" ∉ x.owned)
    (hwanted : ∀ owned received, x = .running owned received →
      (cid ∈ owned ↔ Wants received cid) ∧ (cid ∈ owned → r.Registered cid))
    (hothers : NoOther s i cid ∨ (s.registry.Registered cid → r.Registered cid))
    (hheld : r.Registered cid →
      cid ∈ x.owned ∨ (s.registry.Registered cid ∧ cid ∉ (s.stream i).owned)) :
    Inv cid (s.set i r x) := by
  have hself : (s.set i r x).stream i = x := update_self ..
  have hother : ∀ j, j ≠ i → (s.set i r x).stream j = s.stream j :=
    fun j hj => update_of_ne hj ..
  refine ⟨fun j => ?_, fun j owned received hj => ?_, fun j owned received hj hcid => ?_,
    fun hreg => ?_⟩
  · by_cases hji : j = i
    · rw [hji, hself]
      exact hnamed
    · rw [hother j hji]
      exact h.named j
  · by_cases hji : j = i
    · rw [hji, hself] at hj
      exact (hwanted owned received hj).1
    · rw [hother j hji] at hj
      exact h.wanted j owned received hj
  · by_cases hji : j = i
    · rw [hji, hself] at hj
      exact (hwanted owned received hj).2 hcid
    · rw [hother j hji] at hj
      rcases hothers with hno | hkeep
      · exact absurd (by rwa [hj]) (hno j hji)
      · exact hkeep (h.kept j owned received hj hcid)
  · rcases hheld hreg with hx | ⟨hold, hnot⟩
    · exact ⟨i, by rwa [hself]⟩
    · obtain ⟨j, hj⟩ := h.held hold
      have hji : j ≠ i := by
        rintro rfl
        exact hnot hj
      exact ⟨j, by rwa [hother j hji]⟩

lemma Inv.same (h : Inv cid s) (howned : x.owned = (s.stream i).owned)
    (hx : ∀ owned received, x = .running owned received → owned = ∅ ∧ received = []) :
    Inv cid (s.set i s.registry x) := by
  refine h.set (howned ▸ h.named i) (fun owned received hrun => ?_) (.inr id) fun hreg => ?_
  · obtain ⟨rfl, rfl⟩ := hx owned received hrun
    exact ⟨⟨fun hm => absurd hm (Finset.notMem_empty _), fun hw => absurd hw (not_wants_nil cid)⟩,
      fun hm => absurd hm (Finset.notMem_empty _)⟩
  · by_cases hm : cid ∈ (s.stream i).owned
    · exact .inl (howned ▸ hm)
    · exact .inr ⟨hreg, hm⟩

variable {owned : Finset String}

lemma Inv.recv (h : Inv cid s) {req : CustomerRegistration}
    {received : List CustomerRegistration} (hi : s.stream i = .running owned received)
    (hreg : req.Registers cid → Accepted lib req ∨ cid ∈ owned)
    (hun : req.Unregisters cid → cid ∈ owned → NoOther s i cid)
    (hx : x = .ending (handle lib s.registry owned req).2.1 ∨
      x = .running (handle lib s.registry owned req).2.1 (received ++ [req])) :
    Inv cid (s.set i (handle lib s.registry owned req).1 x) := by
  have howned : x.owned = (handle lib s.registry owned req).2.1 := by
    rcases hx with rfl | rfl <;> rfl
  have hnames : "" ∉ owned := by
    have hn := h.named i
    rwa [hi] at hn
  have hmem : ∀ c, c ∈ (handle lib s.registry owned req).2.1 ↔ _ := mem_handle_owned
  have hafter : (handle lib s.registry owned req).1.Registered cid ↔ _ :=
    registered_handle hnames cid
  refine h.set ?_ (fun owned' received' hrun => ?_) ?_ fun hr => ?_
  · rw [howned, hmem]
    rintro (⟨⟨-, hempty⟩, hacc⟩ | ⟨-, hm⟩)
    · exact hacc.1 hempty
    · exact hnames hm
  · rcases hx with rfl | rfl
    · cases hrun
    · obtain ⟨rfl, rfl⟩ := Stream.running.inj hrun
      have hw := h.wanted i owned received hi
      rw [hmem, wants_append, hafter, ← hw]
      refine ⟨⟨?_, ?_⟩, ?_⟩
      · rintro (⟨hr, -⟩ | hstay)
        · exact .inl hr
        · exact .inr hstay
      · rintro (hr | hstay)
        · rcases hreg hr with hacc | hm
          · exact .inl ⟨hr, hacc⟩
          · exact .inr ⟨fun hu => (nomatch hr.1.symm.trans hu.1), hm⟩
        · exact .inr hstay
      · rintro (hr | ⟨hnot, hm⟩)
        · exact .inl hr
        · exact .inr ⟨fun hu => hnot hu.1, h.kept i owned received hi hm⟩
  · by_cases hout : req.Unregisters cid ∧ cid ∈ owned
    · exact .inl (hun hout.1 hout.2)
    · exact .inr fun hr => hafter.mpr (.inr ⟨hout, hr⟩)
  · rw [howned, hmem, hi]
    rcases hafter.mp hr with hnew | ⟨hnot, hold⟩
    · exact .inl (.inl hnew)
    · by_cases hm : cid ∈ owned
      · exact .inl (.inr ⟨fun hu => hnot ⟨hu, hm⟩, hm⟩)
      · exact .inr ⟨hold, hm⟩

lemma Inv.unregister (h : Inv cid s) {cid' : String}
    (hi : s.stream i = .ending owned) (hm : cid' ∈ owned) (hno : cid' = cid → NoOther s i cid) :
    Inv cid (s.set i (s.registry.unregister cid') (.ending (owned.erase cid'))) := by
  have hnames : "" ∉ owned := by
    have hn := h.named i
    rwa [hi] at hn
  have hne : cid' ≠ "" := fun he => hnames (he ▸ hm)
  have hafter : (s.registry.unregister cid').Registered cid ↔ _ :=
    Registry.registered_unregister hne cid
  refine h.set (fun he => hnames (Finset.mem_of_mem_erase he)) (fun _ _ hrun => nomatch hrun) ?_
    fun hr => ?_
  · by_cases hcid : cid' = cid
    · exact .inl (hno hcid)
    · exact .inr fun hr => hafter.mpr ⟨Ne.symm hcid, hr⟩
  · obtain ⟨hcid, hold⟩ := hafter.mp hr
    rw [hi]
    by_cases hin : cid ∈ owned
    · exact .inl (Finset.mem_erase.mpr ⟨hcid, hin⟩)
    · exact .inr ⟨hold, hin⟩

lemma Inv.step (h : Inv cid s) {a : Action ι} (hgood : Undisputed lib cid s a)
    (hstep : CustomerRegistry.step lib s a = some s') : Inv cid s' := by
  revert hstep
  fun_cases CustomerRegistry.step lib s a <;> intro hstep
  all_goals cases hstep
  case case1 i hi =>
    refine h.same (by rw [hi]; rfl) fun owned received hrun => ?_
    obtain ⟨rfl, rfl⟩ := Stream.running.inj hrun
    exact ⟨rfl, rfl⟩
  case case3 i req sent owned received hi r owned' ack hhandle =>
    obtain ⟨hreg, hun⟩ := hgood
    rw [hi] at hreg hun
    have hrecv : Inv cid (s.set i (handle lib s.registry owned req).1 (if ack.ok && !sent then
        .ending owned' else .running owned' (received ++ [req]))) := by
      refine h.recv hi hreg hun ?_
      rw [hhandle]
      split_ifs
      · exact .inl rfl
      · exact .inr rfl
    rwa [hhandle] at hrecv
  case case5 i owned _ hi => exact h.same (by rw [hi]; rfl) fun _ _ hrun => nomatch hrun
  case case7 i cid' owned hi hm => exact h.unregister hi hm hgood
  case case10 i hi => exact h.same (by rw [hi]; rfl) fun _ _ hrun => nomatch hrun

def Settled (s : State ι) : Prop := ∀ i owned, s.stream i ≠ .ending owned

def Wanted (s : State ι) (cid : String) : Prop :=
  ∃ i owned received, s.stream i = .running owned received ∧ Wants received cid

/-- **Registered while wanted**: in every run that is undisputed for a customer, whenever no stream
is ending, the customer is registered exactly if an open stream wants it. -/
theorem registered_iff_wanted (lib : GoLib) (cid : String) {acts : List (Action ι)} {s : State ι}
    (hgood : Transition.Along (step lib) (Undisputed lib cid) (idle ι) acts)
    (hrun : Transition.run (step lib) (idle ι) acts = some s) (hsettled : Settled s) :
    s.registry.Registered cid ↔ Wanted s cid := by
  have hinv : Inv cid s := Transition.invariant _ (fun _ _ _ h hgood hstep => h.step hgood hstep)
    (inv_idle cid) hgood hrun
  constructor
  · intro hreg
    obtain ⟨i, hi⟩ := hinv.held hreg
    cases hstream : s.stream i with
    | closed =>
      rw [hstream] at hi
      exact absurd hi (Finset.notMem_empty _)
    | running owned received =>
      rw [hstream] at hi
      exact ⟨i, owned, received, hstream, (hinv.wanted i owned received hstream).mp hi⟩
    | ending owned => exact absurd hstream (hsettled i owned)
  · rintro ⟨i, owned, received, hstream, hwants⟩
    exact hinv.kept i owned received hstream ((hinv.wanted i owned received hstream).mpr hwants)

end

def wantC1 : CustomerRegistration := ⟨.register, "C1", "WEB.SEL.GOLD", []⟩

def dropC1 : CustomerRegistration := ⟨.unregister, "C1", "", []⟩

def inTurn : List (Action Bool) :=
  [.start false, .recv false wantC1 true, .stop false, .unregister false "C1", .gone false,
    .start true, .recv true wantC1 true]

theorem registered_iff_wanted_inTurn :
    Transition.Along (step bareLib) (Undisputed bareLib "C1") (idle Bool) inTurn ∧
    ∃ s, Transition.run (step bareLib) (idle Bool) inTurn = some s ∧ Settled s ∧
      s.registry.Registered "C1" ∧ (s.registry.Registered "C1" ↔ Wanted s "C1") := by
  have hgood : Transition.Along (step bareLib) (Undisputed bareLib "C1") (idle Bool) inTurn := by
    decide
  refine ⟨hgood, _, rfl, ?_, rfl, registered_iff_wanted bareLib "C1" hgood rfl ?_⟩ <;>
    · intro i owned
      cases i <;> exact nofun

theorem shared_customer_lost :
    (∃ s, Transition.run (step bareLib) (idle Bool)
      [.start false, .start true, .recv false wantC1 true, .recv true wantC1 true,
        .recv false dropC1 true] = some s ∧
      Settled s ∧ Wanted s "C1" ∧ ¬ s.registry.Registered "C1") ∧
    ∃ s, Transition.run (step bareLib) (idle Bool)
      [.start false, .recv false wantC1 true, .start true, .recv true wantC1 true, .stop false,
        .unregister false "C1", .gone false] = some s ∧
      Settled s ∧ Wanted s "C1" ∧ ¬ s.registry.Registered "C1" := by
  have hwants : Wants [wantC1] "C1" := ⟨[], wantC1, [], rfl, by decide, fun _ h => nomatch h⟩
  refine ⟨⟨_, rfl, ?_, ⟨true, _, _, rfl, hwants⟩, by decide⟩,
    ⟨_, rfl, ?_, ⟨true, _, _, rfl, hwants⟩, by decide⟩⟩ <;>
    · intro i owned
      cases i <;> exact nofun

end Wtg.Price.CustomerRegistry
