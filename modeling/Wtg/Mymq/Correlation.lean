import Mathlib.Algebra.Group.Nat.Defs
import Wtg.Lib.Transition

/-! # Replies and their calls

`Client.Call` of `pkg/mymq/client.go` marks its frame with a fresh `ckey`, puts a reply channel
under it into the table `pending`, and waits. -/

namespace Wtg.Mymq.Correlation

open Lib.Transition List Function

inductive Msg
  | answer (call : ℕ)
  | abort
deriving DecidableEq, Repr

structure Frame where
  call : ℕ
  ckey : UInt32
deriving DecidableEq, Repr

/-- Where a call is. -/
inductive CallState
  | ready
  | issuing
  | storing (ckey : UInt32)
  | sending (ckey : UInt32)
  | waiting (ckey : UInt32)
  | deleting (ckey : UInt32) (res : Option Msg)
  | returned (res : Option Msg)
deriving DecidableEq, Repr

/-- Where the read loop of a connection is. -/
inductive Reader
  | idle
  | sending (ch : ℕ) (f : Frame)
deriving DecidableEq, Repr

/-- Where a run of `failPending` is. -/
inductive Failer
  | idle
  | aborting (ckey : UInt32) (ch : ℕ)
  | deleting (ckey : UInt32)
deriving DecidableEq, Repr

/-- The client and the network; `issued`, `base` and `num` count the `ckey`s. -/
structure State where
  nextCkey : UInt32
  pending : UInt32 → Option ℕ
  chans : ℕ → Option Msg
  calls : ℕ → CallState
  readers : ℕ → Reader
  failers : ℕ → Failer
  requests : List Frame
  answers : List Frame
  issued : ℕ
  base : ℕ → ℕ
  num : ℕ → ℕ

def initial : State where
  nextCkey := 0
  pending := fun _ => none
  chans := fun _ => none
  calls := fun _ => .ready
  readers := fun _ => .idle
  failers := fun _ => .idle
  requests := []
  answers := []
  issued := 0
  base := fun _ => 0
  num := fun _ => 0

namespace State

variable (s : State)

def setCall (i : ℕ) (c : CallState) : State := { s with calls := Function.update s.calls i c }

def setPending (k : UInt32) (v : Option ℕ) : State :=
  { s with pending := Function.update s.pending k v }

def setChan (i : ℕ) (m : Option Msg) : State := { s with chans := Function.update s.chans i m }

def setReader (r : ℕ) (x : Reader) : State := { s with readers := Function.update s.readers r x }

def setFailer (f : ℕ) (x : Failer) : State := { s with failers := Function.update s.failers f x }

end State

inductive CallStep
  | enter
  | refuse
  | issue
  | store
  | write
  | fail (delivered : Bool)
  | receive
  | giveUp
  | delete
deriving DecidableEq, Repr

inductive ReadStep
  | dispatch (n : ℕ)
  | send
deriving DecidableEq, Repr

inductive FailStep
  | load (ckey : UInt32)
  | abort
  | delete
deriving DecidableEq, Repr

inductive NetStep
  | answer (n : ℕ)
  | loseRequest (n : ℕ)
  | loseAnswer (n : ℕ)
deriving DecidableEq, Repr

inductive Action
  | call (i : ℕ) (a : CallStep)
  | read (r : ℕ) (a : ReadStep)
  | failPending (f : ℕ) (a : FailStep)
  | net (a : NetStep)
deriving DecidableEq, Repr

/-- The counter leaves out 0. -/
def nextCorrelation (s : State) (i : ℕ) : State :=
  if s.nextCkey + 1 = 0 then { s with nextCkey := 0 }
  else
    { s with
      nextCkey := s.nextCkey + 1
      issued := s.issued + 1
      num := Function.update s.num i (s.issued + 1) }.setCall i (.storing (s.nextCkey + 1))

def callStep (handshake : ℕ → Bool) (s : State) (i : ℕ) : CallStep → Option State
  | .enter =>
    if s.calls i = .ready then
      some ({ s with base := Function.update s.base i s.issued }.setCall i .issuing)
    else none
  | .refuse => if s.calls i = .ready then some (s.setCall i (.returned none)) else none
  | .issue => if s.calls i = .issuing then some (nextCorrelation s i) else none
  | .store =>
    match s.calls i with
    | .storing k => some ((s.setPending k (some i)).setCall i (.sending k))
    | _ => none
  | .write =>
    match s.calls i with
    | .sending k => some ({ s with requests := s.requests ++ [Frame.mk i k] }.setCall i (.waiting k))
    | _ => none
  | .fail delivered =>
    match s.calls i with
    | .sending k =>
      if delivered then
        some ({ s with requests := s.requests ++ [Frame.mk i k] }.setCall i (.deleting k none))
      else some (s.setCall i (.deleting k none))
    | _ => none
  | .receive =>
    match s.calls i, s.chans i with
    | .waiting k, some m =>
      if handshake i then some ((s.setChan i none).setCall i (.deleting k (some m)))
      else some ((s.setChan i none).setCall i (.returned (some m)))
    | _, _ => none
  | .giveUp =>
    match s.calls i with
    | .waiting k => some (s.setCall i (.deleting k none))
    | _ => none
  | .delete =>
    match s.calls i with
    | .deleting k res => some ((s.setPending k none).setCall i (.returned res))
    | _ => none

def readStep (s : State) (r : ℕ) : ReadStep → Option State
  | .dispatch n =>
    match s.readers r, s.answers[n]? with
    | .idle, some f =>
      match if f.ckey ≠ 0 then s.pending f.ckey else none with
      | some ch =>
        some (({ s with answers := s.answers.eraseIdx n }.setPending f.ckey none).setReader r
          (.sending ch f))
      | none => some { s with answers := s.answers.eraseIdx n }
    | _, _ => none
  | .send =>
    match s.readers r with
    | .sending ch f =>
      if s.chans ch = none then some ((s.setChan ch (some (.answer f.call))).setReader r .idle)
      else none
    | .idle => none

def failStep (s : State) (f : ℕ) : FailStep → Option State
  | .load k =>
    match s.failers f, s.pending k with
    | .idle, some ch => some (s.setFailer f (.aborting k ch))
    | _, _ => none
  | .abort =>
    match s.failers f with
    | .aborting k ch =>
      if s.chans ch = none then some ((s.setChan ch (some .abort)).setFailer f (.deleting k))
      else some (s.setFailer f (.deleting k))
    | _ => none
  | .delete =>
    match s.failers f with
    | .deleting k => some ((s.setPending k none).setFailer f .idle)
    | _ => none

def netStep (s : State) : NetStep → Option State
  | .answer n =>
    match s.requests[n]? with
    | some f => some { s with requests := s.requests.eraseIdx n, answers := s.answers ++ [f] }
    | none => none
  | .loseRequest n => some { s with requests := s.requests.eraseIdx n }
  | .loseAnswer n => some { s with answers := s.answers.eraseIdx n }

def step (handshake : ℕ → Bool) (s : State) : Action → Option State
  | .call i a => callStep handshake s i a
  | .read r a => readStep s r a
  | .failPending f a => failStep s f a
  | .net a => netStep s a

def CallState.Outstanding : CallState → Prop
  | .ready | .returned _ => False
  | _ => True

def Outstanding (s : State) (i : ℕ) : Prop := (s.calls i).Outstanding

def UnderWay (s : State) (i : ℕ) : Prop := ∃ f, (f ∈ s.requests ∨ f ∈ s.answers) ∧ f.call = i

def InUse (s : State) (i : ℕ) : Prop := Outstanding s i ∨ UnderWay s i

/-- When a `ckey` is issued, fewer than `2 ^ 32` have been issued, with it, since each call that
counts began. -/
def Window (Counts : State → ℕ → Prop) (s : State) : Action → Prop
  | .call _ .issue => ∀ j, Counts s j → s.issued + 1 < s.base j + 2 ^ 32
  | _ => True

abbrev Period : ℕ := 2 ^ 32 - 1

/-- The call has been issued the `ckey`, as far as numbers modulo `Period` can tell. -/
def Matches (s : State) (i : ℕ) (k : UInt32) : Prop :=
  0 < s.num i ∧ k.toNat % Period = s.num i % Period

def CallState.HasKey (k : UInt32) : CallState → Prop
  | .storing k' | .sending k' | .waiting k' | .deleting k' _ => k' = k
  | _ => False

def CallState.Early : CallState → Prop
  | .ready | .issuing => True
  | _ => False

def CallState.Returned : CallState → Prop
  | .returned _ => True
  | _ => False

def CallState.HasAnswer (c : ℕ) : CallState → Prop
  | .deleting _ res | .returned res => res = some (.answer c)
  | _ => False

/-- A `ckey` in use belongs to one call. -/
structure Inv (s : State) : Prop where
  next : s.nextCkey.toNat % Period = s.issued % Period
  num_le : ∀ i, s.num i ≤ s.issued
  num_inj : ∀ i j, 0 < s.num i → s.num i = s.num j → i = j
  base_le : ∀ i, s.base i ≤ s.issued
  base_lt : ∀ i, 0 < s.num i → s.base i < s.num i
  early : ∀ i, (s.calls i).Early → s.num i = 0
  key : ∀ i k, (s.calls i).HasKey k → Matches s i k
  entry : ∀ k i, s.pending k = some i → Matches s i k
  frame : ∀ f, f ∈ s.requests ∨ f ∈ s.answers → Matches s f.call f.ckey
  window : ∀ i, InUse s i → 0 < s.num i → s.issued < s.num i + Period
  chan : ∀ i c, s.chans i = some (.answer c) → ¬ (s.calls i).Returned → c = i
  reader : ∀ r i f, s.readers r = .sending i f → ¬ (s.calls i).Returned → f.call = i
  result : ∀ i c, (s.calls i).HasAnswer c → c = i

lemma inv_initial : Inv initial where
  next := rfl
  num_le := fun _ => Nat.le_refl _
  num_inj := fun _ _ h => absurd h (Nat.lt_irrefl 0)
  base_le := fun _ => Nat.le_refl _
  base_lt := fun _ h => absurd h (Nat.lt_irrefl 0)
  early := fun _ _ => rfl
  key := fun _ _ h => h.elim
  entry := fun _ _ h => by cases h
  frame := fun _ h => by rcases h with h | h <;> cases h
  window := fun _ _ h => absurd h (Nat.lt_irrefl 0)
  chan := fun _ _ h => by cases h
  reader := fun _ _ _ h => by cases h
  result := fun _ _ h => h.elim

variable {s s' : State} {k : UInt32}

lemma Inv.unique {i j : ℕ} (hs : Inv s) (hi : InUse s i) (hj : InUse s j) (hki : Matches s i k)
    (hkj : Matches s j k) : i = j := by
  have h1 := hs.window i hi hki.1
  have h2 := hs.window j hj hkj.1
  have h3 := hs.num_le i
  have h4 := hs.num_le j
  have hmod : s.num i % Period = s.num j % Period := hki.2.symm.trans hkj.2
  have hperiod : Period = 4294967295 := rfl
  rw [hperiod] at h1 h2 hmod
  exact hs.num_inj i j hki.1 (by omega)

lemma setCall_self (s : State) (i : ℕ) (c : CallState) : (s.setCall i c).calls i = c :=
  update_self ..

lemma setCall_ne (s : State) {i j : ℕ} (c : CallState) (h : j ≠ i) :
    (s.setCall i c).calls j = s.calls j := update_of_ne h ..

lemma setPending_self (s : State) (k : UInt32) (v : Option ℕ) :
    (s.setPending k v).pending k = v :=
  update_self ..

lemma setChan_self (s : State) (i : ℕ) (m : Option Msg) : (s.setChan i m).chans i = m :=
  update_self ..

lemma setReader_self (s : State) (r : ℕ) (x : Reader) : (s.setReader r x).readers r = x :=
  update_self ..

variable {c : CallState} {i : ℕ}

lemma forall_setCall {p : ℕ → CallState → Prop} (hc : p i c) (h : ∀ j, j ≠ i → p j (s.calls j)) :
    ∀ j, p j ((s.setCall i c).calls j) :=
  (forall_update_iff s.calls p).mpr ⟨hc, h⟩

lemma Inv.setCall (hs : Inv s) (hearly : c.Early → s.num i = 0)
    (hkey : ∀ k, c.HasKey k → Matches s i k)
    (hout : c.Outstanding → 0 < s.num i → Outstanding s i)
    (hlive : ¬ c.Returned → ¬ (s.calls i).Returned) (hres : ∀ a, c.HasAnswer a → a = i) :
    Inv (s.setCall i c) := by
  have hlive' : ∀ j, ¬ ((s.setCall i c).calls j).Returned → ¬ (s.calls j).Returned :=
    forall_setCall (p := fun j c => ¬ c.Returned → ¬ (s.calls j).Returned) hlive fun _ _ => id
  have hout' : ∀ j, ((s.setCall i c).calls j).Outstanding → 0 < s.num j → Outstanding s j :=
    forall_setCall (p := fun j c => c.Outstanding → 0 < s.num j → Outstanding s j) hout
      fun _ _ h _ => h
  exact ⟨hs.next, hs.num_le, hs.num_inj, hs.base_le, hs.base_lt,
    forall_setCall (p := fun j c => c.Early → s.num j = 0) hearly fun j _ => hs.early j,
    forall_setCall (p := fun j c => ∀ k, c.HasKey k → Matches s j k) hkey fun j _ => hs.key j,
    hs.entry, hs.frame,
    fun j hj hpos => hs.window j (hj.imp_left fun ho => hout' j ho hpos) hpos,
    fun j a h hj => hs.chan j a h (hlive' j hj), fun r j f h hj => hs.reader r j f h (hlive' j hj),
    forall_setCall (p := fun j c => ∀ a, c.HasAnswer a → a = j) hres fun j _ => hs.result j⟩

lemma Inv.setPending {v : Option ℕ} (hs : Inv s) (hv : ∀ i, v = some i → Matches s i k) :
    Inv (s.setPending k v) :=
  { hs with
    entry := (forall_update_iff s.pending fun k v => ∀ i, v = some i → Matches s i k).mpr
      ⟨hv, fun k' _ => hs.entry k'⟩ }

lemma Inv.setChan {m : Option Msg} (hs : Inv s)
    (hm : ∀ c, m = some (.answer c) → ¬ (s.calls i).Returned → c = i) : Inv (s.setChan i m) :=
  { hs with
    chan := (forall_update_iff s.chans fun i m =>
      ∀ c, m = some (.answer c) → ¬ (s.calls i).Returned → c = i).mpr ⟨hm, fun j _ => hs.chan j⟩ }

lemma Inv.setReader {r : ℕ} {x : Reader} (hs : Inv s)
    (hx : ∀ i f, x = .sending i f → ¬ (s.calls i).Returned → f.call = i) : Inv (s.setReader r x) :=
  { hs with
    reader := (forall_update_iff s.readers fun _ x =>
      ∀ i f, x = .sending i f → ¬ (s.calls i).Returned → f.call = i).mpr
      ⟨hx, fun r' _ => hs.reader r'⟩ }

lemma Inv.setFailer {f : ℕ} {x : Failer} (hs : Inv s) : Inv (s.setFailer f x) := { hs with }

lemma Inv.setFrames {requests answers : List Frame} (hs : Inv s)
    (hf : ∀ f, f ∈ requests ∨ f ∈ answers → InUse s f.call ∧ Matches s f.call f.ckey) :
    Inv { s with requests := requests, answers := answers } := by
  refine { hs with frame := fun f h => (hf f h).2, window := fun i hi => hs.window i ?_ }
  rcases hi with h | ⟨f, h, rfl⟩
  · exact .inl h
  · exact (hf f h).1

variable {f : Frame}

lemma Inv.inUse_frame (h : f ∈ s.requests ∨ f ∈ s.answers) : InUse s f.call :=
  .inr ⟨f, h, rfl⟩

lemma Inv.enter (hs : Inv s) (hi : s.calls i = .ready) :
    Inv ({ s with base := update s.base i s.issued }.setCall i .issuing) := by
  have hnum : s.num i = 0 := hs.early i (by rw [hi]; trivial)
  have hbase : Inv { s with base := update s.base i s.issued } := by
    refine { hs with base_le := ?_, base_lt := ?_ }
    · exact (forall_update_iff s.base fun _ b => b ≤ s.issued).mpr
        ⟨Nat.le_refl _, fun j _ => hs.base_le j⟩
    · exact (forall_update_iff s.base fun j b => 0 < s.num j → b < s.num j).mpr
        ⟨fun h => absurd hnum (Nat.ne_of_gt h), fun j _ => hs.base_lt j⟩
  refine hbase.setCall (fun _ => hnum) (fun k h => h.elim)
    (fun _ hpos => absurd hnum (Nat.ne_of_gt hpos)) (fun _ => ?_) (fun a h => h.elim)
  show ¬ (s.calls i).Returned
  rw [hi]
  exact id

variable {n : ℕ}

lemma next_add_one {a : UInt32} (h : a.toNat % Period = n % Period) :
    (a + 1 = 0 → (0 : UInt32).toNat % Period = n % Period) ∧
      (a + 1 ≠ 0 → (a + 1).toNat % Period = (n + 1) % Period) := by
  have hperiod : Period = 4294967295 := rfl
  have hlt := a.toNat_lt
  have hadd : (a + 1).toNat = (a.toNat + 1) % 2 ^ 32 := by
    rw [UInt32.toNat_add]
    rfl
  rw [hperiod] at h ⊢
  constructor
  · intro hz
    have hz' : (a + 1).toNat = 0 := by rw [hz]; rfl
    show 0 % 4294967295 = _
    omega
  · intro hne
    have hne' : (a + 1).toNat ≠ 0 := fun h0 => hne (UInt32.toNat_inj.mp h0)
    omega

def State.issueTo (s : State) (i : ℕ) : State :=
  { s with
    nextCkey := s.nextCkey + 1
    issued := s.issued + 1
    num := Function.update s.num i (s.issued + 1) }.setCall i (.storing (s.nextCkey + 1))

/-! ## Issuing an id -/

section

variable {i : ℕ}

lemma issueTo_num_self (s : State) (i : ℕ) : (s.issueTo i).num i = s.issued + 1 :=
  update_self ..

lemma issueTo_num_ne {j : ℕ} (hji : j ≠ i) : (s.issueTo i).num j = s.num j :=
  update_of_ne hji ..

lemma issueTo_calls_self (s : State) (i : ℕ) :
    (s.issueTo i).calls i = .storing (s.nextCkey + 1) :=
  setCall_self ..

lemma issueTo_calls_ne {j : ℕ} (hji : j ≠ i) : (s.issueTo i).calls j = s.calls j :=
  setCall_ne _ _ hji

lemma Inv.issueTo_num_inj (hs : Inv s) (j k : ℕ) (hj : 0 < (s.issueTo i).num j)
    (hjk : (s.issueTo i).num j = (s.issueTo i).num k) : j = k := by
  by_cases hji : j = i <;> by_cases hki : k = i
  · rw [hji, hki]
  · rw [hji, issueTo_num_self, issueTo_num_ne hki] at hjk
    have := hs.num_le k
    omega
  · rw [hki, issueTo_num_self, issueTo_num_ne hji] at hjk
    have := hs.num_le j
    omega
  · rw [issueTo_num_ne hji] at hj hjk
    rw [issueTo_num_ne hki] at hjk
    exact hs.num_inj j k hj hjk

lemma Inv.issueTo_base_lt (hs : Inv s) (j : ℕ) (hj : 0 < (s.issueTo i).num j) :
    s.base j < (s.issueTo i).num j := by
  have hbase := hs.base_le j
  by_cases hji : j = i
  · rw [hji, issueTo_num_self]
    rw [hji] at hbase
    omega
  · rw [issueTo_num_ne hji] at hj ⊢
    exact hs.base_lt j hj

lemma Matches.issueTo {j : ℕ} (h : Matches s j k) (hnum : s.num i = 0) :
    Matches (s.issueTo i) j k := by
  have hpos := h.1
  have hji : j ≠ i := by
    rintro rfl
    omega
  unfold Matches
  rw [issueTo_num_ne hji]
  exact h

lemma Inv.issueTo_window (hs : Inv s) (hwin : ∀ j, InUse s j → s.issued + 1 < s.base j + 2 ^ 32)
    (j : ℕ) (hj : InUse (s.issueTo i) j) (hpos : 0 < (s.issueTo i).num j) :
    s.issued + 1 < (s.issueTo i).num j + Period := by
  have hperiod : Period = 4294967295 := rfl
  by_cases hji : j = i
  · rw [hji, issueTo_num_self]
    omega
  · rw [issueTo_num_ne hji] at hpos ⊢
    have huse : InUse s j := by
      refine hj.imp_left fun ho => ?_
      unfold Outstanding at ho ⊢
      rwa [issueTo_calls_ne hji] at ho
    have h1 := hwin j huse
    have h2 := hs.base_lt j hpos
    omega

lemma Inv.issueTo (hs : Inv s) (hi : s.calls i = .issuing)
    (hnext : (s.nextCkey + 1).toNat % Period = (s.issued + 1) % Period)
    (hwin : ∀ j, InUse s j → s.issued + 1 < s.base j + 2 ^ 32) : Inv (s.issueTo i) := by
  have hnum : s.num i = 0 := hs.early i (by rw [hi]; trivial)
  have hlive : ∀ j, ¬ ((s.issueTo i).calls j).Returned → ¬ (s.calls j).Returned :=
    forall_setCall (p := fun j c => ¬ c.Returned → ¬ (s.calls j).Returned)
      (by rw [hi]; exact fun _ => id) fun _ _ => id
  have hle : ∀ j, (s.issueTo i).num j ≤ s.issued + 1 :=
    (forall_update_iff s.num fun _ n => n ≤ s.issued + 1).mpr
      ⟨Nat.le_refl _, fun j _ => Nat.le_succ_of_le (hs.num_le j)⟩
  refine ⟨hnext, hle, hs.issueTo_num_inj, fun j => Nat.le_succ_of_le (hs.base_le j),
    hs.issueTo_base_lt, ?_, ?_, fun k j h => (hs.entry k j h).issueTo hnum,
    fun f h => (hs.frame f h).issueTo hnum, hs.issueTo_window hwin,
    fun j c h hj => hs.chan j c h (hlive j hj), fun r j f h hj => hs.reader r j f h (hlive j hj), ?_⟩
  · refine forall_setCall (p := fun j c => c.Early → (s.issueTo i).num j = 0) False.elim ?_
    exact fun j hji hj => (issueTo_num_ne hji).trans (hs.early j hj)
  · refine forall_setCall (p := fun j c => ∀ k, c.HasKey k → Matches (s.issueTo i) j k) ?_
      fun j _ k hj => (hs.key j k hj).issueTo hnum
    rintro _ rfl
    rw [Matches, issueTo_num_self]
    exact ⟨Nat.succ_pos _, hnext⟩
  · exact forall_setCall (p := fun j c => ∀ a, c.HasAnswer a → a = j) (fun _ => False.elim)
      fun j _ => hs.result j

lemma Inv.issue (hs : Inv s) (hi : s.calls i = .issuing)
    (hwin : ∀ j, InUse s j → s.issued + 1 < s.base j + 2 ^ 32) : Inv (nextCorrelation s i) := by
  obtain ⟨hskip, hnext⟩ := next_add_one hs.next
  unfold nextCorrelation
  split_ifs with hz
  · exact { hs with next := hskip hz }
  · exact hs.issueTo hi (hnext hz) hwin

end

lemma Inv.outstanding (hs : Inv s) (hpos : 0 < s.num i) (hlive : ¬ (s.calls i).Returned) :
    Outstanding s i := by
  have hearly : ¬ (s.calls i).Early := fun h => by
    rw [hs.early i h] at hpos
    exact absurd hpos (Nat.lt_irrefl 0)
  unfold Outstanding
  cases h : s.calls i with
  | ready => rw [h] at hearly; exact hearly trivial
  | returned res => rw [h] at hlive; exact hlive trivial
  | _ => trivial

lemma CallState.HasKey.not_returned (h : c.HasKey k) : ¬ c.Returned := by
  cases c with
  | returned res => exact h.elim
  | _ => exact id

/-! ## Calls under their ids -/

section

variable {i : ℕ} {k : UInt32} {c c' : CallState}

lemma Inv.moveCall (hs : Inv s) (hi : s.calls i = c) (hk : c.HasKey k) (hearly : ¬ c'.Early)
    (hkey : ∀ k', c'.HasKey k' → k' = k) (hres : ∀ a, c'.HasAnswer a → a = i) :
    Inv (s.setCall i c') := by
  subst hi
  refine hs.setCall (fun h => (hearly h).elim) (fun k' h => ?_)
    (fun _ hpos => hs.outstanding hpos hk.not_returned) (fun _ => hk.not_returned) hres
  rw [hkey k' h]
  exact hs.key i k hk

lemma Inv.addRequest (hs : Inv s) (hi : s.calls i = c) (hk : c.HasKey k) :
    Inv { s with requests := s.requests ++ [Frame.mk i k] } := by
  subst hi
  have hkey := hs.key i k hk
  refine hs.setFrames fun f hf => ?_
  rcases hf with hf | hf
  · rcases mem_append.mp hf with hf | hf
    · exact ⟨Inv.inUse_frame (.inl hf), hs.frame f (.inl hf)⟩
    · rw [mem_singleton.mp hf]
      exact ⟨.inl (hs.outstanding hkey.1 hk.not_returned), hkey⟩
  · exact ⟨Inv.inUse_frame (.inr hf), hs.frame f (.inr hf)⟩

end

variable {handshake : ℕ → Bool}

lemma Inv.callStep {a : CallStep} (hs : Inv s) (hwin : Window InUse s (.call i a))
    (h : callStep handshake s i a = some s') : Inv s' := by
  revert h
  fun_cases Correlation.callStep handshake s i a <;> rintro ⟨⟩
  case case1 hi => exact hs.enter hi
  case case3 hi =>
    exact hs.setCall (fun h => h.elim) (fun k h => h.elim) (fun h => h.elim)
      (fun h => (h trivial).elim) (fun a h => by cases h)
  case case5 hi => exact hs.issue hi hwin
  case case7 k hi =>
    have hp : Inv (s.setPending k (some i)) := hs.setPending fun j hj => by
      rw [← Option.some.inj hj]
      exact hs.key i k (by rw [hi]; exact rfl)
    exact hp.moveCall hi rfl id (fun k' h => h.symm) fun a h => h.elim
  case case9 k hi =>
    exact (hs.addRequest hi rfl).moveCall hi rfl id (fun k' h => h.symm) fun a h => h.elim
  -- a write that fails, with and without the frame delivered
  case case11 k hi =>
    exact (hs.addRequest hi rfl).moveCall hi rfl id (fun k' h => h.symm) fun a h => by cases h
  case case12 k hi _ => exact hs.moveCall hi rfl id (fun k' h => h.symm) fun a h => by cases h
  -- what is received is the call's own, of a handshake and of a plain call
  case case14 k m hm hi _ =>
    exact (hs.setChan fun c h => by cases h).moveCall hi rfl id (fun k' h => h.symm) fun a h =>
      hs.chan i a (hm.trans h) (by rw [hi]; exact id)
  case case15 k m hm hi _ =>
    exact (hs.setChan fun c h => by cases h).moveCall hi rfl id (fun k' h => h.elim) fun a h =>
      hs.chan i a (hm.trans h) (by rw [hi]; exact id)
  case case17 k hi => exact hs.moveCall hi rfl id (fun k' h => h.symm) fun a h => by cases h
  case case19 k res hi =>
    exact (hs.setPending fun j hj => by cases hj).moveCall hi rfl id (fun k' h => h.elim) fun a h =>
      hs.result i a (by rw [hi]; exact h)

lemma Inv.eraseAnswer (hs : Inv s) (n : ℕ) : Inv { s with answers := s.answers.eraseIdx n } :=
  hs.setFrames fun f hf =>
    have hf' : f ∈ s.requests ∨ f ∈ s.answers := hf.imp_right mem_of_mem_eraseIdx
    ⟨Inv.inUse_frame hf', hs.frame f hf'⟩

lemma Inv.readStep {r : ℕ} {a : ReadStep} (hs : Inv s) (h : readStep s r a = some s') :
    Inv s' := by
  revert h
  fun_cases Correlation.readStep s r a <;> rintro ⟨⟩
  case case1 n f hf _ ch hch =>
    have hmem : f ∈ s.answers := mem_of_getElem? hf
    have hentry : Matches s ch f.ckey := by
      split_ifs at hch
      exact hs.entry f.ckey ch hch
    refine ((hs.eraseAnswer n).setPending fun j hj => by cases hj).setReader fun i f' hx hlive => ?_
    obtain ⟨rfl, rfl⟩ := Reader.sending.inj hx
    exact hs.unique (Inv.inUse_frame (.inr hmem)) (.inl (hs.outstanding hentry.1 hlive))
      (hs.frame f (.inr hmem)) hentry
  case case2 n _ _ _ _ => exact hs.eraseAnswer n
  case case4 ch f hr _ =>
    have hc : Inv (s.setChan ch (some (.answer f.call))) := hs.setChan fun c hc hlive => by
      obtain rfl := Msg.answer.inj (Option.some.inj hc)
      exact hs.reader r ch f hr hlive
    exact hc.setReader fun i f' h => by cases h

lemma Inv.failStep {f : ℕ} {a : FailStep} (hs : Inv s) (h : failStep s f a = some s') :
    Inv s' := by
  revert h
  fun_cases Correlation.failStep s f a <;> rintro ⟨⟩
  case case1 => exact hs.setFailer
  case case3 => exact (hs.setChan fun c h => by cases h).setFailer
  case case4 => exact hs.setFailer
  case case6 => exact (hs.setPending fun j h => by cases h).setFailer

lemma Inv.netStep {a : NetStep} (hs : Inv s) (h : netStep s a = some s') : Inv s' := by
  -- no frame is new
  have hsub : ∀ {requests answers : List Frame}, (∀ g, g ∈ requests ∨ g ∈ answers →
      g ∈ s.requests ∨ g ∈ s.answers) → Inv { s with requests := requests, answers := answers } :=
    fun hg => hs.setFrames fun g h => ⟨Inv.inUse_frame (hg g h), hs.frame g (hg g h)⟩
  revert h
  fun_cases Correlation.netStep s a <;> rintro ⟨⟩
  case case1 n f hf =>
    refine hsub fun g hg => ?_
    rcases hg with hg | hg
    · exact .inl (mem_of_mem_eraseIdx hg)
    · rcases mem_append.mp hg with hg | hg
      · exact .inr hg
      · rw [mem_singleton.mp hg]
        exact .inl (mem_of_getElem? hf)
  case case3 n => exact hsub fun g hg => hg.imp_left mem_of_mem_eraseIdx
  case case4 n => exact hs.eraseAnswer n

lemma Inv.step {a : Action} (hs : Inv s) (hwin : Window InUse s a)
    (h : step handshake s a = some s') : Inv s' := by
  cases a with
  | call i a => exact hs.callStep hwin h
  | read r a => exact hs.readStep h
  | failPending f a => exact hs.failStep h
  | net a => exact hs.netStep h

/-- **Every reply a call returns** answers the frame of this call, or is the `ErrBroker` reply; and
no answer is returned by two calls. -/
theorem replies_correlated (handshake : ℕ → Bool) (as : List Action) (s : State)
    (hrun : run (Correlation.step handshake) initial as = some s)
    (hwin : Along (Correlation.step handshake) (Window InUse) initial as) :
    (∀ i m, s.calls i = .returned (some m) → m = .answer i ∨ m = .abort) ∧
      ∀ i j c, s.calls i = .returned (some (.answer c)) →
        s.calls j = .returned (some (.answer c)) → i = j := by
  have hs : Inv s :=
    invariant (Correlation.step handshake) (fun _ _ _ hs hw h => hs.step hw h) inv_initial hwin hrun
  have hown : ∀ i c, s.calls i = .returned (some (.answer c)) → c = i := fun i c h =>
    hs.result i c (by rw [h]; exact rfl)
  constructor
  · intro i m h
    cases m with
    | answer c => exact .inl (by rw [hown i c h])
    | abort => exact .inr rfl
  · intro i j c hi hj
    exact (hown i c hi).symm.trans (hown j c hj)

def crossedCalls : List Action :=
  [.call 0 .enter, .call 1 .enter, .call 0 .issue, .call 1 .issue, .call 0 .store, .call 1 .store,
    .call 0 .write, .call 1 .write, .net (.answer 1), .read 0 (.dispatch 0), .read 0 .send,
    .call 1 .receive, .net (.answer 0), .read 0 (.dispatch 0), .read 0 .send, .call 0 .receive]

theorem replies_correlated_crossedCalls :
    ∃ s, run (Correlation.step fun _ => false) initial crossedCalls = some s ∧
      (∀ i m, s.calls i = .returned (some m) → m = .answer i ∨ m = .abort) ∧
      s.calls 0 = .returned (some (.answer 0)) ∧ s.calls 1 = .returned (some (.answer 1)) := by
  have hwin : ∀ {b n : ℕ}, n < 2 → n + 1 < b + 2 ^ 32 := fun h => by omega
  refine ⟨_, rfl, (replies_correlated (fun _ => false) crossedCalls _ rfl ?_).1, rfl, rfl⟩
  refine along_cons _ trivial rfl (along_cons _ trivial rfl (along_cons _ (fun _ _ => ?_) rfl ?_))
  · exact hwin (Nat.zero_lt_two)
  refine along_cons _ (fun _ _ => ?_) rfl (along_cons _ trivial rfl (along_cons _ trivial rfl ?_))
  · exact hwin (Nat.one_lt_two)
  refine along_cons _ trivial rfl (along_cons _ trivial rfl (along_cons _ trivial rfl ?_))
  refine along_cons _ trivial rfl (along_cons _ trivial rfl (along_cons _ trivial rfl ?_))
  refine along_cons _ trivial rfl (along_cons _ trivial rfl (along_cons _ trivial rfl ?_))
  exact along_cons _ trivial rfl trivial

/-- The calls below `n` are over, and the frame of the first is still under way. -/
structure Lull (n : ℕ) (s : State) : Prop where
  next : s.nextCkey.toNat = n
  ready : ∀ i, n ≤ i → s.calls i = .ready
  past : ∀ i, i < n → ¬ Outstanding s i
  chans : ∀ i, n ≤ i → s.chans i = none
  requests : s.requests = [⟨0, 1⟩]
  answers : s.answers = []
  reader : s.readers 0 = .idle

/-! ## The steps of a call -/

section

variable {handshake : ℕ → Bool} {s : State} {i : ℕ} {k : UInt32}

lemma step_enter (h : s.calls i = .ready) : step handshake s (.call i .enter) =
    some ({ s with base := update s.base i s.issued }.setCall i .issuing) :=
  if_pos h

lemma step_skip (h : s.calls i = .issuing) (hz : s.nextCkey + 1 = 0) :
    step handshake s (.call i .issue) = some { s with nextCkey := 0 } :=
  (if_pos h).trans (congrArg some (if_pos hz))

lemma step_issue (h : s.calls i = .issuing) (hz : s.nextCkey + 1 ≠ 0) :
    step handshake s (.call i .issue) = some (s.issueTo i) :=
  (if_pos h).trans (congrArg some (if_neg hz))

lemma step_store (h : s.calls i = .storing k) : step handshake s (.call i .store) =
    some ((s.setPending k (some i)).setCall i (.sending k)) := by
  simp only [step, callStep, h]

lemma step_write (h : s.calls i = .sending k) : step handshake s (.call i .write) =
    some ({ s with requests := s.requests ++ [Frame.mk i k] }.setCall i (.waiting k)) := by
  simp only [step, callStep, h]

lemma step_fail (h : s.calls i = .sending k) : step handshake s (.call i (.fail false)) =
    some (s.setCall i (.deleting k none)) := by
  simp only [step, callStep, h]
  rfl

lemma step_delete {res : Option Msg} (h : s.calls i = .deleting k res) :
    step handshake s (.call i .delete) = some ((s.setPending k none).setCall i (.returned res)) := by
  simp only [step, callStep, h]

lemma step_receive {m : Msg} (h : s.calls i = .waiting k) (hm : s.chans i = some m) :
    step (fun _ => false) s (.call i .receive) =
      some ((s.setChan i none).setCall i (.returned (some m))) := by
  simp only [step, callStep, h, hm]
  rfl

lemma step_answer (h : s.requests[0]? = some f) :
    step handshake s (.net (.answer 0)) =
      some { s with requests := s.requests.eraseIdx 0, answers := s.answers ++ [f] } := by
  simp only [step, netStep, h]

lemma step_dispatch {ch : ℕ} (hr : s.readers 0 = .idle) (h : s.answers[0]? = some f)
    (hk : f.ckey ≠ 0) (hp : s.pending f.ckey = some ch) : step handshake s (.read 0 (.dispatch 0)) =
    some (({ s with answers := s.answers.eraseIdx 0 }.setPending f.ckey none).setReader 0
      (.sending ch f)) := by
  simp only [step, readStep, hr, h, if_pos hk, hp]

lemma step_send {ch : ℕ} (hr : s.readers 0 = .sending ch f) (h : s.chans ch = none) :
    step handshake s (.read 0 .send) =
      some ((s.setChan ch (some (.answer f.call))).setReader 0 .idle) := by
  simp only [step, readStep, hr, if_pos h]

end

lemma Lull.window {s s₁ : State} (hl : Lull n s) (hcalls : ∀ i, i ≠ n → s₁.calls i = s.calls i)
    (hbase : s₁.base n = s₁.issued) : Window Outstanding s₁ (.call n .issue) := by
  intro j hj
  have hjn : j = n := by
    by_contra hne
    unfold Outstanding at hj
    rw [hcalls j hne] at hj
    rcases Nat.lt_or_ge j n with hlt | hge
    · exact hl.past j hlt hj
    · rw [hl.ready j hge] at hj
      exact hj
  rw [hjn, hbase]
  omega

lemma Lull.next_call {s s' : State} (hl : Lull n s) (hnext : s'.nextCkey.toNat = n + 1)
    (hcalls : ∀ i, i ≠ n → s'.calls i = s.calls i) (hover : ¬ Outstanding s' n)
    (hchans : s'.chans = s.chans) (hreq : s'.requests = s.requests)
    (hans : s'.answers = s.answers) (hread : s'.readers = s.readers) : Lull (n + 1) s' := by
  refine ⟨hnext, fun i hi => ?_, fun i hi => ?_, fun i hi => ?_, hreq.trans hl.requests,
    hans.trans hl.answers, by rw [hread]; exact hl.reader⟩
  · rw [hcalls i (by omega)]
    exact hl.ready i (by omega)
  · by_cases hin : i = n
    · rw [hin]; exact hover
    · unfold Outstanding
      rw [hcalls i hin]
      exact hl.past i (by omega)
  · rw [hchans]
    exact hl.chans i (by omega)

def failedCall (i : ℕ) : List Action :=
  [.call i .enter, .call i .issue, .call i .store, .call i (.fail false), .call i .delete]

lemma leads_failedCall {s : State} (hl : Lull n s) (hn : n + 1 < 2 ^ 32) :
    ∃ s', Leads (Correlation.step fun _ => false) (Window Outstanding) s (failedCall n) s' ∧
      Lull (n + 1) s' := by
  have hv : (s.nextCkey + 1).toNat = n + 1 := by
    rw [UInt32.toNat_add, hl.next]
    exact Nat.mod_eq_of_lt hn
  have hz : s.nextCkey + 1 ≠ 0 := fun h => by
    rw [h] at hv
    cases hv
  set s₁ := { s with base := update s.base n s.issued }.setCall n .issuing with hs₁
  have h₁ : s₁.calls n = .issuing := setCall_self ..
  set k := s₁.nextCkey + 1 with hk
  have h₂ : (s₁.issueTo n).calls n = .storing k := issueTo_calls_self ..
  set s₃ := ((s₁.issueTo n).setPending k (some n)).setCall n (.sending k) with hs₃
  have h₃ : s₃.calls n = .sending k := setCall_self ..
  set s₄ := s₃.setCall n (.deleting k none) with hs₄
  have h₄ : s₄.calls n = .deleting k none := setCall_self ..
  set s₅ := (s₄.setPending k none).setCall n (.returned none) with hs₅
  have h₅ : s₅.calls n = .returned none := setCall_self ..
  have hcalls₁ : ∀ i, i ≠ n → s₁.calls i = s.calls i := fun i hi => setCall_ne _ _ hi
  have hcalls : ∀ i, i ≠ n → s₅.calls i = s.calls i := by
    intro i hi
    rw [hs₅, setCall_ne _ _ hi]
    show s₄.calls i = _
    rw [hs₄, setCall_ne _ _ hi, hs₃, setCall_ne _ _ hi]
    show (s₁.issueTo n).calls i = _
    rw [issueTo_calls_ne hi]
    exact hcalls₁ i hi
  refine ⟨s₅, ?_, hl.next_call hv hcalls (by unfold Outstanding; rw [h₅]; exact id) rfl rfl rfl rfl⟩
  refine .cons trivial (step_enter (hl.ready n (Nat.le_refl _))) ?_
  refine .cons (hl.window hcalls₁ (update_self ..)) (step_issue h₁ hz) ?_
  exact .cons trivial (step_store h₂) (.cons trivial (step_fail h₃)
    (.cons trivial (step_delete h₄) (.nil _)))

lemma leads_failedCalls : ∀ (m : ℕ) {n : ℕ} {s : State}, Lull n s → n + m < 2 ^ 32 →
    ∃ as s', Leads (Correlation.step fun _ => false) (Window Outstanding) s as s' ∧ Lull (n + m) s'
  | 0, _, s, hl, _ => ⟨[], s, .nil s, hl⟩
  | m + 1, n, s, hl, hn => by
    obtain ⟨s₁, h₁, hl₁⟩ := leads_failedCall hl (by omega)
    obtain ⟨as, s', h₂, hl₂⟩ := leads_failedCalls m hl₁ (by omega)
    refine ⟨failedCall n ++ as, s', h₁.append h₂, ?_⟩
    rwa [Nat.add_assoc, Nat.add_comm 1 m] at hl₂

def cancelledCall : List Action :=
  [.call 0 .enter, .call 0 .issue, .call 0 .store, .call 0 .write, .call 0 .giveUp, .call 0 .delete]

lemma leads_cancelledCall :
    ∃ s, Leads (Correlation.step fun _ => false) (Window Outstanding) initial cancelledCall s ∧
      Lull 1 s := by
  have hcalls : ∀ i, 1 ≤ i → i ≠ 0 := fun i hi => by omega
  refine ⟨_, .cons trivial rfl (.cons (fun _ _ => ?_) rfl (.cons trivial rfl (.cons trivial rfl
    (.cons trivial rfl (.cons trivial rfl (.nil _)))))), ?_⟩
  · show 0 + 1 < _ + 2 ^ 32
    omega
  · refine ⟨rfl, fun i hi => ?_, fun i hi => ?_, fun _ _ => rfl, rfl, rfl, rfl⟩
    · simp [State.setCall, State.setPending, nextCorrelation, initial, hcalls i hi]
    · obtain rfl : i = 0 := by omega
      exact id

def roundCall (i : ℕ) : List Action :=
  [.call i .enter, .call i .issue, .call i .issue, .call i .store, .call i .write]

def lateAnswer (i : ℕ) : List Action :=
  [.net (.answer 0), .read 0 (.dispatch 0), .read 0 .send, .call i .receive]

structure Mistaken (n : ℕ) (s : State) : Prop where
  waiting : s.calls n = .waiting 1
  pending : s.pending 1 = some n
  chan : s.chans n = none
  requests : s.requests[0]? = some ⟨0, 1⟩
  answers : s.answers = []
  reader : s.readers 0 = .idle

lemma leads_roundCall {s : State} (hl : Lull n s) (hn : n = Period) :
    ∃ s', Leads (Correlation.step fun _ => false) (Window Outstanding) s (roundCall n) s' ∧
      Mistaken n s' := by
  have hzero : s.nextCkey + 1 = 0 := by
    apply UInt32.toNat_inj.mp
    rw [UInt32.toNat_add, hl.next, hn]
    rfl
  set s₁ := { s with base := update s.base n s.issued }.setCall n .issuing with hs₁
  have h₁ : s₁.calls n = .issuing := setCall_self ..
  have hcalls₁ : ∀ i, i ≠ n → s₁.calls i = s.calls i := fun i hi => setCall_ne _ _ hi
  -- the counter skips 0 and comes to 1
  set s₂ : State := { s₁ with nextCkey := 0 } with hs₂
  have h₃ : (s₂.issueTo n).calls n = .storing 1 := issueTo_calls_self ..
  set s₄ := ((s₂.issueTo n).setPending 1 (some n)).setCall n (.sending 1) with hs₄
  have h₄ : s₄.calls n = .sending 1 := setCall_self ..
  have hreq : (s.requests ++ [Frame.mk n 1])[0]? = some ⟨0, 1⟩ := by
    rw [hl.requests]
    rfl
  refine ⟨{ s₄ with requests := s₄.requests ++ [Frame.mk n 1] }.setCall n (.waiting 1), ?_,
    ⟨setCall_self .., setPending_self (s₂.issueTo n) 1 (some n), hl.chans n (Nat.le_refl _), hreq,
      hl.answers, hl.reader⟩⟩
  refine .cons trivial (step_enter (hl.ready n (Nat.le_refl _))) ?_
  refine .cons (hl.window hcalls₁ (update_self ..)) (step_skip h₁ hzero) ?_
  refine .cons (hl.window hcalls₁ (update_self ..))
    (step_issue h₁ (show (0 : UInt32) + 1 ≠ 0 by decide)) ?_
  exact .cons trivial (step_store h₃) (.cons trivial (step_write h₄) (.nil _))

lemma leads_lateAnswer {s : State} (hm : Mistaken n s) :
    ∃ s', Leads (Correlation.step fun _ => false) (Window Outstanding) s (lateAnswer n) s' ∧
      s'.calls n = .returned (some (.answer 0)) := by
  set s₁ : State := { s with
      requests := s.requests.eraseIdx 0
      answers := s.answers ++ [Frame.mk 0 1] } with hs₁
  have h₁ : s₁.answers[0]? = some ⟨0, 1⟩ := by
    show (s.answers ++ [Frame.mk 0 1])[0]? = _
    rw [hm.answers]
    rfl
  set s₂ := ({ s₁ with answers := s₁.answers.eraseIdx 0 }.setPending 1 none).setReader 0
      (.sending n ⟨0, 1⟩) with hs₂
  have h₂ : s₂.readers 0 = .sending n ⟨0, 1⟩ := setReader_self ..
  set s₃ := (s₂.setChan n (some (.answer 0))).setReader 0 .idle with hs₃
  have h₃ : s₃.chans n = some (.answer 0) := setChan_self s₂ n (some (.answer 0))
  refine ⟨(s₃.setChan n none).setCall n (.returned (some (.answer 0))), ?_, setCall_self ..⟩
  refine .cons trivial (step_answer hm.requests) ?_
  refine .cons trivial (step_dispatch hm.reader h₁ (by decide) hm.pending) ?_
  refine .cons trivial (step_send h₂ hm.chan) ?_
  exact .cons trivial (step_receive hm.waiting h₃) (.nil _)

theorem late_answer_of_cancelled_call :
    ∃ as s, run (Correlation.step fun _ => false) initial as = some s ∧
      Along (Correlation.step fun _ => false) (Window Outstanding) initial as ∧
      ∃ i c, s.calls i = .returned (some (.answer c)) ∧ c ≠ i := by
  obtain ⟨s₁, h₁, hl₁⟩ := leads_cancelledCall
  obtain ⟨as, s₂, h₂, hl₂⟩ := leads_failedCalls (2 ^ 32 - 2) hl₁ (by omega)
  obtain ⟨s₃, h₃, hm⟩ := leads_roundCall hl₂ rfl
  obtain ⟨s₄, h₄, hcall⟩ := leads_lateAnswer hm
  obtain ⟨hrun, halong⟩ := h₁.append (h₂.append (h₃.append h₄))
  exact ⟨_, s₄, hrun, halong, _, 0, hcall, by decide⟩

end Wtg.Mymq.Correlation
