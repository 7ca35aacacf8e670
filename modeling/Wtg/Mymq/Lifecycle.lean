import Wtg.Lib.Transition

/-! # The end of the subscription channel

`subCh` is closed in two places of `pkg/mymq`: by `Client.Close`, and by `supervisorLoop` when
`MaxAttempts` reconnections have failed. Meanwhile `readLoop` goroutines send on it. -/

namespace Wtg.Mymq.Lifecycle

open Lib.Transition List Function

inductive Closer
  | entering
  | storingClosing
  | takingConn
  | closingConn (conn : Option ℕ)
  | closingSub
  | returned
deriving DecidableEq, Repr

inductive Reader
  | starting
  | reading (conn doneCh : ℕ)
  | dispatching (conn doneCh : ℕ)
  | exited
deriving DecidableEq, Repr

inductive Supervisor
  | absent
  | waiting
  | woken
  | deciding
  | backoff
  | dialing
  | swapping
  | startingReader
  | handshaking
  | closingFailed
  | exhausted
  | closingSub
  | exited
deriving DecidableEq, Repr

/-- The state of a client. -/
structure State where
  closed : Bool
  closing : Bool
  reconnecting : Bool
  conn : Option ℕ
  doneCh : ℕ
  conns : ℕ
  shut : List ℕ
  done : List ℕ
  subCloses : ℕ
  lateSends : ℕ
  attempt : ℕ
  closers : ℕ → Closer
  readers : List Reader
  sup : Supervisor

/-- The client after `Open`; `reconnect` is `MaxAttempts`, if there are `ReconnectOptions`. -/
def opened (reconnect : Option ℕ) : State where
  closed := false
  closing := false
  reconnecting := false
  conn := some 0
  doneCh := 0
  conns := 1
  shut := []
  done := []
  subCloses := 0
  lateSends := 0
  attempt := 0
  closers := fun _ => .entering
  readers := [.reading 0 0]
  sup := if reconnect.isSome then .waiting else .absent

inductive CloseStep
  | swapClosed
  | storeClosing
  | takeConn
  | closeConn
  | closeSub
deriving DecidableEq, Repr

inductive ReadStep
  | start
  | frame
  | reply
  | deliverUnsolicited
  | readError
deriving DecidableEq, Repr

inductive SuperStep
  | wake
  | checkClosing
  | nextAttempt
  | backoffOver
  | dialFailed
  | dialed
  | swapConn
  | goReadLoop
  | handshakeOk
  | handshakeFailed
  | closeFailed
  | storeClosed
  | closeSub
deriving DecidableEq, Repr

inductive Action
  | close (i : ℕ) (a : CloseStep)
  | read (r : ℕ) (a : ReadStep)
  | supervise (a : SuperStep)
deriving DecidableEq, Repr

namespace State

variable (s : State)

def setCloser (i : ℕ) (c : Closer) : State := { s with closers := Function.update s.closers i c }

def setReader (r : ℕ) (x : Reader) : State := { s with readers := s.readers.set r x }

def closeSub : State := { s with subCloses := s.subCloses + 1 }

def sendSub : State := if 0 < s.subCloses then { s with lateSends := s.lateSends + 1 } else s

def shutConn (conn : Option ℕ) : State := { s with shut := conn.toList ++ s.shut }

end State

def closeStep (s : State) (i : ℕ) : CloseStep → Option State
  | .swapClosed =>
    if s.closers i = .entering then
      if s.closed then some (s.setCloser i .returned)
      else some ({ s with closed := true }.setCloser i .storingClosing)
    else none
  | .storeClosing =>
    if s.closers i = .storingClosing then
      some ({ s with closing := true }.setCloser i .takingConn)
    else none
  | .takeConn =>
    if s.closers i = .takingConn then
      some ({ s with conn := none }.setCloser i (.closingConn s.conn))
    else none
  | .closeConn =>
    match s.closers i with
    | .closingConn conn => some ((s.shutConn conn).setCloser i .closingSub)
    | _ => none
  | .closeSub =>
    if s.closers i = .closingSub then some (s.closeSub.setCloser i .returned) else none

def readStep (s : State) (r : ℕ) : ReadStep → Option State
  | .start =>
    if s.readers[r]? = some .starting then
      match s.conn with
      | none => some (s.setReader r .exited)
      | some conn => some (s.setReader r (.reading conn s.doneCh))
    else none
  | .frame =>
    match s.readers[r]? with
    | some (.reading conn doneCh) =>
      if conn ∈ s.shut then none else some (s.setReader r (.dispatching conn doneCh))
    | _ => none
  | .reply =>
    match s.readers[r]? with
    | some (.dispatching conn doneCh) => some (s.setReader r (.reading conn doneCh))
    | _ => none
  | .deliverUnsolicited =>
    match s.readers[r]? with
    | some (.dispatching conn doneCh) => some (s.sendSub.setReader r (.reading conn doneCh))
    | _ => none
  | .readError =>
    match s.readers[r]? with
    | some (.reading _ doneCh) =>
      some ({ s with done := doneCh :: s.done }.setReader r .exited)
    | _ => none

def superStep (maxAttempts : ℕ) (s : State) : SuperStep → Option State
  | .wake =>
    if s.sup = .waiting ∧ s.doneCh ∈ s.done then some { s with sup := .woken } else none
  | .checkClosing =>
    if s.sup = .woken then
      if s.closing then some { s with sup := .exited }
      else some { s with reconnecting := true, sup := .deciding }
    else none
  | .nextAttempt =>
    if s.sup = .deciding then
      if 0 < maxAttempts ∧ maxAttempts < s.attempt + 1 then
        some { s with attempt := s.attempt + 1, sup := .exhausted }
      else some { s with attempt := s.attempt + 1, sup := .backoff }
    else none
  | .backoffOver =>
    if s.sup = .backoff then
      if s.closing then some { s with sup := .exited } else some { s with sup := .dialing }
    else none
  | .dialFailed => if s.sup = .dialing then some { s with sup := .deciding } else none
  | .dialed => if s.sup = .dialing then some { s with sup := .swapping } else none
  | .swapConn =>
    if s.sup = .swapping then
      some { s.shutConn s.conn with
        conn := some s.conns, doneCh := s.conns, conns := s.conns + 1, sup := .startingReader }
    else none
  | .goReadLoop =>
    if s.sup = .startingReader then
      some { s with readers := s.readers ++ [.starting], sup := .handshaking }
    else none
  | .handshakeOk =>
    if s.sup = .handshaking then
      some { s with reconnecting := false, attempt := 0, sup := .waiting }
    else none
  | .handshakeFailed =>
    if s.sup = .handshaking then some { s with sup := .closingFailed } else none
  | .closeFailed =>
    if s.sup = .closingFailed then some { s.shutConn s.conn with sup := .deciding } else none
  | .storeClosed =>
    if s.sup = .exhausted then
      some { s with closed := true, reconnecting := false, sup := .closingSub }
    else none
  | .closeSub =>
    if s.sup = .closingSub then some { s.closeSub with sup := .exited } else none

def step (reconnect : Option ℕ) (s : State) : Action → Option State
  | .close i a => closeStep s i a
  | .read r a => readStep s r a
  | .supervise a => superStep (reconnect.getD 0) s a

def Heeds (maxAttempts : ℕ) (s : State) : Prop :=
  match s.sup with
  | .absent | .waiting | .woken | .backoff => True
  | .deciding => ¬ (0 < maxAttempts ∧ maxAttempts < s.attempt + 1)
  | _ => False

def Reader.Idle (conn : Option ℕ) (shut : List ℕ) : Reader → Prop
  | .starting => conn = none
  | .reading c _ => c ∈ shut
  | .dispatching _ _ => False
  | .exited => True

def Quiet (s : State) : Prop := ∀ x ∈ s.readers, x.Idle s.conn s.shut

/-- **The condition on the steps.** `Close` sets `closing` while the supervisor heeds it, and
`subCh` is closed when no reader can reach it. -/
def Orderly (reconnect : Option ℕ) (s : State) : Action → Prop
  | .close _ .storeClosing => Heeds (reconnect.getD 0) s
  | .close _ .closeSub => Quiet s
  | .supervise .closeSub => Quiet s
  | _ => True

/-- The call of `Close` that found the client open, until it returns. -/
def Closer.Active : Closer → Prop
  | .entering | .returned => False
  | _ => True

def Closer.Past : Closer → Prop
  | .takingConn | .closingConn _ | .closingSub => True
  | _ => False

variable {c : Closer}

lemma Closer.Past.active (h : c.Past) : c.Active := by
  cases c <;> first | exact h | trivial

structure Flags (maxAttempts : ℕ) (s : State) : Prop where
  closed : ∀ i, (s.closers i).Active → s.closed = true
  unique : ∀ i j, (s.closers i).Active → (s.closers j).Active → i = j
  closing : ∀ i, (s.closers i).Past → s.closing = true
  heeds : s.closing = true → Heeds maxAttempts s ∨ s.sup = .exited
  ending : s.sup = .closingSub → s.closed = true

/-- `subCh` is closed, nobody will close it again and no reader can reach it. -/
structure Over (s : State) : Prop where
  once : s.subCloses = 1
  quiet : Quiet s
  closed : s.closed = true
  stopped : s.closing = true ∨ s.sup = .exited
  past : ∀ i, ¬ (s.closers i).Past
  storing : ∀ i, s.closers i = .storingClosing → s.sup = .exited

structure Sound (maxAttempts : ℕ) (s : State) : Prop where
  flags : Flags maxAttempts s
  sub : s.subCloses = 0 ∨ Over s
  late : s.lateSends = 0

variable {maxAttempts : ℕ} {s s' : State}

lemma sound_opened (reconnect : Option ℕ) : Sound (reconnect.getD 0) (opened reconnect) := by
  refine ⟨⟨?_, ?_, ?_, ?_, ?_⟩, .inl rfl, rfl⟩
  · intro i h; exact h.elim
  · intro i j h; exact h.elim
  · intro i h; exact h.elim
  · intro h; cases h
  · intro h
    cases reconnect <;> cases h

variable {r : ℕ}

lemma Quiet.of_mem {x : Reader} (hq : Quiet s) (hx : s.readers[r]? = some x) :
    x.Idle s.conn s.shut := hq x (mem_of_getElem? hx)

lemma Quiet.setReader {x : Reader} (hq : Quiet s) (hx : x.Idle s.conn s.shut) :
    Quiet (s.setReader r x) := by
  intro y hy
  rcases mem_or_eq_of_mem_set hy with hy | rfl
  · exact hq y hy
  · exact hx

inductive Reads (s : State) (r : ℕ) : State → Prop
  | exited (hr : s.readers[r]? = some .starting) (hconn : s.conn = none) :
      Reads s r (s.setReader r .exited)
  | reading {conn} (hr : s.readers[r]? = some .starting) (hconn : s.conn = some conn) :
      Reads s r (s.setReader r (.reading conn s.doneCh))
  | frame {conn doneCh} (hr : s.readers[r]? = some (.reading conn doneCh)) (hopen : conn ∉ s.shut) :
      Reads s r (s.setReader r (.dispatching conn doneCh))
  | reply {conn doneCh} (hr : s.readers[r]? = some (.dispatching conn doneCh)) :
      Reads s r (s.setReader r (.reading conn doneCh))
  | deliver {conn doneCh} (hr : s.readers[r]? = some (.dispatching conn doneCh)) :
      Reads s r (s.sendSub.setReader r (.reading conn doneCh))
  | broken {conn doneCh} (hr : s.readers[r]? = some (.reading conn doneCh)) :
      Reads s r ({ s with done := doneCh :: s.done }.setReader r .exited)

lemma reads_of_readStep {a : ReadStep} (h : readStep s r a = some s') : Reads s r s' := by
  revert h
  fun_cases readStep s r a <;> rintro ⟨⟩
  case case1 hr hconn => exact .exited hr hconn
  case case2 hr conn hconn => exact .reading hr hconn
  case case5 conn doneCh hr hshut => exact .frame hr hshut
  case case7 conn doneCh hr => exact .reply hr
  case case9 conn doneCh hr => exact .deliver hr
  case case11 conn doneCh hr => exact .broken hr

lemma Reads.quiet (h : Reads s r s') (hq : Quiet s) : Quiet s' ∧ s'.lateSends = s.lateSends := by
  cases h with
  | exited hr hconn => exact ⟨hq.setReader trivial, rfl⟩
  | reading hr hconn =>
    have hnone : s.conn = none := hq.of_mem hr
    rw [hnone] at hconn
    cases hconn
  | frame hr hopen => exact absurd (hq.of_mem hr) hopen
  | reply hr => exact (hq.of_mem hr).elim
  | deliver hr => exact (hq.of_mem hr).elim
  | broken hr => exact ⟨Quiet.setReader (s := { s with done := _ }) hq trivial, rfl⟩

structure SameFlags (s s' : State) : Prop where
  closed : s'.closed = s.closed
  closing : s'.closing = s.closing
  closers : s'.closers = s.closers
  sup : s'.sup = s.sup
  attempt : s'.attempt = s.attempt
  subCloses : s'.subCloses = s.subCloses

lemma Flags.congr (h : Flags maxAttempts s) (he : SameFlags s s') : Flags maxAttempts s' := by
  obtain ⟨h1, h2, h3, h4, h5⟩ := h
  obtain ⟨hc, hg, hl, hs, ha, -⟩ := he
  unfold Heeds at h4
  constructor <;> simp only [Heeds, hc, hg, hl, hs, ha] <;> assumption

lemma Reads.same (h : Reads s r s') :
    SameFlags s s' ∧ (s.subCloses = 0 → s'.lateSends = s.lateSends) := by
  cases h with
  | exited | reading | frame | reply | broken =>
    exact ⟨⟨rfl, rfl, rfl, rfl, rfl, rfl⟩, fun _ => rfl⟩
  | deliver hr =>
    unfold State.sendSub
    split_ifs with hpos
    · exact ⟨⟨rfl, rfl, rfl, rfl, rfl, rfl⟩, fun h => by omega⟩
    · exact ⟨⟨rfl, rfl, rfl, rfl, rfl, rfl⟩, fun _ => rfl⟩

lemma Sound.read {a : ReadStep} (hs : Sound maxAttempts s) (h : readStep s r a = some s') :
    Sound maxAttempts s' := by
  have hread := reads_of_readStep h
  obtain ⟨he, hlate⟩ := hread.same
  obtain ⟨hflags, hsub, hzero⟩ := hs
  rcases hsub with h0 | ho
  · exact ⟨hflags.congr he, .inl (he.subCloses.trans h0), (hlate h0).trans hzero⟩
  · obtain ⟨hq, hl⟩ := hread.quiet ho.quiet
    refine ⟨hflags.congr he, .inr ⟨he.subCloses.trans ho.once, hq, ?_, ?_, ?_, ?_⟩, hl.trans hzero⟩
    · rw [he.closed]; exact ho.closed
    · rw [he.closing, he.sup]; exact ho.stopped
    · rw [he.closers]; exact ho.past
    · rw [he.closers, he.sup]; exact ho.storing

lemma setCloser_self (s : State) (i : ℕ) (c : Closer) : (s.setCloser i c).closers i = c :=
  update_self ..

lemma setCloser_ne (s : State) {i j : ℕ} (c : Closer) (h : j ≠ i) :
    (s.setCloser i c).closers j = s.closers j := update_of_ne h ..

variable {i : ℕ}

lemma forall_setCloser {p : ℕ → Closer → Prop} (hc : p i c) (h : ∀ j, p j (s.closers j)) :
    ∀ j, p j ((s.setCloser i c).closers j) :=
  (forall_update_iff s.closers p).mpr ⟨hc, fun j _ => h j⟩

lemma Flags.setCloser (hf : Flags maxAttempts s) (hi : (s.closers i).Active)
    (hc : c.Past → s.closing = true) : Flags maxAttempts (s.setCloser i c) := by
  have hold : ∀ j, ((s.setCloser i c).closers j).Active → (s.closers j).Active :=
    forall_setCloser (p := fun j c => c.Active → (s.closers j).Active) (fun _ => hi) fun _ => id
  exact ⟨fun j hj => hf.closed j (hold j hj),
    fun j k hj hk => hf.unique j k (hold j hj) (hold k hk),
    forall_setCloser (p := fun _ c => c.Past → s.closing = true) hc hf.closing, hf.heeds, hf.ending⟩

section

variable (hs : Sound maxAttempts s)
include hs

lemma Sound.sub_zero (hi : (s.closers i).Past) : s.subCloses = 0 := by
  rcases hs.sub with h0 | ho
  · exact h0
  · exact (ho.past i hi).elim

lemma Sound.swapClosed_closed : Sound maxAttempts (s.setCloser i .returned) := by
  have hactive : ∀ j, ((s.setCloser i .returned).closers j).Active → (s.closers j).Active :=
    forall_setCloser (p := fun j c => c.Active → (s.closers j).Active) (fun h => h.elim) fun _ => id
  have hpast : ∀ j, ((s.setCloser i .returned).closers j).Past → (s.closers j).Past :=
    forall_setCloser (p := fun j c => c.Past → (s.closers j).Past) (fun h => h.elim) fun _ => id
  obtain ⟨hf, hsub, hlate⟩ := hs
  refine ⟨⟨fun j hj => hf.closed j (hactive j hj),
    fun j k hj hk => hf.unique j k (hactive j hj) (hactive k hk),
    fun j hj => hf.closing j (hpast j hj), hf.heeds, hf.ending⟩, hsub.imp_right fun ho => ?_, hlate⟩
  exact ⟨ho.once, ho.quiet, ho.closed, ho.stopped, fun j hj => ho.past j (hpast j hj),
    forall_setCloser (p := fun _ c => c = .storingClosing → s.sup = .exited) (nofun) ho.storing⟩

lemma Sound.swapClosed_open (hopen : s.closed = false) :
    Sound maxAttempts ({ s with closed := true }.setCloser i .storingClosing) := by
  obtain ⟨hf, hsub, hlate⟩ := hs
  have hnone : ∀ j, ¬ (s.closers j).Active := fun j hj => by
    rw [hf.closed j hj] at hopen
    cases hopen
  have hzero : s.subCloses = 0 := by
    rcases hsub with h0 | ho
    · exact h0
    · rw [ho.closed] at hopen
      cases hopen
  have honly : ∀ j, (({ s with closed := true }.setCloser i .storingClosing).closers j).Active →
      j = i := by
    intro j hj
    by_contra hji
    rw [setCloser_ne _ _ hji] at hj
    exact hnone j hj
  refine ⟨⟨fun _ _ => rfl, fun j k hj hk => (honly j hj).trans (honly k hk).symm, ?_, hf.heeds,
    fun _ => rfl⟩, .inl hzero, hlate⟩
  intro j hj
  obtain rfl := honly j hj.active
  rw [setCloser_self] at hj
  exact hj.elim

lemma Sound.storeClosing (hi : s.closers i = .storingClosing) (hheeds : Heeds maxAttempts s) :
    Sound maxAttempts ({ s with closing := true }.setCloser i c) := by
  obtain ⟨hf, hsub, hlate⟩ := hs
  have hactive : (s.closers i).Active := by rw [hi]; trivial
  have hzero : s.subCloses = 0 := by
    rcases hsub with h0 | ho
    · exact h0
    · -- after exhaustion the supervisor heeds nobody
      rw [Heeds, ho.storing i hi] at hheeds
      exact hheeds.elim
  have hf' : Flags maxAttempts { s with closing := true } :=
    ⟨hf.closed, hf.unique, fun _ _ => rfl, fun _ => .inl hheeds, hf.ending⟩
  exact ⟨hf'.setCloser hactive fun _ => rfl, .inl hzero, hlate⟩

lemma Sound.goOn (hpast : (s.closers i).Past) (he : SameFlags s s')
    (hlate : s'.lateSends = s.lateSends) (c : Closer) : Sound maxAttempts (s'.setCloser i c) := by
  have hactive : (s'.closers i).Active := by
    rw [he.closers]
    exact hpast.active
  have hclosing : s'.closing = true := he.closing.trans (hs.flags.closing i hpast)
  have hzero : s'.subCloses = 0 := he.subCloses.trans (hs.sub_zero hpast)
  exact ⟨(hs.flags.congr he).setCloser hactive fun _ => hclosing, .inl hzero, hlate.trans hs.late⟩

lemma Sound.closeSub (hpast : (s.closers i).Past) (hquiet : Quiet s) :
    Sound maxAttempts (s.closeSub.setCloser i .returned) := by
  have hzero := hs.sub_zero hpast
  obtain ⟨hf, -, hlate⟩ := hs
  have hf' : Flags maxAttempts s.closeSub :=
    ⟨hf.closed, hf.unique, hf.closing, hf.heeds, hf.ending⟩
  -- no other call is active
  have hothers : ∀ j, ¬ ((s.closeSub.setCloser i .returned).closers j).Active := by
    intro j hj
    by_cases hji : j = i
    · subst hji
      rw [setCloser_self] at hj
      exact hj
    · rw [setCloser_ne _ _ hji] at hj
      exact hji (hf.unique j i hj hpast.active)
  refine ⟨hf'.setCloser hpast.active fun h => h.elim, .inr ⟨?_, hquiet, hf.closed i hpast.active,
    .inl (hf.closing i hpast), fun j hj => hothers j hj.active, fun j hj => ?_⟩, hlate⟩
  · show s.subCloses + 1 = 1
    omega
  · exact (hothers j (by rw [hj]; trivial)).elim

end

variable {reconnect : Option ℕ}

lemma Sound.close {a : CloseStep} (hs : Sound (reconnect.getD 0) s)
    (hgood : Orderly reconnect s (.close i a)) (h : closeStep s i a = some s') :
    Sound (reconnect.getD 0) s' := by
  revert h
  fun_cases closeStep s i a <;> rintro ⟨⟩
  case case1 hi hc => exact hs.swapClosed_closed
  case case2 hi hc => exact hs.swapClosed_open ((Bool.not_eq_true _).mp hc)
  case case4 hi => exact hs.storeClosing hi hgood
  case case6 hi =>
    have he : SameFlags s { s with conn := none } := ⟨rfl, rfl, rfl, rfl, rfl, rfl⟩
    exact hs.goOn (by rw [hi]; trivial) he rfl _
  case case8 conn hi =>
    have he : SameFlags s (s.shutConn conn) := ⟨rfl, rfl, rfl, rfl, rfl, rfl⟩
    exact hs.goOn (by rw [hi]; trivial) he rfl _
  case case10 hi => exact hs.closeSub (by rw [hi]; trivial) hgood

section

variable (hs : Sound maxAttempts s)
include hs

lemma Sound.not_closing (hh : ¬ Heeds maxAttempts s) (he : s.sup ≠ .exited) :
    s.closing = false := by
  rw [← Bool.not_eq_true]
  intro hc
  rcases hs.flags.heeds hc with h | h
  · exact hh h
  · exact he h

lemma Sound.sub_open (hfalse : s.closing = false) (he : s.sup ≠ .exited) : s.subCloses = 0 := by
  refine hs.sub.resolve_right fun ho => ?_
  rcases ho.stopped with h | h
  · rw [hfalse] at h
    cases h
  · exact he h

lemma Sound.advance (hfalse : s.closing = false) (he : s.sup ≠ .exited)
    (hclosers : s'.closers = s.closers) (hclosing : s'.closing = s.closing)
    (hclosed : s'.closed = s.closed ∨ s'.closed = true)
    (hending : s'.sup = .closingSub → s'.closed = true) (hsub : s'.subCloses = s.subCloses)
    (hlate : s'.lateSends = s.lateSends) : Sound maxAttempts s' := by
  have hzero := hs.sub_open hfalse he
  obtain ⟨hf, -, hl⟩ := hs
  refine ⟨⟨?_, ?_, ?_, ?_, hending⟩, .inl (hsub.trans hzero), hlate.trans hl⟩
  · rw [hclosers]
    intro j hj
    rcases hclosed with h | h
    · rw [h]; exact hf.closed j hj
    · exact h
  · rw [hclosers]; exact hf.unique
  · rw [hclosers, hclosing]; exact hf.closing
  · rw [hclosing, hfalse]
    intro h
    cases h

lemma Sound.wait {x : Supervisor} {n : ℕ} (he : s.sup ≠ .exited)
    (hx : Heeds maxAttempts { s with attempt := n, sup := x } ∨ x = .exited) :
    Sound maxAttempts { s with attempt := n, sup := x } := by
  obtain ⟨hf, hsub, hl⟩ := hs
  refine ⟨⟨hf.closed, hf.unique, hf.closing, fun _ => hx, ?_⟩, hsub.imp_right fun ho => ?_, hl⟩
  · rintro (rfl : x = .closingSub)
    rcases hx with h | h
    · exact h.elim
    · cases h
  · refine ⟨ho.once, ho.quiet, ho.closed, .inl ?_, ho.past, fun j hj => ?_⟩
    · exact ho.stopped.resolve_right he
    · exact (he (ho.storing j hj)).elim

lemma Sound.exhaust (hsup : s.sup = .closingSub) (hq : Quiet s) :
    Sound maxAttempts { s.closeSub with sup := .exited } := by
  have hh : ¬ Heeds maxAttempts s := by rw [Heeds, hsup]; exact id
  have he : s.sup ≠ .exited := by rw [hsup]; decide
  have hfalse := hs.not_closing hh he
  have hzero := hs.sub_open hfalse he
  obtain ⟨hf, -, hl⟩ := hs
  refine ⟨⟨hf.closed, hf.unique, hf.closing, fun _ => .inr rfl, fun h => by cases h⟩,
    .inr ⟨?_, hq, hf.ending hsup, .inr rfl, fun j hj => ?_, fun _ _ => rfl⟩, hl⟩
  · show s.subCloses + 1 = 1
    omega
  · have hc := hf.closing j hj
    rw [hfalse] at hc
    cases hc

end

lemma Sound.supervise {a : SuperStep} (hs : Sound (reconnect.getD 0) s)
    (hgood : Orderly reconnect s (.supervise a)) (h : superStep (reconnect.getD 0) s a = some s') :
    Sound (reconnect.getD 0) s' := by
  -- a step from a state in which the supervisor does not heed `closing`
  have hgo : ∀ {x : Supervisor} {s' : State}, s.sup = x → x ≠ .exited →
      (s.sup = x → ¬ Heeds (reconnect.getD 0) s) → s'.closers = s.closers →
      s'.closing = s.closing → s'.closed = s.closed ∨ s'.closed = true →
      (s'.sup = .closingSub → s'.closed = true) → s'.subCloses = s.subCloses →
      s'.lateSends = s.lateSends → Sound (reconnect.getD 0) s' := by
    intro x s' hx he hh
    subst hx
    exact hs.advance (hs.not_closing (hh rfl) he) he
  revert h
  fun_cases superStep (reconnect.getD 0) s a <;> rintro ⟨⟩
  case case1 hc => exact hs.wait (by rw [hc.1]; decide) (.inl trivial)
  case case3 hsup _ | case9 hsup _ => exact hs.wait (by rw [hsup]; decide) (.inr rfl)
  case case4 hsup hc | case10 hsup hc =>
    exact hs.advance ((Bool.not_eq_true _).mp hc) (by rw [hsup]; decide) rfl rfl (.inl rfl)
      (fun h => by cases h) rfl rfl
  case case6 hsup hmax =>
    exact hgo hsup (by decide) (fun hsup => by rw [Heeds, hsup]; exact fun h => h hmax) rfl rfl
      (.inl rfl) (fun h => by cases h) rfl rfl
  case case7 hsup _ => exact hs.wait (by rw [hsup]; decide) (.inl trivial)
  case case26 hsup =>
    exact hgo hsup (by decide) (fun hsup => by rw [Heeds, hsup]; exact id) rfl rfl (.inr rfl)
      (fun _ => rfl) rfl rfl
  case case28 hsup => exact hs.exhaust hsup hgood
  -- the dial and the handshake
  all_goals
    rename_i hsup
    exact hgo hsup (by decide) (fun hsup => by rw [Heeds, hsup]; exact id) rfl rfl (.inl rfl)
      (fun h => by cases h) rfl rfl

lemma Sound.step {a : Action} (hs : Sound (reconnect.getD 0) s) (hgood : Orderly reconnect s a)
    (h : step reconnect s a = some s') : Sound (reconnect.getD 0) s' := by
  cases a with
  | close i a => exact hs.close hgood h
  | read r a => exact hs.read h
  | supervise a => exact hs.supervise hgood h

/-- **In every orderly run** `subCh` is closed at most once, and nothing is sent on it after that.
-/
theorem subCh_safe_of_orderly (reconnect : Option ℕ) (as : List Action) (s : State)
    (hrun : run (Lifecycle.step reconnect) (opened reconnect) as = some s)
    (hgood : Along (Lifecycle.step reconnect) (Orderly reconnect) (opened reconnect) as) :
    s.subCloses ≤ 1 ∧ s.lateSends = 0 := by
  have hs : Sound (reconnect.getD 0) s :=
    invariant (Lifecycle.step reconnect) (fun _ _ _ hs hg h => hs.step hg h) (sound_opened reconnect)
      hgood hrun
  refine ⟨?_, hs.late⟩
  rcases hs.sub with h | h
  · omega
  · exact Nat.le_of_eq h.once

def orderlyClose : List Action :=
  [.read 0 .frame, .read 0 .deliverUnsolicited, .close 0 .swapClosed, .close 1 .swapClosed,
    .close 0 .storeClosing, .close 0 .takeConn, .close 0 .closeConn, .close 0 .closeSub,
    .read 0 .readError, .supervise .wake, .supervise .checkClosing]

theorem subCh_safe_orderlyClose :
    ∃ s, run (Lifecycle.step (some 3)) (opened (some 3)) orderlyClose = some s ∧
      s.subCloses ≤ 1 ∧ s.lateSends = 0 := by
  have hquiet : ∀ x ∈ [Reader.reading 0 0], x.Idle none [0] := by
    intro x hx
    rw [mem_singleton.mp hx]
    exact mem_singleton_self 0
  refine ⟨_, rfl, subCh_safe_of_orderly (some 3) orderlyClose _ rfl ?_⟩
  refine along_cons _ trivial rfl (along_cons _ trivial rfl (along_cons _ trivial rfl ?_))
  refine along_cons _ trivial rfl (along_cons _ trivial rfl (along_cons _ trivial rfl ?_))
  refine along_cons _ trivial rfl (along_cons _ hquiet rfl (along_cons _ trivial rfl ?_))
  exact along_cons _ trivial rfl (along_cons _ trivial rfl trivial)

def closeWhileDialing : List Action :=
  [.read 0 .readError, .supervise .wake, .supervise .checkClosing, .supervise .nextAttempt,
    .supervise .backoffOver, .close 0 .swapClosed, .close 0 .storeClosing, .close 0 .takeConn,
    .close 0 .closeConn, .close 0 .closeSub, .supervise .dialFailed, .supervise .nextAttempt,
    .supervise .storeClosed, .supervise .closeSub]

def closeWhileDispatching : List Action :=
  [.read 0 .frame, .close 0 .swapClosed, .close 0 .storeClosing, .close 0 .takeConn,
    .close 0 .closeConn, .close 0 .closeSub, .read 0 .deliverUnsolicited]

theorem subCh_closed_twice_and_late_send :
    (run (Lifecycle.step (some 1)) (opened (some 1)) closeWhileDialing).map State.subCloses = some 2 ∧
      (run (Lifecycle.step (some 1)) (opened (some 1)) closeWhileDispatching).map State.lateSends =
        some 1 :=
  ⟨rfl, rfl⟩

end Wtg.Mymq.Lifecycle
