import Mathlib.Data.Fintype.Basic
import Wtg.Lib.Transition

/-! # Slow subscribers

The streams of `GRPCServer` (`internal/price/grpc.go`). Four calls hand messages to the subscribers
of a kind (`OnTick`, `PublishQuote`, `PublishCustomerQuote`, `PublishBar`). -/

namespace Wtg.Price.Fanout

open Lib List Function

inductive Kind
  | tick
  | quote
  | customerQuote
  | bar
  deriving DecidableEq, Repr

inductive Request
  | subscribe (symbols : List String)
  | subscribeQuote (profileKeys pairs : List String)
  | subscribeCustomerQuote (customerIds : List String)
  | subscribeBar (timeframes pairs : List String)
  deriving DecidableEq, Repr

/-- The calls of a publisher, with what the filters look at and the message. -/
inductive Call (β : Type)
  | onTick (symbol : String) (pb : β)
  | publishQuote (profKey pair : String) (pb : β)
  | publishCustomerQuote (customerID : String) (pb : β)
  | publishBar (tf pair : String) (pb : β)
  deriving DecidableEq, Repr

def Request.kind : Request → Kind
  | .subscribe _ => .tick
  | .subscribeQuote _ _ => .quote
  | .subscribeCustomerQuote _ => .customerQuote
  | .subscribeBar _ _ => .bar

namespace Call

variable {β : Type}

def kind : Call β → Kind
  | .onTick _ _ => .tick
  | .publishQuote _ _ _ => .quote
  | .publishCustomerQuote _ _ => .customerQuote
  | .publishBar _ _ _ => .bar

def pb : Call β → β
  | .onTick _ pb | .publishQuote _ _ pb | .publishCustomerQuote _ pb | .publishBar _ _ pb => pb

def admits (names : List String) (name : String) : Bool := names.isEmpty || names.contains name

def passes : Call β → Request → Bool
  | .onTick symbol _, .subscribe symbols => admits symbols symbol
  | .publishQuote profKey pair _, .subscribeQuote profileKeys pairs =>
    admits profileKeys profKey && admits pairs pair
  | .publishCustomerQuote customerID _, .subscribeCustomerQuote customerIds =>
    admits customerIds customerID
  | .publishBar tf pair _, .subscribeBar timeframes pairs =>
    admits timeframes tf && admits pairs pair
  | _, _ => false

end Call

structure Subscriber where
  id : ℕ
  req : Request
  deriving DecidableEq, Repr

structure Chan (β : Type) where
  queue : List β := []
  closes : ℕ := 0
  lateSends : ℕ := 0
  deriving DecidableEq, Repr

inductive Publisher (β : Type)
  | idle
  | visiting (c : Call β) (subs : List Subscriber)
  | closing (c : Call β) (sub : Subscriber) (subs : List Subscriber)
  | removing (c : Call β) (sub : Subscriber) (subs : List Subscriber)
  deriving DecidableEq, Repr

/-- `GRPCServer`: the last id given, the tables, the channels, the streams being served, and the
publishers. -/
structure State (ι β : Type) where
  nextSubID : ℕ
  table : Kind → List Subscriber
  chan : ℕ → Chan β
  streams : List Subscriber
  publisher : ι → Publisher β

def newGRPCServer (ι β : Type) : State ι β := ⟨0, fun _ => [], fun _ => {}, [], fun _ => .idle⟩

def bufSz (bufSize : ℤ) : ℕ := if bufSize ≤ 0 then 1024 else bufSize.toNat

/-- The steps of a stream, which opens, receives and ends, and of a publisher, which copies the
table in any order, visits the next subscriber, closes a full channel, and removes its subscriber.
-/
inductive Action (ι β : Type)
  | subscribe (req : Request)
  | receive (sub : Subscriber)
  | leave (sub : Subscriber)
  | publish (i : ι) (c : Call β) (subs : List Subscriber)
  | visit (i : ι)
  | close (i : ι)
  | remove (i : ι)

/-! ## The server -/

section

variable {ι β : Type}

namespace State

variable (s : State ι β)

def setChan (id : ℕ) (ch : Chan β) : State ι β := { s with chan := Function.update s.chan id ch }

def setTable (k : Kind) (subs : List Subscriber) : State ι β :=
  { s with table := Function.update s.table k subs }

def removeSubscriber (sub : Subscriber) : State ι β :=
  s.setTable sub.req.kind ((s.table sub.req.kind).filter fun x => x.id != sub.id)

lemma setChan_chan_self (id : ℕ) (ch : Chan β) : (s.setChan id ch).chan id = ch :=
  update_self ..

lemma setChan_chan_of_ne {id id' : ℕ} (h : id' ≠ id) (ch : Chan β) :
    (s.setChan id ch).chan id' = s.chan id' :=
  update_of_ne h ..

lemma setTable_self (k : Kind) (subs : List Subscriber) : (s.setTable k subs).table k = subs :=
  update_self ..

lemma setTable_of_ne {k k' : Kind} (h : k' ≠ k) (subs : List Subscriber) :
    (s.setTable k subs).table k' = s.table k' :=
  update_of_ne h ..

variable [DecidableEq ι]

def setPublisher (i : ι) (p : Publisher β) : State ι β :=
  { s with publisher := Function.update s.publisher i p }

lemma setPublisher_self (i : ι) (p : Publisher β) : (s.setPublisher i p).publisher i = p :=
  update_self ..

lemma setPublisher_of_ne {i j : ι} (h : j ≠ i) (p : Publisher β) :
    (s.setPublisher i p).publisher j = s.publisher j :=
  update_of_ne h ..

end State

section

variable [DecidableEq ι]

def visitNext (cap : ℕ) (s : State ι β) (i : ι) (c : Call β) (sub : Subscriber)
    (rest : List Subscriber) : State ι β :=
  let ch := s.chan sub.id
  if c.passes sub.req = false then s.setPublisher i (.visiting c rest)
  else if ch.closes ≠ 0 then
    (s.setChan sub.id { ch with lateSends := ch.lateSends + 1 }).setPublisher i (.visiting c rest)
  else if ch.queue.length < cap then
    (s.setChan sub.id { ch with queue := ch.queue ++ [c.pb] }).setPublisher i (.visiting c rest)
  else s.setPublisher i (.closing c sub rest)

def step (cap : ℕ) (s : State ι β) : Action ι β → Option (State ι β)
  | .subscribe req =>
    let sub : Subscriber := ⟨s.nextSubID + 1, req⟩
    some { s.setTable req.kind (s.table req.kind ++ [sub]) with
      nextSubID := sub.id, streams := sub :: s.streams }
  | .receive sub =>
    match (s.chan sub.id).queue with
    | [] => none
    | _ :: queue =>
      if sub ∈ s.streams then some (s.setChan sub.id { s.chan sub.id with queue := queue })
      else none
  | .leave sub =>
    if sub ∈ s.streams then
      some { s.removeSubscriber sub with streams := s.streams.erase sub }
    else none
  | .publish i c subs =>
    match s.publisher i with
    | .idle =>
      if subs.Perm (s.table c.kind) then some (s.setPublisher i (.visiting c subs)) else none
    | _ => none
  | .visit i =>
    match s.publisher i with
    | .visiting _ [] => some (s.setPublisher i .idle)
    | .visiting c (sub :: rest) => some (visitNext cap s i c sub rest)
    | _ => none
  | .close i =>
    match s.publisher i with
    | .closing c sub rest =>
      let ch := s.chan sub.id
      some ((s.setChan sub.id { ch with closes := ch.closes + 1 }).setPublisher i
        (.removing c sub rest))
    | _ => none
  | .remove i =>
    match s.publisher i with
    | .removing c sub rest => some ((s.removeSubscriber sub).setPublisher i (.visiting c rest))
    | _ => none

end

/-- **Safe**: no channel was closed twice, and nothing was sent on a closed one. -/
def Safe (s : State ι β) : Prop := ∀ id, (s.chan id).closes ≤ 1 ∧ (s.chan id).lateSends = 0

def Publisher.ahead : Publisher β → List Subscriber
  | .idle => []
  | .visiting c subs => subs.filter fun sub => c.passes sub.req
  | .closing c sub subs => sub :: subs.filter fun sub => c.passes sub.req
  | .removing c _ subs => subs.filter fun sub => c.passes sub.req

def Alone (s : State ι β) (i : ι) (sub : Subscriber) : Prop :=
  ∀ j, j ≠ i → ∀ x ∈ (s.publisher j).ahead, x.id ≠ sub.id

/-- **An exclusive step.** A table is copied when no channel that the message is for is closed, and
a channel is closed when no other publisher has the subscriber ahead. -/
def Exclusive (s : State ι β) : Action ι β → Prop
  | .publish _ c subs => ∀ sub ∈ subs, c.passes sub.req = true → (s.chan sub.id).closes = 0
  | .close i =>
    match s.publisher i with
    | .closing _ sub _ => Alone s i sub
    | _ => True
  | .subscribe _ | .receive _ | .leave _ | .visit _ | .remove _ => True

structure Inv (s : State ι β) : Prop where
  given : ∀ k, ∀ sub ∈ s.table k, sub.id ≤ s.nextSubID
  nodup : ∀ k, ((s.table k).map Subscriber.id).Nodup
  ahead_nodup : ∀ i, ((s.publisher i).ahead.map Subscriber.id).Nodup
  unclosed : ∀ i, ∀ sub ∈ (s.publisher i).ahead, (s.chan sub.id).closes = 0
  safe : Safe s

lemma inv_newGRPCServer : Inv (newGRPCServer ι β) where
  given _ _ h := nomatch h
  nodup _ := nodup_nil
  ahead_nodup _ := nodup_nil
  unclosed _ _ h := nomatch h
  safe _ := ⟨Nat.zero_le 1, rfl⟩

variable {s s' : State ι β} {cap : ℕ}

lemma Inv.setQueue (h : Inv s) (id : ℕ) (queue : List β) :
    Inv (s.setChan id { s.chan id with queue := queue }) := by
  -- a queue changes, no count does
  have hcloses : ∀ id', ((s.setChan id { s.chan id with queue := queue }).chan id').closes =
      (s.chan id').closes := by
    intro id'
    by_cases hid : id' = id
    · rw [hid, s.setChan_chan_self]
    · rw [s.setChan_chan_of_ne hid]
  have hlate : ∀ id', ((s.setChan id { s.chan id with queue := queue }).chan id').lateSends =
      (s.chan id').lateSends := by
    intro id'
    by_cases hid : id' = id
    · rw [hid, s.setChan_chan_self]
    · rw [s.setChan_chan_of_ne hid]
  refine ⟨h.given, h.nodup, h.ahead_nodup, fun i sub hsub => ?_, fun id' => ?_⟩
  · rw [hcloses]
    exact h.unclosed i sub hsub
  · rw [hcloses, hlate]
    exact h.safe id'

lemma Inv.subscribe (h : Inv s) (req : Request) (streams : List Subscriber) :
    Inv { s.setTable req.kind (s.table req.kind ++ [⟨s.nextSubID + 1, req⟩]) with
      nextSubID := s.nextSubID + 1, streams := streams } := by
  refine ⟨fun k sub hsub => ?_, fun k => ?_, h.ahead_nodup, h.unclosed, h.safe⟩
  · change sub ∈ (s.setTable req.kind _).table k at hsub
    change sub.id ≤ s.nextSubID + 1
    by_cases hk : k = req.kind
    · rw [hk, s.setTable_self, mem_append, mem_singleton] at hsub
      rcases hsub with hsub | rfl
      · exact Nat.le_succ_of_le (h.given _ sub hsub)
      · exact Nat.le_refl _
    · rw [s.setTable_of_ne hk] at hsub
      exact Nat.le_succ_of_le (h.given k sub hsub)
  · change (((s.setTable req.kind _).table k).map Subscriber.id).Nodup
    by_cases hk : k = req.kind
    · rw [hk, s.setTable_self, map_append, nodup_append]
      refine ⟨h.nodup _, nodup_singleton _, fun a ha b hb hab => ?_⟩
      -- the new id is above those given
      obtain ⟨sub, hsub, rfl⟩ := mem_map.mp ha
      have hle := h.given _ sub hsub
      have hb : b = s.nextSubID + 1 := mem_singleton.mp hb
      omega
    · rw [s.setTable_of_ne hk]
      exact h.nodup k

lemma Inv.removeSubscriber (h : Inv s) (sub : Subscriber) : Inv (s.removeSubscriber sub) := by
  have hsub : ∀ k, ((s.removeSubscriber sub).table k).Sublist (s.table k) := by
    intro k
    unfold State.removeSubscriber
    by_cases hk : k = sub.req.kind
    · rw [hk, s.setTable_self]
      exact filter_sublist
    · rw [s.setTable_of_ne hk]
  exact ⟨fun k x hx => h.given k x ((hsub k).subset hx),
    fun k => (h.nodup k).sublist ((hsub k).map _), h.ahead_nodup, h.unclosed, h.safe⟩

variable [DecidableEq ι]

instance [Fintype ι] (s : State ι β) : ∀ a, Decidable (Exclusive s a)
  | .publish _ c subs => inferInstanceAs (Decidable (∀ _ ∈ _, _))
  | .close i =>
    match h : s.publisher i with
    | .closing _ sub _ => decidable_of_iff
        (∀ j, j ≠ i → ∀ x ∈ (s.publisher j).ahead, x.id ≠ sub.id)
        (by simp only [Exclusive, h, Alone])
    | .idle | .visiting _ _ | .removing _ _ _ => .isTrue (by simp only [Exclusive, h])
  | .subscribe _ | .receive _ | .leave _ | .visit _ | .remove _ => .isTrue trivial

variable {i : ι}

lemma Inv.goOn (h : Inv s) {p : Publisher β} (hp : p.ahead.Sublist (s.publisher i).ahead) :
    Inv (s.setPublisher i p) := by
  have hsub : ∀ j, ((s.setPublisher i p).publisher j).ahead.Sublist (s.publisher j).ahead := by
    intro j
    by_cases hj : j = i
    · subst hj
      rw [s.setPublisher_self]
      exact hp
    · rw [s.setPublisher_of_ne hj]
  exact ⟨h.given, h.nodup, fun j => (h.ahead_nodup j).sublist ((hsub j).map _),
    fun j sub hmem => h.unclosed j sub ((hsub j).subset hmem), h.safe⟩

variable {c : Call β}

lemma Inv.publish (h : Inv s) {subs : List Subscriber} (hperm : subs.Perm (s.table c.kind))
    (hopen : ∀ sub ∈ subs, c.passes sub.req = true → (s.chan sub.id).closes = 0) :
    Inv (s.setPublisher i (.visiting c subs)) := by
  refine ⟨h.given, h.nodup, fun j => ?_, fun j sub hsub => ?_, h.safe⟩
  · by_cases hj : j = i
    · rw [hj, s.setPublisher_self]
      have hnodup : (subs.map Subscriber.id).Nodup := (hperm.map _).nodup_iff.mpr (h.nodup c.kind)
      exact hnodup.sublist (filter_sublist.map _)
    · rw [s.setPublisher_of_ne hj]
      exact h.ahead_nodup j
  · by_cases hj : j = i
    · rw [hj, s.setPublisher_self] at hsub
      obtain ⟨hmem, hpass⟩ := mem_filter.mp hsub
      exact hopen sub hmem hpass
    · rw [s.setPublisher_of_ne hj] at hsub
      exact h.unclosed j sub hsub

lemma Inv.visitNext (h : Inv s) {sub : Subscriber} {rest : List Subscriber}
    (hi : s.publisher i = .visiting c (sub :: rest)) : Inv (visitNext cap s i c sub rest) := by
  have hahead : (s.publisher i).ahead = (sub :: rest).filter fun x => c.passes x.req := by
    rw [hi]
    rfl
  have hrest : (rest.filter fun x => c.passes x.req).Sublist (s.publisher i).ahead := by
    rw [hahead]
    exact (sublist_cons_self sub rest).filter _
  unfold Fanout.visitNext
  dsimp only
  split_ifs with hpass hclosed hfull
  · exact h.goOn hrest
  · have hmem : sub ∈ (s.publisher i).ahead := by
      rw [hahead, mem_filter]
      exact ⟨mem_cons_self, (Bool.not_eq_false _).mp hpass⟩
    exact absurd (h.unclosed i sub hmem) hclosed
  · exact (h.setQueue sub.id _).goOn hrest
  · refine h.goOn ?_
    have hpass : c.passes sub.req = true := (Bool.not_eq_false _).mp hpass
    rw [hahead, filter_cons, if_pos hpass]
    exact List.Sublist.refl _

lemma Inv.close (h : Inv s) {sub : Subscriber} {rest : List Subscriber}
    (hi : s.publisher i = .closing c sub rest) (halone : Alone s i sub) :
    Inv ((s.setChan sub.id
      { s.chan sub.id with closes := (s.chan sub.id).closes + 1 }).setPublisher i
        (.removing c sub rest)) := by
  have hahead : (s.publisher i).ahead = sub :: rest.filter fun x => c.passes x.req := by
    rw [hi]
    rfl
  have hnodup := h.ahead_nodup i
  rw [hahead, map_cons, nodup_cons] at hnodup
  have hzero : (s.chan sub.id).closes = 0 :=
    h.unclosed i sub (by rw [hahead]; exact mem_cons_self)
  set t := s.setChan sub.id { s.chan sub.id with closes := (s.chan sub.id).closes + 1 } with ht
  refine ⟨h.given, h.nodup, fun j => ?_, fun j x hx => ?_, fun id => ?_⟩
  · by_cases hj : j = i
    · rw [hj, t.setPublisher_self]
      exact hnodup.2
    · rw [t.setPublisher_of_ne hj]
      exact h.ahead_nodup j
  · -- what anybody has ahead was ahead before, and is another subscriber
    have hstill : x ∈ (s.publisher j).ahead ∧ x.id ≠ sub.id := by
      by_cases hj : j = i
      · rw [hj, t.setPublisher_self] at hx
        rw [hj, hahead]
        refine ⟨mem_cons_of_mem _ hx, fun hid => hnodup.1 ?_⟩
        rw [← hid]
        exact mem_map_of_mem hx
      · rw [t.setPublisher_of_ne hj] at hx
        exact ⟨hx, halone j hj x hx⟩
    change (t.chan x.id).closes = 0
    rw [ht, s.setChan_chan_of_ne hstill.2]
    exact h.unclosed j x hstill.1
  · change (t.chan id).closes ≤ 1 ∧ (t.chan id).lateSends = 0
    by_cases hid : id = sub.id
    · rw [hid, ht, s.setChan_chan_self]
      exact ⟨by dsimp only; omega, (h.safe sub.id).2⟩
    · rw [ht, s.setChan_chan_of_ne hid]
      exact h.safe id

lemma Inv.step (h : Inv s) {a : Action ι β} (hgood : Exclusive s a)
    (hstep : Fanout.step cap s a = some s') : Inv s' := by
  revert hstep
  fun_cases Fanout.step cap s a <;> rintro ⟨⟩
  case case1 req _ => exact h.subscribe req _
  case case3 sub _ _ _ _ => exact h.setQueue sub.id _
  case case5 sub _ =>
    have hr := h.removeSubscriber sub
    exact ⟨hr.given, hr.nodup, hr.ahead_nodup, hr.unclosed, hr.safe⟩
  case case7 hperm => exact h.publish hperm hgood
  case case10 => exact h.goOn (nil_sublist _)
  case case11 hi => exact h.visitNext hi
  case case13 i c sub rest hi _ =>
    have halone : Alone s i sub := by
      simp only [Exclusive, hi] at hgood
      exact hgood
    exact h.close hi halone
  case case15 i c sub rest hi =>
    have hahead : (s.publisher i).ahead = rest.filter fun x => c.passes x.req := by
      rw [hi]
      rfl
    exact (h.removeSubscriber sub).goOn (by
      show (rest.filter fun x => c.passes x.req).Sublist (s.publisher i).ahead
      rw [hahead])

/-- **Eviction is safe** in every run of exclusive steps: each channel is closed at most once, and
nothing is sent on it afterwards. -/
theorem evicted_once (bufSize : ℤ) {acts : List (Action ι β)} {s : State ι β}
    (hgood : Transition.Along (step (bufSz bufSize)) Exclusive (newGRPCServer ι β) acts)
    (hrun : Transition.run (step (bufSz bufSize)) (newGRPCServer ι β) acts = some s) : Safe s :=
  (Transition.invariant (P := Inv) _ (fun _ _ _ h hgood hstep => h.step hgood hstep)
    inv_newGRPCServer hgood hrun).safe

end

def allQuotes : Subscriber := ⟨1, .subscribeQuote [] []⟩

def usdKrw : Call ℕ := .publishQuote "WEB.SEL.GOLD" "USD/KRW" 0

def filled : List (Action Bool ℕ) :=
  [.subscribe allQuotes.req, .publish false usdKrw [allQuotes], .visit false, .visit false]

def oneEvicts : List (Action Bool ℕ) :=
  filled.append [.publish false usdKrw [allQuotes], .visit false, .close false, .remove false,
    .visit false, .publish true usdKrw [], .visit true]

theorem evicted_once_alone :
    Transition.Along (step (bufSz 1)) Exclusive (newGRPCServer Bool ℕ) oneEvicts ∧
    ∃ s, Transition.run (step (bufSz 1)) (newGRPCServer Bool ℕ) oneEvicts = some s ∧
      (s.chan allQuotes.id).closes = 1 ∧ s.table .quote = [] ∧ Safe s := by
  have hgood : Transition.Along (step (bufSz 1)) Exclusive (newGRPCServer Bool ℕ) oneEvicts := by
    decide
  exact ⟨hgood, _, rfl, rfl, rfl, evicted_once 1 hgood rfl⟩

def bothEvict : List (Action Bool ℕ) :=
  filled.append [.publish false usdKrw [allQuotes], .publish true usdKrw [allQuotes], .visit false,
    .visit true, .close false, .close true]

def closedAhead : List (Action Bool ℕ) :=
  filled.append [.publish false usdKrw [allQuotes], .publish true usdKrw [allQuotes], .visit false,
    .close false, .visit true]

theorem evicted_twice :
    (∃ s, Transition.run (step (bufSz 1)) (newGRPCServer Bool ℕ) bothEvict = some s ∧
      (s.chan allQuotes.id).closes = 2 ∧ ¬ Safe s) ∧
    ∃ s, Transition.run (step (bufSz 1)) (newGRPCServer Bool ℕ) closedAhead = some s ∧
      (s.chan allQuotes.id).lateSends = 1 ∧ ¬ Safe s := by
  refine ⟨⟨_, rfl, rfl, fun h => ?_⟩, ⟨_, rfl, rfl, fun h => ?_⟩⟩
  · exact absurd (h allQuotes.id).1 (by decide)
  · exact absurd (h allQuotes.id).2 (by decide)

end Wtg.Price.Fanout
