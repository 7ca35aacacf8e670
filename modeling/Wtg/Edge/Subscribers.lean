import Mathlib.Data.Finset.Basic
import Wtg.Lib.Runs

/-! # The ws connections of an edge

The quotes of `mci-edge-price` (`internal/edge/price`): the subscribers of `Registry`, the control
messages by which a client chooses its pairs (`handleControlMessage`, `gateSubscribe`), the quotes
that arrive from the price server for a profile or for a customer, and the two calls by which an
operator stops and readmits a pair. -/

namespace Wtg.Edge.Subscribers

open Lib Finset

/-- What the server is set up with: the customer stream, the allowlists of customers, the catalog
(the upstream of a symbol), and the length of a send queue. -/
structure Config where
  enableCustomerStream : Bool
  customerPairs : Option (String → Option (List String))
  catalog : Option (String → Option String)
  sendQueueSize : ℤ

def Config.queueSize (cfg : Config) : ℕ :=
  if cfg.sendQueueSize ≤ 0 then 256 else cfg.sendQueueSize.toNat

def Config.routed (cfg : Config) (p : String) : Bool :=
  (cfg.catalog.bind fun route => route p).isSome

structure Quote where
  channel : String
  site : String
  tier : String
  customerId : String
  pair : String
  source : String
  deriving DecidableEq, Repr

def Quote.profKey (q : Quote) : String := q.channel ++ "." ++ q.site ++ "." ++ q.tier

inductive Out
  | quote (q : Quote)
  | subscribed (pairs : Option (Finset String))
  | forbiddenPair (rejected : List String)
  | error (code message : String)
  | revoked (pair : String)
  deriving DecidableEq

def Out.IsQuoteFor (p : String) (x : Out) : Prop := ∃ q, x = .quote q ∧ q.pair = p

structure Subscriber where
  id : ℕ
  profileKey : String
  customerID : String
  sources : Finset String
  pairs : Option (Finset String)
  send : List Out
  deriving DecidableEq

def Subscriber.matchesSource (sub : Subscriber) (source : String) : Bool :=
  if source = "" then sub.sources = ∅ else source ∈ sub.sources

def Subscriber.matchesPair (sub : Subscriber) (pair : String) : Bool :=
  match sub.pairs with
  | none => true
  | some pairs => pair ∈ pairs

def subscribePairs (filter : Option (Finset String)) (pairs : List String) :
    Option (Finset String) :=
  if pairs = [] then filter else some (filter.getD ∅ ∪ pairs.toFinset.erase "")

def unsubscribePairs (filter : Option (Finset String)) (pairs : List String) :
    Option (Finset String) :=
  if pairs = [] then filter else
  match filter with
  | none => none
  | some set => if set \ pairs.toFinset = ∅ then none else some (set \ pairs.toFinset)

def Listed (p : String) (filter : Option (Finset String)) : Prop :=
  ∃ set, filter = some set ∧ p ∈ set

variable {filter : Option (Finset String)} {p : String} {pairs : List String}

lemma Listed.of_subscribePairs
    (h : Listed p (subscribePairs filter pairs)) : Listed p filter ∨ p ∈ pairs := by
  unfold subscribePairs at h
  split_ifs at h
  · exact .inl h
  · obtain ⟨set, hset, hp⟩ := h
    obtain rfl := Option.some.inj hset
    rcases mem_union.mp hp with hold | hnew
    · cases filter with
      | none => exact absurd hold (notMem_empty p)
      | some set => exact .inl ⟨set, rfl, hold⟩
    · exact .inr (List.mem_toFinset.mp (mem_of_mem_erase hnew))

lemma Listed.of_unsubscribePairs
    (h : Listed p (unsubscribePairs filter pairs)) : Listed p filter ∧ p ∉ pairs := by
  obtain ⟨set', hset', hp⟩ := h
  unfold unsubscribePairs at hset'
  split_ifs at hset' with hnil
  · exact ⟨⟨set', hset', hp⟩, by rw [hnil]; exact List.not_mem_nil⟩
  · cases filter with
    | none => cases hset'
    | some set =>
      dsimp only at hset'
      split_ifs at hset'
      obtain rfl := Option.some.inj hset'
      obtain ⟨hin, hout⟩ := mem_sdiff.mp hp
      exact ⟨⟨set, rfl, hin⟩, fun hmem => hout (List.mem_toFinset.mpr hmem)⟩

variable {sub : Subscriber}

lemma matchesPair_eq_true : sub.matchesPair p = true ↔ sub.pairs = none ∨ Listed p sub.pairs := by
  unfold Subscriber.matchesPair Listed
  cases sub.pairs with
  | none => simp
  | some set => simp

def Subscriber.Room (cap : ℕ) (sub : Subscriber) : Prop := sub.send.length < cap

instance (cap : ℕ) (sub : Subscriber) : Decidable (sub.Room cap) :=
  inferInstanceAs (Decidable (_ < _))

def fanOut (cap : ℕ) (evict : Bool) (pick : Subscriber → Bool) (x : Out) :
    List Subscriber → List Subscriber × List (ℕ × Out)
  | [] => ([], [])
  | sub :: subs =>
    let rest := fanOut cap evict pick x subs
    if pick sub then
      if sub.Room cap then
        ({ sub with send := sub.send ++ [x] } :: rest.1, (sub.id, x) :: rest.2)
      else (if evict then rest.1 else sub :: rest.1, rest.2)
    else (sub :: rest.1, rest.2)

variable {pick : Subscriber → Bool} {cap : ℕ}

lemma mem_fanOut_sent {evict : Bool} {x y : Out} {id : ℕ} :
    ∀ {subs : List Subscriber}, (id, y) ∈ (fanOut cap evict pick x subs).2 ↔
      y = x ∧ ∃ sub ∈ subs, pick sub = true ∧ sub.Room cap ∧ sub.id = id
  | [] => by simp [fanOut]
  | sub :: subs => by
    have ih : (id, y) ∈ (fanOut cap evict pick x subs).2 ↔ _ := mem_fanOut_sent
    simp only [fanOut, List.exists_mem_cons_iff]
    by_cases hpick : pick sub = true
    · by_cases hroom : sub.Room cap
      · rw [if_pos hpick, if_pos hroom, List.mem_cons, ih, Prod.mk.injEq]
        constructor
        · rintro (⟨rfl, rfl⟩ | ⟨rfl, h⟩)
          · exact ⟨rfl, .inl ⟨hpick, hroom, rfl⟩⟩
          · exact ⟨rfl, .inr h⟩
        · rintro ⟨rfl, ⟨-, -, rfl⟩ | h⟩
          · exact .inl ⟨rfl, rfl⟩
          · exact .inr ⟨rfl, h⟩
      · rw [if_pos hpick, if_neg hroom, ih]
        simp only [hroom, false_and, and_false, false_or]
    · rw [if_neg hpick, ih]
      simp only [hpick, Bool.false_eq_true, false_and, false_or]

structure SameButQueue (sub sub' : Subscriber) : Prop where
  id : sub'.id = sub.id
  profileKey : sub'.profileKey = sub.profileKey
  customerID : sub'.customerID = sub.customerID
  pairs : sub'.pairs = sub.pairs

lemma mem_fanOut_subs {evict : Bool} {x : Out} {sub' : Subscriber} :
    ∀ {subs : List Subscriber}, sub' ∈ (fanOut cap evict pick x subs).1 →
      ∃ sub ∈ subs, SameButQueue sub sub'
  | [], h => nomatch h
  | sub :: subs, h => by
    have ih : sub' ∈ (fanOut cap evict pick x subs).1 → ∃ s ∈ sub :: subs, SameButQueue s sub' := by
      intro h
      obtain ⟨s, hs, hsame⟩ := mem_fanOut_subs h
      exact ⟨s, List.mem_cons_of_mem _ hs, hsame⟩
    have hself : sub' = sub → ∃ s ∈ sub :: subs, SameButQueue s sub' := by
      rintro rfl
      exact ⟨sub', List.mem_cons_self, rfl, rfl, rfl, rfl⟩
    simp only [fanOut] at h
    split_ifs at h
    · rcases List.mem_cons.mp h with rfl | h
      · exact ⟨sub, List.mem_cons_self, rfl, rfl, rfl, rfl⟩
      · exact ih h
    · exact ih h
    · rcases List.mem_cons.mp h with h | h
      · exact hself h
      · exact ih h
    · rcases List.mem_cons.mp h with h | h
      · exact hself h
      · exact ih h

structure ControlRequest where
  type : String
  symbols : List String
  pairs : List String
  deriving DecidableEq, Repr

/-- Duplicates go only where both lists are given. -/
def ControlRequest.items (req : ControlRequest) : List String :=
  if req.pairs = [] then req.symbols
  else if req.symbols = [] then req.pairs
  else (req.symbols ++ req.pairs).eraseDups

/-- `MemoryPairValidator`: the pairs that may be subscribed to; without one, all. -/
abbrev Validator := Option (Finset String)

def Validator.add (v : Validator) (pair : String) : Validator :=
  v.map fun allowed => if pair = "" then allowed else insert pair allowed

def Validator.remove (v : Validator) (pair : String) : Validator :=
  v.map fun allowed => allowed.erase pair

def Validator.isAllowed (v : Validator) (pair : String) : Bool :=
  v.all fun allowed => pair ∈ allowed

def Config.allowlist (cfg : Config) (customerID : String) : Option (List String) :=
  if customerID = "" then none else cfg.customerPairs.bind fun policy => policy customerID

def Config.customerAllows (cfg : Config) (customerID p : String) : Bool :=
  (cfg.allowlist customerID).all fun allowed => p ∈ allowed

def gate (cfg : Config) (v : Validator) (customerID p : String) : Bool :=
  p ≠ "" && (cfg.routed p || (v.isAllowed p && cfg.customerAllows customerID p))

def gateSubscribe (cfg : Config) (v : Validator) (customerID : String) (pairs : List String) :
    List String × List String :=
  (pairs.filter fun p => gate cfg v customerID p, pairs.filter fun p => !gate cfg v customerID p)

def Subscriber.post (cap : ℕ) : Subscriber → List Out → Subscriber × List Out
  | sub, [] => (sub, [])
  | sub, x :: xs =>
    if sub.Room cap then
      let r := post cap { sub with send := sub.send ++ [x] } xs
      (r.1, x :: r.2)
    else post cap sub xs

structure Handled where
  pairs : Option (Finset String)
  replies : List Out
  accepted : List String

def sendControlPairReject (rejected : List String) : List Out :=
  if rejected = [] then [] else [.forbiddenPair rejected]

def handleControlMessage (cfg : Config) (v : Validator) (sub : Subscriber) :
    Except String ControlRequest → Handled
  | .error err => ⟨sub.pairs, [.error "bad_request" ("JSON parse 실패: " ++ err)], []⟩
  | .ok req =>
    if req.type = "subscribe" then
      let gated := gateSubscribe cfg v sub.customerID req.items
      let pairs := subscribePairs sub.pairs gated.1
      ⟨pairs, sendControlPairReject gated.2 ++ [.subscribed pairs], gated.1⟩
    else if req.type = "unsubscribe" then
      let pairs := unsubscribePairs sub.pairs req.items
      ⟨pairs, [.subscribed pairs], []⟩
    else ⟨sub.pairs, [.error "unknown_type" ("지원하지 않는 type: " ++ req.type)], []⟩

lemma post_same : ∀ {xs : List Out} {sub : Subscriber},
    SameButQueue sub (sub.post cap xs).1
  | [], _ => ⟨rfl, rfl, rfl, rfl⟩
  | x :: xs, sub => by
    simp only [Subscriber.post]
    split_ifs
    · have ih : SameButQueue _ (Subscriber.post cap { sub with send := sub.send ++ [x] } xs).1 :=
        post_same
      exact ⟨ih.id, ih.profileKey, ih.customerID, ih.pairs⟩
    · exact post_same

lemma mem_post {y : Out} : ∀ {xs : List Out} {sub : Subscriber},
    y ∈ (sub.post cap xs).2 → y ∈ xs
  | [], _, h => h
  | x :: xs, sub, h => by
    simp only [Subscriber.post] at h
    split_ifs at h
    · rcases List.mem_cons.mp h with rfl | h
      · exact List.mem_cons_self
      · exact List.mem_cons_of_mem _ (mem_post h)
    · exact List.mem_cons_of_mem _ (mem_post h)

variable {req : Except String ControlRequest} {v : Validator} {cfg : Config}

lemma not_quote_of_reply {x : Out} (h : x ∈ (handleControlMessage cfg v sub req).replies)
    (q : Quote) : x ≠ .quote q := by
  rintro rfl
  cases req with
  | error err => simp [handleControlMessage] at h
  | ok c =>
    simp only [handleControlMessage] at h
    split_ifs at h
    · rcases List.mem_append.mp h with h | h
      · unfold sendControlPairReject at h
        split_ifs at h <;> simp at h
      · simp at h
    · simp at h
    · simp at h

lemma mem_accepted :
    p ∈ (handleControlMessage cfg v sub req).accepted ↔ ∃ c, req = .ok c ∧
      c.type = "subscribe" ∧ p ∈ c.items ∧ gate cfg v sub.customerID p = true := by
  cases req with
  | error err => simp [handleControlMessage]
  | ok c =>
    simp only [handleControlMessage, Except.ok.injEq, exists_eq_left']
    split_ifs with hsub hunsub
    · simp [hsub, gateSubscribe]
    · simp [hsub]
    · simp [hsub]

lemma listed_handleControlMessage (h : Listed p (handleControlMessage cfg v sub req).pairs) :
    Listed p sub.pairs ∨ p ∈ (handleControlMessage cfg v sub req).accepted := by
  cases req with
  | error err => exact .inl h
  | ok c =>
    simp only [handleControlMessage] at h ⊢
    split_ifs at h ⊢ with hsub hunsub
    · exact h.of_subscribePairs
    · exact .inl h.of_unsubscribePairs.1
    · exact .inl h

structure State where
  subs : List Subscriber
  nextID : ℕ
  validator : Validator

def newServer (v : Validator) : State := ⟨[], 0, v⟩

/-- What happens: a client connects, leaves, is written to, or sends a control message; a quote
arrives for a profile or a customer; an operator stops or readmits a pair. -/
inductive Event
  | connect (usid profile queryProfile : String) (sources : List String)
  | disconnect (id : ℕ)
  | write (id : ℕ)
  | control (id : ℕ) (req : Except String ControlRequest)
  | quote (q : Quote)
  | customerQuote (q : Quote)
  | disallowPair (pair : String)
  | allowPair (pair : String)

inductive Reply
  | none
  | error (status : ℕ) (code message : String)
  | disallowed (pair : String) (affected : ℕ)
  | allowed (pair : String)
  deriving DecidableEq, Repr

/-- The answer to an event: what was put into send queues, the pairs that a subscribe was granted,
and the reply. -/
structure Answer where
  sent : List (ℕ × Out) := []
  accepted : List String := []
  reply : Reply := .none

def newSubscriber (cfg : Config) (id : ℕ) (usid profile queryProfile : String)
    (sources : List String) : Subscriber :=
  let profileKey := if profile = "" then queryProfile else profile
  let customerID :=
    if profileKey ≠ "" && (cfg.enableCustomerStream || cfg.customerPairs.isSome) then usid else ""
  ⟨id, profileKey, customerID, sources.toFinset.erase "", none, []⟩

def forProfile (q : Quote) (sub : Subscriber) : Bool :=
  sub.profileKey = q.profKey && sub.matchesSource ""

def forCustomer (q : Quote) (sub : Subscriber) : Bool :=
  q.customerId ≠ "" && sub.customerID = q.customerId && sub.matchesSource q.source

def pairPasses (q : Quote) (sub : Subscriber) : Bool := q.pair = "" || sub.matchesPair q.pair

def arrive (cfg : Config) (s : State) (addressed : Subscriber → Bool) (q : Quote) :
    State × Answer :=
  let r :=
    fanOut cfg.queueSize true (fun sub => addressed sub && pairPasses q sub) (.quote q) s.subs
  ({ s with subs := r.1, validator := s.validator.add q.pair }, { sent := r.2 })

def revoke (pair : String) (sub : Subscriber) : Subscriber :=
  match sub.pairs with
  | none => sub
  | some set =>
    if pair ∈ set then { sub with pairs := unsubscribePairs sub.pairs [pair] } else sub

def affected (pair : String) (subs : List Subscriber) : ℕ :=
  subs.countP fun sub => sub.pairs.any fun set => pair ∈ set

def step (cfg : Config) (s : State) : Event → State × Answer
  | .connect usid profile queryProfile sources =>
    if usid = "" then (s, { reply := .error 401 "unauthorized" "인증 필요" })
    else
      let sub := newSubscriber cfg (s.nextID + 1) usid profile queryProfile sources
      ({ s with subs := sub :: s.subs, nextID := s.nextID + 1 }, {})
  | .disconnect id => ({ s with subs := s.subs.filter fun sub => sub.id ≠ id }, {})
  | .write id =>
    ({ s with subs := s.subs.map fun sub =>
        if sub.id = id then { sub with send := sub.send.tail } else sub }, {})
  | .control id req =>
    match s.subs.find? fun sub => sub.id = id with
    | none => (s, {})
    | some sub =>
      let handled := handleControlMessage cfg s.validator sub req
      let posted := { sub with pairs := handled.pairs }.post cfg.queueSize handled.replies
      ({ s with subs := s.subs.map fun x => if x.id = id then posted.1 else x },
        { sent := posted.2.map fun x => (id, x), accepted := handled.accepted })
  | .quote q => arrive cfg s (forProfile q) q
  | .customerQuote q => arrive cfg s (forCustomer q) q
  | .disallowPair pair =>
    if pair = "" then (s, { reply := .error 400 "bad_request" "pair 필수" })
    else
      let subs := s.subs.map (revoke pair)
      let r := fanOut cfg.queueSize false (fun sub => sub.matchesPair pair) (.revoked pair) subs
      ({ s with subs := r.1, validator := s.validator.remove pair },
        { sent := r.2, reply := .disallowed pair (affected pair s.subs) })
  | .allowPair pair =>
    if pair = "" then (s, { reply := .error 400 "bad_request" "pair 필수" })
    else ({ s with validator := s.validator.add pair }, { reply := .allowed pair })

end Wtg.Edge.Subscribers
