import Wtg.Edge.Subscribers

/-! # Stopped pairs and allowlists

What the pair filters of an edge are for: a pair that an operator stops stays silent
(`stopped_iff`), and a customer with an allowlist gets quotes of its pairs only (`contained_iff`),
each exactly under a condition on the events that follow. -/

namespace Wtg.Edge.PairStop

open Lib Lib.Runs Edge.Subscribers List Option

variable {cfg : Config} {s : State}

structure Keeps (granted : String → Prop) (sub sub' : Subscriber) : Prop where
  id : sub'.id = sub.id
  profileKey : sub'.profileKey = sub.profileKey
  customerID : sub'.customerID = sub.customerID
  listed : ∀ p, Listed p sub'.pairs → Listed p sub.pairs ∨ granted p

variable {granted : String → Prop}

lemma keeps_of_same {sub sub' : Subscriber} (h : SameButQueue sub sub') :
    Keeps granted sub sub' :=
  ⟨h.id, h.profileKey, h.customerID, fun _ hp => .inl (h.pairs ▸ hp)⟩

lemma keeps_self (sub : Subscriber) : Keeps granted sub sub :=
  ⟨rfl, rfl, rfl, fun _ => .inl⟩

lemma listed_revoke {pair p : String} {sub : Subscriber} (h : Listed p (revoke pair sub).pairs) :
    Listed p sub.pairs ∧ p ≠ pair := by
  revert h
  fun_cases revoke pair sub <;> intro h
  case case1 hnone =>
    obtain ⟨set, hset, -⟩ := h
    cases hnone.symm.trans hset
  case case2 =>
    have h : Listed p (unsubscribePairs sub.pairs [pair]) := h
    obtain ⟨hold, hne⟩ := h.of_unsubscribePairs
    exact ⟨hold, fun he => hne (by rw [he]; exact mem_singleton_self _)⟩
  case case3 set hsome hmem =>
    refine ⟨h, ?_⟩
    rintro rfl
    obtain ⟨set', hset', hp⟩ := h
    obtain rfl := some.inj (hsome.symm.trans hset')
    exact hmem hp

lemma revoke_keeps (pair : String) (sub : Subscriber) : Keeps granted sub (revoke pair sub) := by
  refine ⟨?_, ?_, ?_, fun p hp => .inl (listed_revoke hp).1⟩ <;> fun_cases revoke pair sub <;> rfl

variable {e : Event}

lemma mem_step_subs {sub' : Subscriber} (h : sub' ∈ (step cfg s e).1.subs) :
    (∃ sub ∈ s.subs, Keeps (fun p => p ∈ (step cfg s e).2.accepted ∧
      gate cfg s.validator sub.customerID p = true) sub sub') ∨
    ∃ usid profile queryProfile sources, e = .connect usid profile queryProfile sources ∧
      sub' = newSubscriber cfg (s.nextID + 1) usid profile queryProfile sources := by
  revert h
  fun_cases step cfg s e <;> intro h
  case case2 usid profile queryProfile sources _ _ =>
    rcases mem_cons.mp h with rfl | h
    · exact .inr ⟨usid, profile, queryProfile, sources, rfl, rfl⟩
    · exact .inl ⟨sub', h, keeps_self sub'⟩
  case case3 => exact .inl ⟨sub', mem_of_mem_filter h, keeps_self sub'⟩
  case case4 =>
    obtain ⟨sub, hsub, rfl⟩ := mem_map.mp h
    refine .inl ⟨sub, hsub, keeps_of_same ?_⟩
    split_ifs <;> exact ⟨rfl, rfl, rfl, rfl⟩
  case case6 sub hfind handled posted =>
    obtain ⟨x, hx, rfl⟩ := mem_map.mp h
    split_ifs with hid
    · -- the subscriber of the message
      have hposted : SameButQueue _ posted.1 := post_same
      refine .inl ⟨sub, mem_of_find?_eq_some hfind, hposted.id, hposted.profileKey,
        hposted.customerID, fun p hp => ?_⟩
      rw [hposted.pairs] at hp
      rcases listed_handleControlMessage hp with hold | hacc
      · exact .inl hold
      · obtain ⟨c, -, -, -, hgate⟩ := mem_accepted.mp hacc
        exact .inr ⟨hacc, hgate⟩
    · exact .inl ⟨x, hx, keeps_self x⟩
  case case7 | case8 =>
    obtain ⟨sub, hsub, hkeep⟩ := mem_fanOut_subs h
    exact .inl ⟨sub, hsub, keeps_of_same hkeep⟩
  case case10 pair _ _ _ =>
    obtain ⟨sub₁, hsub₁, hkeep⟩ := mem_fanOut_subs h
    obtain ⟨sub, hsub, rfl⟩ := mem_map.mp hsub₁
    have hrev : Keeps (fun _ => False) sub (revoke pair sub) := revoke_keeps pair sub
    refine .inl ⟨sub, hsub, hkeep.id.trans hrev.id, hkeep.profileKey.trans hrev.profileKey,
      hkeep.customerID.trans hrev.customerID, fun p hp => ?_⟩
    rw [hkeep.pairs] at hp
    exact .inl (listed_revoke hp).1
  -- the other events leave the subscribers as they are
  all_goals exact .inl ⟨sub', h, keeps_self sub'⟩

variable {addressed : Subscriber → Bool} {q : Quote} {id : ℕ}

lemma mem_arrive_sent {x : Out} :
    (id, x) ∈ (arrive cfg s addressed q).2.sent ↔ x = .quote q ∧ ∃ sub ∈ s.subs,
      addressed sub = true ∧ (q.pair = "" ∨ sub.pairs = none ∨ Listed q.pair sub.pairs) ∧
      sub.Room cfg.queueSize ∧ sub.id = id := by
  unfold arrive pairPasses
  rw [mem_fanOut_sent]
  simp only [Bool.and_eq_true, Bool.or_eq_true, decide_eq_true_eq, matchesPair_eq_true, and_assoc]

lemma not_quote_of_sent (hq : ∀ q, e ≠ .quote q) (hc : ∀ q, e ≠ .customerQuote q)
    {x : Out} (h : (id, x) ∈ (step cfg s e).2.sent) (q : Quote) : x ≠ .quote q := by
  revert h
  fun_cases step cfg s e <;> intro h
  case case6 =>
    obtain ⟨y, hy, heq⟩ := mem_map.mp h
    obtain ⟨-, rfl⟩ := Prod.mk.inj heq
    exact not_quote_of_reply (mem_post hy) q
  case case7 q => exact absurd rfl (hq q)
  case case8 q => exact absurd rfl (hc q)
  case case10 =>
    rw [(mem_fanOut_sent.mp h).1]
    exact nofun
  all_goals cases h

lemma accepted_eq_nil (h : ∀ id req, e ≠ .control id req) : (step cfg s e).2.accepted = [] := by
  fun_cases step cfg s e
  case case6 id req _ _ _ _ => exact absurd rfl (h id req)
  all_goals rfl

variable {p : String}

lemma mem_control_accepted {req : Except String ControlRequest} :
    p ∈ (step cfg s (.control id req)).2.accepted ↔ ∃ sub ∈ s.subs.find? fun sub => sub.id = id,
      ∃ c, req = .ok c ∧ c.type = "subscribe" ∧ p ∈ c.items ∧
        gate cfg s.validator sub.customerID p = true := by
  simp only [step]
  cases hfind : s.subs.find? fun sub => sub.id = id with
  | none => simp
  | some sub => simp only [mem_accepted, mem_def, some.injEq, exists_eq_left']

/-- **Silence**: no quote for the pair is sent, and no subscribe to it is granted. -/
def Silent (p : String) (a : Answer) : Prop :=
  (∀ x ∈ a.sent, ¬ x.2.IsQuoteFor p) ∧ p ∉ a.accepted

def Unfiltered (cfg : Config) (s : State) (addressed : Subscriber → Bool) : Prop :=
  ∃ sub ∈ s.subs, addressed sub = true ∧ sub.pairs = none ∧ sub.Room cfg.queueSize

instance (cfg : Config) (s : State) (addressed : Subscriber → Bool) :
    Decidable (Unfiltered cfg s addressed) := inferInstanceAs (Decidable (∃ _ ∈ _, _))

/-- **A harmless event** for a stopped pair: a quote for it reaches nobody without a set of pairs,
and who asks for it finds it unknown or not on its allowlist. -/
def Harmless (cfg : Config) (p : String) (s : State) : Event → Prop
  | .quote q => q.pair = p → ¬ Unfiltered cfg s (forProfile q)
  | .customerQuote q => q.pair = p → ¬ Unfiltered cfg s (forCustomer q)
  | .control id (.ok c) => c.type = "subscribe" → p ∈ c.items →
    ∀ sub ∈ s.subs.find? fun sub => sub.id = id,
      s.validator.isAllowed p = false ∨ cfg.customerAllows sub.customerID p = false
  | .connect _ _ _ _ | .disconnect _ | .write _ | .control _ (.error _) | .disallowPair _
  | .allowPair _ => True

instance (cfg : Config) (p : String) (s : State) : ∀ e, Decidable (Harmless cfg p s e)
  | .quote _ => inferInstanceAs (Decidable (_ → _))
  | .customerQuote _ => inferInstanceAs (Decidable (_ → _))
  | .control _ (.ok _) => inferInstanceAs (Decidable (_ → _))
  | .connect _ _ _ _ | .disconnect _ | .write _ | .control _ (.error _) | .disallowPair _
  | .allowPair _ => .isTrue trivial

def NoneListed (p : String) (s : State) : Prop := ∀ sub ∈ s.subs, ¬ Listed p sub.pairs

lemma noneListed_disallowPair (cfg : Config) (s : State) (hp : p ≠ "") :
    NoneListed p (step cfg s (.disallowPair p)).1 := by
  intro sub' hsub' hlisted
  simp only [step, if_neg hp] at hsub'
  obtain ⟨sub₁, hsub₁, hsame⟩ := mem_fanOut_subs hsub'
  obtain ⟨sub, -, rfl⟩ := mem_map.mp hsub₁
  rw [hsame.pairs] at hlisted
  exact (listed_revoke hlisted).2 rfl

lemma silent_arrive (hp : p ≠ "") (hnone : NoneListed p s) (addressed : Subscriber → Bool)
    (q : Quote) :
    Silent p (arrive cfg s addressed q).2 ↔ (q.pair = p → ¬ Unfiltered cfg s addressed) := by
  constructor
  · rintro ⟨hsent, -⟩ rfl ⟨sub, hsub, haddr, hpairs, hroom⟩
    exact hsent (sub.id, .quote q)
      (mem_arrive_sent.mpr ⟨rfl, sub, hsub, haddr, .inr (.inl hpairs), hroom, rfl⟩) ⟨q, rfl, rfl⟩
  · intro h
    refine ⟨?_, not_mem_nil⟩
    rintro ⟨id, x⟩ hx ⟨q', rfl, hpair⟩
    obtain ⟨heq, sub, hsub, haddr, hpass, hroom, -⟩ := mem_arrive_sent.mp hx
    obtain rfl := Out.quote.inj heq
    refine h hpair ⟨sub, hsub, haddr, ?_, hroom⟩
    rcases hpass with hempty | hpairs | hlisted
    · exact absurd (hpair.symm.trans hempty) hp
    · exact hpairs
    · exact absurd (hpair ▸ hlisted) (hnone sub hsub)

lemma silent_step (hp : p ≠ "") (hcat : cfg.routed p = false) (hnone : NoneListed p s)
    (e : Event) : Silent p (step cfg s e).2 ↔ Harmless cfg p s e := by
  have hquiet : (∀ q, e ≠ .quote q) → (∀ q, e ≠ .customerQuote q) →
      ∀ x ∈ (step cfg s e).2.sent, ¬ x.2.IsQuoteFor p := by
    rintro hq hc ⟨id, x⟩ hx ⟨q, heq, -⟩
    exact not_quote_of_sent hq hc hx q heq
  have hother : (∀ q, e ≠ .quote q) → (∀ q, e ≠ .customerQuote q) →
      (∀ id req, e ≠ .control id req) → Silent p (step cfg s e).2 := by
    intro hq hc hctl
    refine ⟨hquiet hq hc, ?_⟩
    rw [accepted_eq_nil hctl]
    exact not_mem_nil
  cases e with
  | quote q => exact silent_arrive hp hnone (forProfile q) q
  | customerQuote q => exact silent_arrive hp hnone (forCustomer q) q
  | control id req =>
    have hgate : ∀ customerID, gate cfg s.validator customerID p = true ↔
        ¬ (s.validator.isAllowed p = false ∨ cfg.customerAllows customerID p = false) := by
      intro customerID
      simp [gate, hp, hcat]
    unfold Silent
    rw [and_iff_right (hquiet nofun nofun), mem_control_accepted]
    cases req with
    | error err => exact iff_of_true (fun ⟨_, _, _, h, _⟩ => nomatch h) trivial
    | ok c =>
      constructor
      · intro h htype hitem sub hsub
        by_contra hcon
        exact h ⟨sub, hsub, c, rfl, htype, hitem, (hgate _).mpr hcon⟩
      · rintro h ⟨sub, hsub, c', hc, htype, hitem, hg⟩
        obtain rfl := Except.ok.inj hc
        exact (hgate _).mp hg (h htype hitem sub hsub)
  | connect | disconnect | write | disallowPair | allowPair =>
    exact iff_of_true (hother nofun nofun nofun) trivial

lemma noneListed_step (hnone : NoneListed p s) (hsilent : Silent p (step cfg s e).2) :
    NoneListed p (step cfg s e).1 := by
  intro sub' hsub' hlisted
  rcases mem_step_subs hsub' with ⟨sub, hsub, hkeeps⟩ | ⟨_, _, _, _, -, rfl⟩
  · rcases hkeeps.listed p hlisted with hold | ⟨hacc, -⟩
    · exact hnone sub hsub hold
    · exact hsilent.2 hacc
  · obtain ⟨set, hset, -⟩ := hlisted
    cases hset

/-- **A stopped pair stays silent exactly as long as every event is harmless**: for every state in
which an operator stops a pair that the catalog does not have, and whatever happens afterwards. -/
theorem stopped_iff (cfg : Config) (s : State) {p : String} (hp : p ≠ "")
    (hcat : cfg.routed p = false) (es : List Event) :
    (∀ x ∈ log (step cfg) (step cfg s (.disallowPair p)).1 es, Silent p x.2) ↔
      Throughout (fun s e => (step cfg s e).1) (Harmless cfg p)
        (step cfg s (.disallowPair p)).1 es := by
  refine forall_log_iff (NoneListed p) (fun s e hnone => silent_step hp hcat hnone e)
    (fun s e hnone hok => ?_) es _ (noneListed_disallowPair cfg s hp)
  exact noneListed_step hnone ((silent_step hp hcat hnone e).mpr hok)

def plain : Config := ⟨false, none, none, 16⟩

def quoteFor (pair : String) : Quote := ⟨"WEB", "SEL", "GOLD", "", pair, ""⟩

def subscribeTo (pair : String) : Event := .control 1 (.ok ⟨"subscribe", [pair], []⟩)

def oneClient (pair : String) : State :=
  final (step plain) (newServer (some {"USD/KRW", "EUR/USD"}))
    [.connect "U1" "WEB.SEL.GOLD" "" [], subscribeTo pair]

theorem stopped_iff_other :
    (∀ x ∈ log (step plain) (step plain (oneClient "EUR/USD") (.disallowPair "USD/KRW")).1
      [.quote (quoteFor "USD/KRW"), .quote (quoteFor "EUR/USD")], Silent "USD/KRW" x.2) ∧
    (log (step plain) (step plain (oneClient "EUR/USD") (.disallowPair "USD/KRW")).1
      [.quote (quoteFor "USD/KRW"), .quote (quoteFor "EUR/USD")]).map (fun x => x.2.sent) =
      [[], [(1, .quote (quoteFor "EUR/USD"))]] :=
  ⟨(stopped_iff plain (oneClient "EUR/USD") (by decide) (by decide) _).mpr (by decide), by decide⟩

def lastAfterStop (s : State) (p : String) (es : List Event) : Option Answer :=
  (log (step plain) (step plain s (.disallowPair p)).1 es).getLast?.map Prod.snd

theorem stopped_flows :
    (∃ a, lastAfterStop (oneClient "USD/KRW") "USD/KRW" [.quote (quoteFor "USD/KRW")] = some a ∧
      a.sent = [(1, .quote (quoteFor "USD/KRW"))] ∧ ¬ Silent "USD/KRW" a) ∧
    (∃ a, lastAfterStop (newServer (some {"USD/KRW"})) "USD/KRW"
      [.connect "U1" "WEB.SEL.GOLD" "" [], .quote (quoteFor "USD/KRW")] = some a ∧
      a.sent = [(1, .quote (quoteFor "USD/KRW"))] ∧ ¬ Silent "USD/KRW" a) ∧
    ∃ a, lastAfterStop (oneClient "EUR/USD") "USD/KRW"
      [.quote (quoteFor "USD/KRW"), subscribeTo "USD/KRW"] = some a ∧
      a.accepted = ["USD/KRW"] ∧ ¬ Silent "USD/KRW" a := by
  have hsent : ∀ a : Answer, a.sent = [(1, .quote (quoteFor "USD/KRW"))] →
      ¬ Silent "USD/KRW" a := by
    intro a ha hsilent
    refine hsilent.1 (1, .quote (quoteFor "USD/KRW")) ?_ ⟨quoteFor "USD/KRW", rfl, rfl⟩
    rw [ha]
    exact mem_singleton_self _
  refine ⟨⟨_, rfl, by decide, hsent _ (by decide)⟩, ⟨_, rfl, by decide, hsent _ (by decide)⟩,
    ⟨_, rfl, by decide, fun hsilent => hsilent.2 (by decide)⟩⟩

/-- The quotes that a connection is sent are for pairs of the list, or of the catalog. -/
def Allowed (cfg : Config) (id : ℕ) (allowed : List String) (a : Answer) : Prop :=
  ∀ q, (id, Out.quote q) ∈ a.sent → q.pair ∈ allowed ∨ cfg.routed q.pair = true

def Exposed (cfg : Config) (s : State) (id : ℕ) (addressed : Subscriber → Bool) (q : Quote) :
    Prop :=
  ∃ sub ∈ s.subs, sub.id = id ∧ addressed sub = true ∧ (q.pair = "" ∨ sub.pairs = none) ∧
    sub.Room cfg.queueSize

instance (cfg : Config) (s : State) (id : ℕ) (addressed : Subscriber → Bool) (q : Quote) :
    Decidable (Exposed cfg s id addressed q) := inferInstanceAs (Decidable (∃ _ ∈ _, _))

def Contained (cfg : Config) (id : ℕ) (allowed : List String) (s : State) : Event → Prop
  | .quote q => q.pair ∈ allowed ∨ cfg.routed q.pair = true ∨ ¬ Exposed cfg s id (forProfile q) q
  | .customerQuote q =>
    q.pair ∈ allowed ∨ cfg.routed q.pair = true ∨ ¬ Exposed cfg s id (forCustomer q) q
  | .connect _ _ _ _ | .disconnect _ | .write _ | .control _ _ | .disallowPair _ | .allowPair _ =>
    True

instance (cfg : Config) (id : ℕ) (allowed : List String) (s : State) :
    ∀ e, Decidable (Contained cfg id allowed s e)
  | .quote _ => inferInstanceAs (Decidable (_ ∨ _))
  | .customerQuote _ => inferInstanceAs (Decidable (_ ∨ _))
  | .connect _ _ _ _ | .disconnect _ | .write _ | .control _ _ | .disallowPair _ | .allowPair _ =>
    .isTrue trivial

structure Bound (cfg : Config) (id : ℕ) (usid : String) (allowed : List String) (s : State) :
    Prop where
  given : id ≤ s.nextID
  listed : ∀ sub ∈ s.subs, sub.id = id → (sub.profileKey = "" ∧ sub.customerID = "") ∨
    (sub.customerID = usid ∧ ∀ p, Listed p sub.pairs → p ∈ allowed ∨ cfg.routed p = true)

lemma profKey_ne_empty (q : Quote) : q.profKey ≠ "" := by
  intro h
  have hlist := congrArg String.toList h
  simp [Quote.profKey] at hlist

lemma addressed_named {sub : Subscriber}
    (h : forProfile q sub = true ∨ forCustomer q sub = true) :
    ¬ (sub.profileKey = "" ∧ sub.customerID = "") := by
  rintro ⟨hprofile, hcustomer⟩
  rcases h with h | h
  · simp only [forProfile, Bool.and_eq_true, decide_eq_true_eq] at h
    exact profKey_ne_empty q (h.1.symm.trans hprofile)
  · simp only [forCustomer, Bool.and_eq_true, decide_eq_true_eq] at h
    exact h.1.1 (h.1.2.symm.trans hcustomer)

lemma nextID_step_le (cfg : Config) (s : State) (e : Event) :
    s.nextID ≤ (step cfg s e).1.nextID := by
  fun_cases step cfg s e
  case case2 => exact Nat.le_succ _
  all_goals exact Nat.le_refl _

variable {id : ℕ} {usid : String} {allowed : List String}

lemma Bound.step (h : Bound cfg id usid allowed s) (hlist : cfg.allowlist usid = some allowed)
    (e : Event) : Bound cfg id usid allowed (step cfg s e).1 := by
  refine ⟨h.given.trans (nextID_step_le cfg s e), fun sub' hsub' hid => ?_⟩
  rcases mem_step_subs hsub' with ⟨sub, hsub, hkeeps⟩ | ⟨_, _, _, _, -, rfl⟩
  · rw [hkeeps.profileKey, hkeeps.customerID]
    rcases h.listed sub hsub (hkeeps.id.symm.trans hid) with hnobody | ⟨hcust, hold⟩
    · exact .inl hnobody
    · refine .inr ⟨hcust, fun p hp => ?_⟩
      rcases hkeeps.listed p hp with hp | ⟨-, hgate⟩
      · exact hold p hp
      · -- granted by the gate, which knows the list
        rw [hcust] at hgate
        simp only [gate, Config.customerAllows, hlist, all_some, Bool.and_eq_true,
          Bool.or_eq_true, decide_eq_true_eq] at hgate
        rcases hgate.2 with hrouted | ⟨-, hmem⟩
        · exact .inr hrouted
        · exact .inl hmem
  · -- the next connection
    have hgiven := h.given
    have hnew : s.nextID + 1 = id := hid
    omega

lemma allowed_arrive (h : Bound cfg id usid allowed s)
    (hnamed : ∀ sub, addressed sub = true → ¬ (sub.profileKey = "" ∧ sub.customerID = "")) :
    Allowed cfg id allowed (arrive cfg s addressed q).2 ↔
      (q.pair ∈ allowed ∨ cfg.routed q.pair = true ∨ ¬ Exposed cfg s id addressed q) := by
  constructor
  · intro hall
    by_contra hcon
    simp only [not_or, not_not] at hcon
    obtain ⟨hout, hroute, sub, hsub, hid, haddr, hpass, hroom⟩ := hcon
    have hsent : (id, Out.quote q) ∈ (arrive cfg s addressed q).2.sent :=
      mem_arrive_sent.mpr ⟨rfl, sub, hsub, haddr, hpass.imp_right .inl, hroom, hid⟩
    exact (hall q hsent).elim hout hroute
  · intro hok q' hsent
    obtain ⟨heq, sub, hsub, haddr, hpass, hroom, hid⟩ := mem_arrive_sent.mp hsent
    obtain rfl := Out.quote.inj heq
    rcases hok with hin | hroute | hnot
    · exact .inl hin
    · exact .inr hroute
    · rcases hpass with hempty | hnone | hlisted
      · exact absurd ⟨sub, hsub, hid, haddr, .inl hempty, hroom⟩ hnot
      · exact absurd ⟨sub, hsub, hid, haddr, .inr hnone, hroom⟩ hnot
      · rcases h.listed sub hsub hid with hnobody | ⟨-, hpairs⟩
        · exact absurd hnobody (hnamed sub haddr)
        · exact hpairs _ hlisted

lemma allowed_step (h : Bound cfg id usid allowed s) (e : Event) :
    Allowed cfg id allowed (step cfg s e).2 ↔ Contained cfg id allowed s e := by
  have hother : (∀ q, e ≠ .quote q) → (∀ q, e ≠ .customerQuote q) →
      Allowed cfg id allowed (Subscribers.step cfg s e).2 :=
    fun hq hc q hsent => absurd rfl (not_quote_of_sent hq hc hsent q)
  cases e with
  | quote q => exact allowed_arrive h fun sub haddr => addressed_named (.inl haddr)
  | customerQuote q => exact allowed_arrive h fun sub haddr => addressed_named (.inr haddr)
  | control | connect | disconnect | write | disallowPair | allowPair =>
    exact iff_of_true (hother nofun nofun) trivial

def Numbered (s : State) : Prop := ∀ sub ∈ s.subs, sub.id ≤ s.nextID

lemma Numbered.step (h : Numbered s) (e : Event) : Numbered (step cfg s e).1 := by
  intro sub' hsub'
  have hle := nextID_step_le cfg s e
  rcases mem_step_subs hsub' with
    ⟨sub, hsub, hkeeps⟩ | ⟨usid, profile, queryProfile, sources, rfl, rfl⟩
  · rw [hkeeps.id]
    exact (h sub hsub).trans hle
  · simp only [Subscribers.step] at hsub' ⊢
    split_ifs at hsub' ⊢
    · exact absurd (h _ hsub') (Nat.not_succ_le_self _)
    · exact Nat.le_refl _

lemma numbered_final : ∀ (es : List Event) {s : State}, Numbered s →
    Numbered (final (Subscribers.step cfg) s es)
  | [], _, h => h
  | e :: es, _, h => numbered_final es (h.step e)

lemma bound_connect (hnum : Numbered s) (hlist : cfg.allowlist usid = some allowed)
    (profile queryProfile : String) (sources : List String) :
    Bound cfg (s.nextID + 1) usid allowed
      (Subscribers.step cfg s (.connect usid profile queryProfile sources)).1 := by
  have husid : usid ≠ "" := by
    rintro rfl
    cases hlist
  have hpolicy : cfg.customerPairs.isSome = true := by
    unfold Config.allowlist at hlist
    rw [if_neg husid] at hlist
    cases hc : cfg.customerPairs with
    | none =>
      rw [hc] at hlist
      cases hlist
    | some policy => rfl
  simp only [Subscribers.step, if_neg husid]
  refine ⟨le_refl _, fun sub hsub hid => ?_⟩
  rcases mem_cons.mp hsub with rfl | hsub
  · simp only [newSubscriber, hpolicy, Bool.or_true, Bool.and_true, decide_eq_true_eq]
    by_cases hprofile : (if profile = "" then queryProfile else profile) = ""
    · exact .inl ⟨hprofile, if_neg (not_not.mpr hprofile)⟩
    · refine .inr ⟨if_pos hprofile, ?_⟩
      rintro p ⟨set, hset, -⟩
      cases hset
  · have hle := hnum sub hsub
    omega

/-- **The allowlist is enforced exactly as long as every event is contained**: for every customer
that has an allowlist when it connects, at any time, and whatever happens afterwards. -/
theorem contained_iff (cfg : Config) (v : Validator) (before after : List Event) {usid : String}
    {allowed : List String} (hlist : cfg.allowlist usid = some allowed)
    (profile queryProfile : String) (sources : List String) :
    let s := final (step cfg) (newServer v) before
    let s' := (step cfg s (.connect usid profile queryProfile sources)).1
    (∀ x ∈ log (step cfg) s' after, Allowed cfg (s.nextID + 1) allowed x.2) ↔
      Throughout (fun s e => (step cfg s e).1) (Contained cfg (s.nextID + 1) allowed) s' after := by
  intro s s'
  have hnum : Numbered s := numbered_final before fun _ h => nomatch h
  exact forall_log_iff (Bound cfg (s.nextID + 1) usid allowed) (fun _ e h => allowed_step h e)
    (fun _ e h _ => h.step hlist e) after s' (bound_connect hnum hlist profile queryProfile sources)

def withLists : Config :=
  ⟨false, some fun usid => if usid = "U1" then some ["EUR/USD"] else if usid = "U2" then some []
    else none, none, 16⟩

def connected (usid : String) : State :=
  (step withLists (newServer (some {"USD/KRW", "EUR/USD"})) (.connect usid "WEB.SEL.GOLD" "" [])).1

def sentTo (usid : String) (es : List Event) : List (List (ℕ × Out)) :=
  (log (step withLists) (connected usid) es).map fun x => x.2.sent

theorem contained_iff_subscribed :
    (∀ x ∈ log (step withLists) (connected "U1") [subscribeTo "EUR/USD",
      .quote (quoteFor "USD/KRW"), .quote (quoteFor "EUR/USD")],
        Allowed withLists 1 ["EUR/USD"] x.2) ∧
    (sentTo "U1" [subscribeTo "EUR/USD", .quote (quoteFor "USD/KRW"),
      .quote (quoteFor "EUR/USD")]).tail = [[], [(1, .quote (quoteFor "EUR/USD"))]] :=
  ⟨(contained_iff withLists (some {"USD/KRW", "EUR/USD"}) [] _ (by decide) "WEB.SEL.GOLD" "" []).mpr
    (by decide), by decide⟩

theorem allowlist_leaks :
    withLists.allowlist "U1" = some ["EUR/USD"] ∧ withLists.allowlist "U2" = some [] ∧
    (sentTo "U1" [.quote (quoteFor "USD/KRW")]).getLast? =
      some [(1, .quote (quoteFor "USD/KRW"))] ∧
    (sentTo "U2" [subscribeTo "USD/KRW", .quote (quoteFor "USD/KRW")]).getLast? =
      some [(1, .quote (quoteFor "USD/KRW"))] ∧
    (sentTo "U1" [subscribeTo "EUR/USD", .control 1 (.ok ⟨"unsubscribe", [], ["EUR/USD"]⟩),
      .quote (quoteFor "USD/KRW")]).getLast? = some [(1, .quote (quoteFor "USD/KRW"))] ∧
    "USD/KRW" ∉ ["EUR/USD"] ∧ withLists.routed "USD/KRW" = false := by
  decide

end Wtg.Edge.PairStop
