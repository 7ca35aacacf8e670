import Wtg.Api.Http
import Wtg.Idempotency.Ownership

/-! # Retried orders

Requests of one user with the same `Idempotency-Key` and the same body, in any interleaving. -/

namespace Wtg.Api.Resubmit

open Lib Svcio Idempotency.Stores Idempotency.Ownership Api.Http Option Function Lib.Transition

inductive Phase
  | fresh
  | leading (since : ℤ)
  | calling (since : ℤ)
  | unguarded
  | done

/-- The store, the handlers, who made the last reservation, and how many frames were sent. -/
structure Sys (σ : Type*) where
  time : ℤ
  store : σ
  phase : ℕ → Phase
  maker : Option ℕ
  sent : ℕ

/-- What a handler does next. -/
inductive Act
  | reserve (i : ℕ)
  | send (i : ℕ)
  | answer (i : ℕ) (resp : Response)
  | called (i : ℕ) (raw : Bool) (spec : Option Wire.SvcSpec) (result : Except CallErr Reply)

def start {σ : Type*} (time : ℤ) (store : σ) : Sys σ := ⟨time, store, fun _ => .fresh, none, 0⟩

/-! ## Steps -/

section

variable {σ : Type*} (C : Codec) (st : Lease.Store σ Hash CachedReply) (tag : Hash)

def complete (now : ℤ) (store : σ) (resp : Response) : σ :=
  if 500 ≤ resp.status then st.rollback now store
  else st.commit now store ⟨resp.status, resp.body⟩

def finish (s : Sys σ) (now : ℤ) (i : ℕ) (resp : Response) : Sys σ :=
  ⟨now, complete st now s.store resp, Function.update s.phase i .done, s.maker, s.sent⟩

def reserveStep (s : Sys σ) (now : ℤ) (i : ℕ) : Sys σ :=
  let (store, answer) := st.reserve now s.store tag
  match answer with
  | .miss => ⟨now, store, Function.update s.phase i (.leading now), some i, s.sent⟩
  | .failed => ⟨now, store, Function.update s.phase i .unguarded, s.maker, s.sent⟩
  | _ => ⟨now, store, Function.update s.phase i .done, s.maker, s.sent⟩

def sendStep (s : Sys σ) (now : ℤ) (i : ℕ) (phase : Phase) : Sys σ :=
  ⟨now, s.store, Function.update s.phase i phase, s.maker, s.sent + 1⟩

def step (s : Sys σ) : ℤ × Act → Option (Sys σ)
  | (now, act) =>
    if now < s.time then none
    else
      match act with
      | .reserve i =>
        match s.phase i with
        | .fresh => some (reserveStep st tag s now i)
        | _ => none
      | .send i =>
        match s.phase i with
        | .leading since => some (sendStep s now i (.calling since))
        | .unguarded => some (sendStep s now i .done)
        | _ => none
      | .answer i resp =>
        match s.phase i with
        | .leading _ => some (finish st s now i resp)
        | _ => none
      | .called i raw spec result =>
        match s.phase i with
        | .calling _ => some (finish st s now i (answerCall C raw spec result))
        | _ => none

end

def Decided (raw : Bool) : Except CallErr Reply → Prop
  | .error (.mq errn _) => errn ≠ 1021 ∧ errn ≠ 1029
  | .error _ => False
  | .ok reply => (reply.errn ≠ 1021 ∧ reply.errn ≠ 1029) ∨ (raw = true ∧ reply.body ≠ [])

instance (raw : Bool) : ∀ result, Decidable (Decided raw result)
  | .error (.mq _ _) => inferInstanceAs (Decidable (_ ∧ _))
  | .error .reconnecting | .error .clientClosed | .error (.other _) => .isFalse id
  | .ok _ => inferInstanceAs (Decidable (_ ∨ _))

/-- The condition on a step: a request comes before the deadline, and a call is decided. -/
def Good {σ : Type*} (live : ℤ → ℤ → Prop) (deadline : ℤ) (_ : Sys σ) : ℤ × Act → Prop
  | (now, .reserve _) => live now deadline
  | (_, .called _ raw _ result) => Decided raw result
  | _ => True

instance {σ : Type*} (live : ℤ → ℤ → Prop) [DecidableRel live] (deadline : ℤ) (s : Sys σ) :
    ∀ act, Decidable (Good live deadline s act)
  | (now, .reserve _) => inferInstanceAs (Decidable (live now deadline))
  | (_, .called _ raw _ result) => inferInstanceAs (Decidable (Decided raw result))
  | (_, .send _) | (_, .answer _ _) => .isTrue trivial

/-! ## The invariant -/

section

variable {σ : Type*} {C : Codec} {st : Lease.Store σ Hash CachedReply} {tag : Hash}
  {live : ℤ → ℤ → Prop} {ttl : ℤ} {R : ℤ → σ → Lease.Cell Hash CachedReply → Prop}
  {t₀ now : ℤ} {c : Lease.Cell Hash CachedReply} {s s' : Sys σ} {i : ℕ}

lemma mapBrokerError_status_lt (errn : ℕ) (text : String) :
    (mapBrokerError (.mq errn text)).status < 500 ↔ errn ≠ 1021 ∧ errn ≠ 1029 := by
  simp only [mapBrokerError]
  split_ifs <;> simp <;> omega

lemma status_lt_iff (C : Codec) (raw : Bool) (spec : Option Wire.SvcSpec)
    (result : Except CallErr Reply) :
    (answerCall C raw spec result).status < 500 ↔ Decided raw result := by
  have hfail : ∀ failure errn, (fail C raw failure errn).status = failure.status := by
    intro failure errn
    cases raw <;> rfl
  rcases result with err | reply
  · simp only [answerCall, hfail]
    cases err with
    | mq errn text => exact mapBrokerError_status_lt errn text
    | reconnecting => simp [mapBrokerError, Decided]
    | clientClosed => simp [mapBrokerError, Decided]
    | other text => simp [mapBrokerError, Decided]
  · simp only [answerCall, Reply.asError, Decided]
    by_cases hok : reply.errn = 0 ∧ reply.errMsg = ""
    · cases raw <;> simp [hok, writeJSON]
    · have hmap := mapBrokerError_status_lt reply.errn (C.errorText reply.errn reply.errMsg)
      simp only [if_neg hok]
      cases raw
      · simpa [writeJSON] using hmap
      · by_cases hbody : reply.body = []
        · simpa [hbody, writeRawError] using hmap
        · simp [hbody]

def Leads (s : Sys σ) (i : ℕ) (since : ℤ) : Prop :=
  s.phase i = .leading since ∨ s.phase i = .calling since

/-- There is one leader at most, and once a frame was sent nobody is about to send another. -/
structure Order (t₀ : ℤ) (s : Sys σ) : Prop where
  begun : t₀ ≤ s.time
  guarded : ∀ i, s.phase i ≠ .unguarded
  leader : ∀ i since, Leads s i since → s.maker = some i ∧ t₀ ≤ since
  once : (s.sent = 0 ∧ ∀ i since, s.phase i ≠ .calling since) ∨
    (s.sent = 1 ∧ ∀ i since, s.phase i ≠ .leading since)

/-- The store follows `c`. -/
structure Follows (ttl : ℤ) (R : ℤ → σ → Lease.Cell Hash CachedReply → Prop) (tag : Hash) (t₀ : ℤ)
    (s : Sys σ) (c : Lease.Cell Hash CachedReply) : Prop where
  cell : R s.time s.store c
  held : ∀ i since, Leads s i since → c = .held tag (since + ttl)
  kept : s.sent = 0 ∨ (∃ i since, s.phase i = .calling since) ∨
    ∃ a e, c = .kept tag a e ∧ t₀ + ttl ≤ e

def Inv (live : ℤ → ℤ → Prop) (ttl : ℤ) (R : ℤ → σ → Lease.Cell Hash CachedReply → Prop)
    (tag : Hash) (t₀ : ℤ) (s : Sys σ) : Prop :=
  Order t₀ s ∧ (live s.time (t₀ + ttl) → ∃ c, Follows ttl R tag t₀ s c)

lemma order_start (store : σ) : Order t₀ (start t₀ store) where
  begun := le_rfl
  guarded := fun _ hp => by simp [start] at hp
  leader := fun _ _ hp => by simp [start, Leads] at hp
  once := .inl ⟨rfl, fun _ _ hp => by simp [start] at hp⟩

lemma follows_start {store : σ} (h : R t₀ store .free) :
    Follows ttl R tag t₀ (start t₀ store) .free where
  cell := h
  held := fun _ _ hp => by simp [start, Leads] at hp
  kept := .inl rfl

variable {j : ℕ}

lemma update_eq {p q : Phase} (h : update s.phase i p j = q) :
    (j = i ∧ p = q) ∨ (j ≠ i ∧ s.phase j = q) := by
  by_cases hji : j = i
  · subst hji
    rw [update_self] at h
    exact .inl ⟨rfl, h⟩
  · rw [update_of_ne hji] at h
    exact .inr ⟨hji, h⟩

lemma of_update {p q : Phase} (h : update s.phase i p j = q) (hpq : p ≠ q) :
    j ≠ i ∧ s.phase j = q := by
  rcases update_eq h with ⟨-, hp⟩ | hq
  · exact absurd hp hpq
  · exact hq

variable {since : ℤ}

lemma leads_update {t : Sys σ} {p : Phase} (ht : t.phase = update s.phase i p)
    (h : Leads t j since) :
    (j = i ∧ (p = .leading since ∨ p = .calling since)) ∨ (j ≠ i ∧ Leads s j since) := by
  unfold Leads at h
  rw [ht] at h
  rcases h with h | h
  · exact (update_eq h).imp (fun h => ⟨h.1, .inl h.2⟩) (fun h => ⟨h.1, .inl h.2⟩)
  · exact (update_eq h).imp (fun h => ⟨h.1, .inr h.2⟩) (fun h => ⟨h.1, .inr h.2⟩)

lemma leads_of_done {t : Sys σ} (ht : t.phase = update s.phase i .done)
    (h : Leads t j since) : j ≠ i ∧ Leads s j since := by
  rcases leads_update ht h with ⟨-, hp | hp⟩ | hj
  · cases hp
  · cases hp
  · exact hj

lemma Order.alone (h : Order t₀ s) {since since' : ℤ} (hi : Leads s i since)
    (hj : Leads s j since') : j = i := by
  have hmaker := (h.leader i since hi).1
  rw [(h.leader j since' hj).1] at hmaker
  exact some.inj hmaker

lemma Order.sent_eq_zero (h : Order t₀ s) (hp : s.phase i = .leading since) : s.sent = 0 := by
  rcases h.once with ⟨hzero, -⟩ | ⟨-, hnone⟩
  · exact hzero
  · exact absurd hp (hnone i since)

lemma Order.retire (h : Order t₀ s) (htime : s.time ≤ now) (store' : σ) (i : ℕ) :
    Order t₀ ⟨now, store', update s.phase i .done, s.maker, s.sent⟩ := by
  refine ⟨h.begun.trans htime, ?_, ?_, ?_⟩
  · intro j hj
    exact h.guarded j (of_update hj (by simp)).2
  · intro j since hj
    exact h.leader j since (leads_of_done rfl hj).2
  · rcases h.once with ⟨hzero, hnone⟩ | ⟨hone, hnone⟩
    · exact .inl ⟨hzero, fun j since hj => hnone j since (of_update hj (by simp)).2⟩
    · exact .inr ⟨hone, fun j since hj => hnone j since (of_update hj (by simp)).2⟩

lemma Order.lead (h : Order t₀ s) (htime : s.time ≤ now) (store' : σ) (i : ℕ)
    (hnone : ∀ j since, ¬ Leads s j since) (hzero : s.sent = 0) :
    Order t₀ ⟨now, store', update s.phase i (.leading now), some i, s.sent⟩ := by
  have hbegun : t₀ ≤ now := h.begun.trans htime
  refine ⟨hbegun, ?_, ?_, .inl ⟨hzero, ?_⟩⟩
  · intro j hj
    exact h.guarded j (of_update hj (by simp)).2
  · intro j since hj
    rcases leads_update rfl hj with ⟨rfl, hp | hp⟩ | ⟨-, hj⟩
    · cases hp
      exact ⟨rfl, hbegun⟩
    · cases hp
    · exact absurd hj (hnone j since)
  · intro j since hj
    exact hnone j since (.inr (of_update hj (by simp)).2)

lemma Order.send (h : Order t₀ s) (htime : s.time ≤ now) (hp : s.phase i = .leading since) :
    Order t₀ (sendStep s now i (.calling since)) := by
  refine ⟨h.begun.trans htime, ?_, ?_, .inr ⟨?_, ?_⟩⟩
  · intro j hj
    exact h.guarded j (of_update hj (by simp)).2
  · intro j since' hj
    rcases leads_update rfl hj with ⟨rfl, hq | hq⟩ | ⟨-, hj⟩
    · cases hq
    · cases hq
      exact h.leader j since (.inl hp)
    · exact h.leader j since' hj
  · show s.sent + 1 = 1
    rw [h.sent_eq_zero hp]
  · intro j since' hj
    obtain ⟨hji, hq⟩ := of_update hj (by simp)
    exact hji (h.alone (.inl hp) (.inl hq))

lemma Follows.idle (himp : Lease.Implements st live ttl R) (h : Follows ttl R tag t₀ s c)
    (hord : Order t₀ s) (hlive : live now (t₀ + ttl)) (hfree : ¬ c.Live live now) :
    (∀ j since, ¬ Leads s j since) ∧ s.sent = 0 := by
  have hnone : ∀ j since, ¬ Leads s j since := by
    intro j since hj
    have hsince := (hord.leader j since hj).2
    obtain rfl := h.held j since hj
    exact hfree (himp.live_later (by omega) hlive)
  refine ⟨hnone, ?_⟩
  rcases h.kept with hzero | ⟨j, since, hj⟩ | ⟨a, e, rfl, he⟩
  · exact hzero
  · exact absurd (.inr hj) (hnone j since)
  · exact absurd (himp.live_later he hlive) hfree

lemma Follows.turnAway (h : Follows ttl R tag t₀ s c) {store' : σ} (hR : R now store' c)
    (hp : s.phase i = .fresh) :
    Follows ttl R tag t₀ ⟨now, store', update s.phase i .done, s.maker, s.sent⟩ c := by
  refine ⟨hR, ?_, ?_⟩
  · intro j since hj
    exact h.held j since (leads_of_done rfl hj).2
  · rcases h.kept with hzero | ⟨j, since, hj⟩ | hkept
    · exact .inl hzero
    · have hji : j ≠ i := by
        rintro rfl
        rw [hp] at hj
        cases hj
      refine .inr (.inl ⟨j, since, ?_⟩)
      show update s.phase i .done j = _
      rw [update_of_ne hji, hj]
    · exact .inr (.inr hkept)

lemma Follows.lead {store' : σ} (hR : R now store' (.held tag (now + ttl)))
    (hnone : ∀ j since, ¬ Leads s j since) (hzero : s.sent = 0) :
    Follows ttl R tag t₀ ⟨now, store', update s.phase i (.leading now), some i, s.sent⟩
      (.held tag (now + ttl)) := by
  refine ⟨hR, ?_, .inl hzero⟩
  intro j since hj
  rcases leads_update rfl hj with ⟨-, hp | hp⟩ | ⟨-, hj⟩
  · cases hp
    rfl
  · cases hp
  · exact absurd hj (hnone j since)

lemma Follows.send (h : Follows ttl R tag t₀ s c) (hR : R now s.store c)
    (hp : s.phase i = .leading since) :
    Follows ttl R tag t₀ (sendStep s now i (.calling since)) c := by
  refine ⟨hR, ?_, .inr (.inl ⟨i, since, update_self ..⟩)⟩
  intro j since' hj
  rcases leads_update rfl hj with ⟨rfl, hq | hq⟩ | ⟨-, hj⟩
  · cases hq
  · cases hq
    exact h.held j since (.inl hp)
  · exact h.held j since' hj

section

variable (himp : Lease.Implements st live ttl R)
include himp

lemma Follows.finish (h : Follows ttl R tag t₀ s c) (hord : Order t₀ s) (htime : s.time ≤ now)
    (hlive : live now (t₀ + ttl)) (hlead : Leads s i since) (resp : Response)
    (hsent : s.sent = 0 ∨ resp.status < 500) :
    ∃ c', Follows ttl R tag t₀ (Resubmit.finish st s now i resp) c' := by
  have hsince := (hord.leader i since hlead).2
  have hbegun := hord.begun
  have hown : live now (since + ttl) := himp.live_later (by omega) hlive
  have hR := himp.mono htime h.cell
  rw [h.held i since hlead] at hR
  have hheld : ∀ (c' : Lease.Cell Hash CachedReply) (j : ℕ) (since' : ℤ),
      Leads (Resubmit.finish st s now i resp) j since' → c' = .held tag (since' + ttl) := by
    intro c' j since' hj
    obtain ⟨hji, hj⟩ := leads_of_done rfl hj
    exact absurd (hord.alone hlead hj) hji
  by_cases hstatus : 500 ≤ resp.status
  · refine ⟨.free, ?_, hheld _, .inl (hsent.resolve_right (by omega))⟩
    show R now (complete st now s.store resp) .free
    rw [complete, if_pos hstatus]
    exact himp.rollback hR hown
  · refine ⟨.kept tag ⟨resp.status, resp.body⟩ (now + ttl), ?_, hheld _,
      .inr (.inr ⟨_, _, rfl, by omega⟩)⟩
    show R now (complete st now s.store resp) _
    rw [complete, if_neg hstatus]
    exact himp.commit _ hR hown

lemma Inv.reserve (h : Inv live ttl R tag t₀ s) (htime : s.time ≤ now)
    (hlive : live now (t₀ + ttl)) (hp : s.phase i = .fresh) :
    Inv live ttl R tag t₀ (reserveStep st tag s now i) := by
  obtain ⟨hord, hfollows⟩ := h
  obtain ⟨c, hc⟩ := hfollows (himp.live_mono htime hlive)
  have hbegun := hord.begun
  have hres := himp.reserves (himp.mono htime hc.cell) tag
  unfold reserveStep
  generalize st.reserve now s.store tag = x at hres ⊢
  cases hres with
  | miss hfree hnew =>
    obtain ⟨hnone, hzero⟩ := hc.idle himp hord hlive hfree
    exact ⟨hord.lead htime _ i hnone hzero, fun _ => ⟨_, .lead hnew hnone hzero⟩⟩
  | failed _ hdead => exact absurd (himp.live_later (by omega) hlive) hdead
  | conflict hR | inFlight hR | cached hR =>
    exact ⟨hord.retire htime _ i, fun _ => ⟨c, hc.turnAway hR hp⟩⟩

lemma Inv.finish (h : Inv live ttl R tag t₀ s) (htime : s.time ≤ now) (hlead : Leads s i since)
    (resp : Response) (hsent : s.sent = 0 ∨ resp.status < 500) :
    Inv live ttl R tag t₀ (Resubmit.finish st s now i resp) := by
  refine ⟨h.1.retire htime _ i, fun hlive => ?_⟩
  obtain ⟨c, hc⟩ := h.2 (himp.live_mono htime hlive)
  exact hc.finish himp h.1 htime hlive hlead resp hsent

lemma Inv.step {act : ℤ × Act} (h : Inv live ttl R tag t₀ s)
    (hgood : Good live (t₀ + ttl) s act) (hstep : Resubmit.step C st tag s act = some s') :
    Inv live ttl R tag t₀ s' := by
  revert hgood hstep
  fun_cases Resubmit.step C st tag s act <;> rintro hgood ⟨⟩
  case case2 now htime i hp => exact h.reserve himp (not_lt.mp htime) hgood hp
  case case4 now htime i since hp =>
    have htime := not_lt.mp htime
    refine ⟨h.1.send htime hp, fun hlive => ?_⟩
    obtain ⟨c, hc⟩ := h.2 (himp.live_mono htime hlive)
    exact ⟨c, hc.send (himp.mono htime hc.cell) hp⟩
  case case5 i hp => exact absurd hp (h.1.guarded i)
  case case7 now htime i resp since hp =>
    exact h.finish himp (not_lt.mp htime) (.inl hp) resp (.inl (h.1.sent_eq_zero hp))
  case case9 now htime i raw spec result since hp =>
    exact h.finish himp (not_lt.mp htime) (.inr hp) _
      (.inr ((status_lt_iff C raw spec result).mpr hgood))

lemma sent_le_one {store : σ} (h : R t₀ store .free) {acts : List (ℤ × Act)}
    (hgood : Transition.Along (Resubmit.step C st tag) (Good live (t₀ + ttl)) (start t₀ store) acts)
    (hrun : run (Resubmit.step C st tag) (start t₀ store) acts = some s') :
    s'.sent ≤ 1 := by
  have hinv := invariant (Resubmit.step C st tag) (P := Inv live ttl R tag t₀)
    (fun _ _ _ hs hg hst => Inv.step himp hs hg hst)
    ⟨order_start store, fun _ => ⟨.free, follows_start h⟩⟩ hgood hrun
  rcases hinv.1.once with ⟨hzero, -⟩ | ⟨hone, -⟩ <;> omega

end

end

/-- **A retried order is sent once**: of requests with one key and one body within the TTL, at most
one sends a frame, if every call whose frame was sent is decided. -/
theorem at_most_one_frame (C : Codec) (t₀ : ℤ) (key : String) (tag : Hash) (acts : List (ℤ × Act)) :
    (∀ (mem : MemoryStore) (s : Sys MemoryStore), mem.entries.lookup key = none →
      Transition.Along (step C (memoryLease key) tag) (Good (fun now e => now ≤ e) (t₀ + mem.ttl))
        (start t₀ mem) acts →
      Transition.run (step C (memoryLease key) tag) (start t₀ mem) acts = some s → s.sent ≤ 1) ∧
    (∀ (r : RedisStore) (db : DB) (s : Sys DB), db (r.pfx ++ key) = none →
      db (replyKey (r.pfx ++ key)) = none →
      Transition.Along (step C (redisLease r key) tag)
        (Good (fun now e => now < e) (t₀ + r.ttlMs * milli)) (start t₀ db) acts →
      Transition.run (step C (redisLease r key) tag) (start t₀ db) acts = some s → s.sent ≤ 1) := by
  constructor
  · intro mem s hnone hgood hrun
    exact sent_le_one (memory_implements key mem.ttl) ⟨rfl, hnone⟩ hgood hrun
  · intro r db s hkey hreply hgood hrun
    exact sent_le_one (redis_implements r key) ⟨.inl hkey, .inl hreply⟩ hgood hrun

/-! ## A refused and a repeated order -/

def refused : List (ℤ × Act) :=
  [(0, .reserve 0), (0, .send 0), (1, .reserve 1), (2, .called 0 false none (.ok { errn := 3001 })),
    (3, .reserve 2)]

theorem refused_sent_once :
    (∃ s, Transition.run (step toyCodec (memoryLease "u|k") zeroHash)
        (start 0 (newMemoryStore milli)) refused = some s ∧ s.sent ≤ 1) ∧
    (∃ s, Transition.run (step toyCodec (redisLease (newRedisStore "" milli) "u|k") zeroHash)
        (start 0 TtlStore.empty) refused = some s ∧ s.sent ≤ 1) := by
  have h := at_most_one_frame toyCodec 0 "u|k" zeroHash refused
  refine ⟨⟨_, rfl, h.1 (newMemoryStore milli) _ rfl (by decide +kernel) rfl⟩,
    ⟨_, rfl, h.2 (newRedisStore "" milli) TtlStore.empty _ rfl rfl (by decide +kernel) rfl⟩⟩

def retried (err : CallErr) : List (ℤ × Act) :=
  [(0, .reserve 0), (0, .send 0), (1, .called 0 false none (.error err)), (2, .reserve 1),
    (2, .send 1)]

def framesOf {σ : Type} (st : Lease.Store σ Hash CachedReply) (store : σ) (acts : List (ℤ × Act)) :
    Option ℕ :=
  (Transition.run (step toyCodec st zeroHash) (start 0 store) acts).map Sys.sent

theorem retry_sends_again :
    (framesOf (memoryLease "u|k") (newMemoryStore milli)
        (retried (.other "context deadline exceeded")) = some 2 ∧
      framesOf (memoryLease "u|k") (newMemoryStore milli) (retried .clientClosed) = some 2) ∧
    (framesOf (redisLease (newRedisStore "" milli) "u|k") TtlStore.empty
        (retried (.other "context deadline exceeded")) = some 2 ∧
      framesOf (redisLease (newRedisStore "" milli) "u|k") TtlStore.empty (retried .clientClosed) =
        some 2) := by
  decide +kernel

end Wtg.Api.Resubmit
