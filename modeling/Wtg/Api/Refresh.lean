import Wtg.Auth.Stores
import Wtg.Lib.Protocol

/-! # Refresh and logout

`Refresh` of `internal/api/handlers/refresh.go` and `Logout` of `logout.go` over the memory stores
of sessions and refresh tokens. -/

namespace Wtg.Api.Refresh

open Lib Lib.Program Lib.Protocol Auth.Stores Option Function Lib.Transition MemoryStore

inductive Call
  | now
  | consume (token : String)
  | getSession (id : String)
  | putToken (t : RefreshToken)
  | deleteSession (id : String)
  | deleteBySID (sid : String)
  | sweepTokens
  | sweepSessions
  deriving DecidableEq, Repr

abbrev Answer : Call → Type
  | .now => ℤ
  | .consume _ => Except RefreshErr RefreshToken
  | .getSession _ => Except SessionErr Session
  | .putToken _ => Except RefreshErr Unit
  | .deleteBySID _ => ℕ
  | .deleteSession _ | .sweepTokens | .sweepSessions => Unit

structure State where
  tokens : Tokens
  sessions : MemoryStore

def serve (now : ℤ) (s : State) : (c : Call) → State × Answer c
  | .now => (s, now)
  | .consume token =>
    ({ s with tokens := (s.tokens.consume now token).1 }, (s.tokens.consume now token).2)
  | .getSession id =>
    ({ s with sessions := (s.sessions.get now id).1 }, (s.sessions.get now id).2)
  | .putToken t => ({ s with tokens := (s.tokens.put now t).1 }, (s.tokens.put now t).2)
  | .deleteSession id => ({ s with sessions := s.sessions.delete id }, ())
  | .deleteBySID sid =>
    ({ s with tokens := (s.tokens.deleteBySID sid).1 }, (s.tokens.deleteBySID sid).2)
  | .sweepTokens => ({ s with tokens := s.tokens.sweepOnce now }, ())
  | .sweepSessions => ({ s with sessions := s.sessions.sweepOnce now }, ())

structure Claims where
  sid : String
  usid : String
  channel : String
  exp : ℤ
  deriving DecidableEq, Repr

structure RefreshResponse where
  accessToken : String
  accessExpAt : ℤ
  refreshToken : String
  refreshExpAt : ℤ
  sid : String
  deriving DecidableEq, Repr

/-- What a handler writes; a logout answers with the broker's error, if there was one. -/
inductive Response
  | error (status : ℕ) (code message : String)
  | refreshed (body : RefreshResponse)
  | loggedOut (broker : Option (ℕ × String))
  | swept
  deriving DecidableEq, Repr

/-- The dependencies: the lifetimes in nanoseconds, and whether logins go through the chain. -/
structure Deps where
  accessTokenTTL : ℤ
  refreshTokenTTL : ℤ
  loginChain : Bool

def defaultAccessTTL : ℤ := 15 * 60 * 1000000000

def defaultRefreshTTL : ℤ := 8 * 3600 * 1000000000

def Deps.accessTTL (deps : Deps) : ℤ :=
  if deps.accessTokenTTL ≤ 0 then defaultAccessTTL else deps.accessTokenTTL

def Deps.refreshTTL (deps : Deps) : ℤ :=
  if deps.refreshTokenTTL ≤ 0 then defaultRefreshTTL else deps.refreshTokenTTL

structure RefreshCall where
  body : Except String String
  sign : Option (Claims → Except String String)
  draw : Except String String

structure LogoutCall where
  usid : String
  sessionID : String
  badBody : Option String
  chain : Option (ℕ × String)
  hasCookie : Bool
  broker : Option (ℕ × String)

def refresh (deps : Deps) (r : RefreshCall) : Prog Call Answer Response :=
  match r.sign with
  | none => .ret (.error 503 "refresh_unavailable" "refresh 흐름 미구성")
  | some sign =>
  match r.body with
  | .error e => .ret (.error 400 "bad_json" e)
  | .ok token =>
  if token = "" then .ret (.error 400 "validation" "refresh_token 필요")
  else .call (.consume token) fun
    | .error .notFound | .error .expired =>
      .ret (.error 401 "refresh_invalid" "refresh 만료/미존재 — 재로그인 필요")
    | .error e => .ret (.error 500 "refresh_store" e.text)
    | .ok old => .call (.getSession old.sid) fun
      | .error _ => .ret (.error 401 "session_gone" "세션이 만료되었거나 logout 됨")
      | .ok sess => .call .now fun now =>
        let accessExp := now + deps.accessTTL
        match sign ⟨sess.id, sess.usid, sess.channel, accessExp / 1000000000⟩ with
        | .error e => .ret (.error 500 "jwt_sign" e)
        | .ok access =>
        let refreshExp := now + deps.refreshTTL
        match r.draw with
        | .error e => .ret (.error 500 "rng" e)
        | .ok newRT =>
          .call (.putToken ⟨newRT, sess.id, sess.usid, sess.channel, some now, some refreshExp⟩) fun
          | .error e => .ret (.error 500 "refresh_store" e.text)
          | .ok () => .ret (.refreshed ⟨access, accessExp, newRT, refreshExp, sess.id⟩)

def endSession (sid : String) (broker : Option (ℕ × String)) : Prog Call Answer Response :=
  .call (.deleteSession sid) fun _ => .call (.deleteBySID sid) fun _ => .ret (.loggedOut broker)

def LogoutCall.brokerErr (r : LogoutCall) (chain : Option (ℕ × String)) : Option (ℕ × String) :=
  ((if r.hasCookie then r.broker else none).or chain).filter fun e => e.1 ≠ 0

def logout (deps : Deps) (r : LogoutCall) : Prog Call Answer Response :=
  if r.usid = "" then .ret (.error 401 "unauthorized" "인증되지 않은 요청")
  else if r.sessionID = "" then
    .ret (.error 400 "no_session" "DevMode 또는 비-세션 인증으로는 logout 할 수 없음")
  else
  match r.badBody with
  | some e => .ret (.error 400 "bad_json" e)
  | none =>
  if deps.loginChain then .call (.getSession r.sessionID) fun
    | .error _ => endSession r.sessionID (r.brokerErr none)
    | .ok sess =>
      endSession r.sessionID (r.brokerErr (if sess.lgnIdntCon = "" then none else r.chain))
  else endSession r.sessionID (r.brokerErr none)

inductive Request
  | refresh (r : RefreshCall)
  | logout (r : LogoutCall)
  | sweepTokens
  | sweepSessions

def handle (deps : Deps) : Request → Prog Call Answer Response
  | .refresh r => refresh deps r
  | .logout r => logout deps r
  | .sweepTokens => .call .sweepTokens fun _ => .ret .swept
  | .sweepSessions => .call .sweepSessions fun _ => .ret .swept

namespace Request

def token : Request → Option String
  | .refresh r => r.body.toOption
  | _ => none

def draw : Request → Option String
  | .refresh r => r.draw.toOption
  | _ => none

def session : Request → Option String
  | .logout r => some r.sessionID
  | _ => none

end Request

variable {ι : Type} [DecidableEq ι]

def stores : Object Call Answer State (ι × ℤ) := fun x s c => serve x.2 s c

def start (deps : Deps) (reqs : ι → Request) (s : State) : Pool Call Answer State ι Response :=
  ⟨s, fun i => handle deps (reqs i)⟩

/-- **No string is drawn twice**, and none that is drawn is stored already. -/
structure DistinctDraws (reqs : ι → Request) (s : State) : Prop where
  apart : ∀ i j t, (reqs i).draw = some t → (reqs j).draw = some t → i = j
  unstored : ∀ i t, (reqs i).draw = some t → s.tokens.lookup t = none

variable (deps : Deps)

lemma follows_refresh_rule {γ : Type} {P : Rules Call Answer γ} {Q : γ → Response → Prop} {g : γ}
    (r : RefreshCall) (hnow : P.Ignores .now)
    (herror : ∀ g status code message, Q g (.error status code message))
    (hcalls : ∀ token, r.body = .ok token → P.pre g (.consume token) ∧
      ∀ old g₁, P.post g (.consume token) (.ok old) g₁ → P.pre g₁ (.getSession old.sid) ∧
        ∀ sess g₂, P.post g₁ (.getSession old.sid) (.ok sess) g₂ →
          ∀ t, r.draw = .ok t.token → t.sid = sess.id → P.pre g₂ (.putToken t) ∧
            ∀ g₃, P.post g₂ (.putToken t) (.ok ()) g₃ →
              ∀ body, body.sid = sess.id → Q g₃ (.refreshed body)) :
    Follows P g (refresh deps r) Q := by
  unfold refresh
  rcases r.sign with _ | sign
  · exact herror g _ _ _
  rcases hbody : r.body with e | token
  · exact herror g _ _ _
  dsimp only
  split_ifs
  · exact herror g _ _ _
  obtain ⟨hpre, hconsumed⟩ := hcalls token hbody
  refine ⟨hpre, ?_⟩
  rintro (e | old) g₁ hg₁
  · rcases e with _ | _ | _ <;> exact herror g₁ _ _ _
  obtain ⟨hpre, hfound⟩ := hconsumed old g₁ hg₁
  refine ⟨hpre, ?_⟩
  rintro (e | sess) g₂ hg₂
  · exact herror g₂ _ _ _
  refine follows_ignored hnow fun now => ?_
  show Follows P g₂ (match sign _ with | .error _ => _ | .ok _ => _) Q
  split
  · exact herror g₂ _ _ _
  rcases hdraw : r.draw with e | newRT
  · exact herror g₂ _ _ _
  obtain ⟨hpre, hstored⟩ := hfound sess g₂ hg₂
    ⟨newRT, sess.id, sess.usid, sess.channel, some now, some (now + deps.refreshTTL)⟩ hdraw rfl
  refine ⟨hpre, ?_⟩
  rintro (e | _) g₃ hg₃
  · exact herror g₃ _ _ _
  · exact hstored g₃ hg₃ _ rfl

structure Ghost where
  request : Request
  consumed : Bool := false
  stored : Bool := false
  deleted : Bool := false

def Ghost.spend (g : Ghost) : Ghost := { g with consumed := true }

def Ghost.store (g : Ghost) : Ghost := { g with stored := true }

def Ghost.leave (g : Ghost) : Ghost := { g with deleted := true }

def Ghost.after (g : Ghost) : (c : Call) → Answer c → Ghost
  | .consume _, .ok _ => g.spend
  | .putToken _, _ => g.store
  | .deleteSession _, _ => g.leave
  | .now, _ | .consume _, .error _ | .getSession _, _ | .deleteBySID _, _ | .sweepTokens, _
  | .sweepSessions, _ => g

def rules : Rules Call Answer Ghost where
  pre g c := match c with
    | .consume t => g.request.token = some t
    | .putToken t => g.request.draw = some t.token ∧ g.stored = false
    | .deleteSession sid => g.request.session = some sid
    | .now | .getSession _ | .deleteBySID _ | .sweepTokens | .sweepSessions => True
  post g c r g' := g' = g.after c r

def Earned (g : Ghost) (resp : Response) : Prop :=
  (∀ body, resp = .refreshed body → g.consumed = true) ∧
    ∀ broker, resp = .loggedOut broker → g.deleted = true

lemma earned_error (g : Ghost) (status : ℕ) (code message : String) :
    Earned g (.error status code message) := ⟨nofun, nofun⟩

lemma follows_refresh (r : RefreshCall) :
    Follows rules ⟨.refresh r, false, false, false⟩ (refresh deps r) Earned := by
  refine follows_refresh_rule deps r (fun _ => ⟨trivial, fun _ _ hg => hg⟩) earned_error ?_
  intro token hbody
  have htoken : (Request.refresh r).token = some token := by
    show r.body.toOption = some token
    rw [hbody]
    rfl
  refine ⟨htoken, ?_⟩
  rintro old g₁ rfl
  refine ⟨trivial, ?_⟩
  rintro sess g₂ rfl t hdraw -
  have hnew : (Request.refresh r).draw = some t.token := by
    show r.draw.toOption = some t.token
    rw [hdraw]
    rfl
  refine ⟨⟨hnew, rfl⟩, ?_⟩
  rintro g₃ rfl body -
  exact ⟨fun _ _ => rfl, nofun⟩

variable {sid : String}

lemma follows_endSession {g : Ghost} (h : g.request.session = some sid)
    (broker : Option (ℕ × String)) : Follows rules g (endSession sid broker) Earned := by
  refine ⟨h, ?_⟩
  rintro _ g' rfl
  refine ⟨trivial, ?_⟩
  rintro _ g' rfl
  exact ⟨nofun, fun _ _ => rfl⟩

lemma follows_logout (r : LogoutCall) :
    Follows rules ⟨.logout r, false, false, false⟩ (logout deps r) Earned := by
  unfold logout
  split_ifs
  · exact earned_error ..
  · exact earned_error ..
  · rcases r.badBody with _ | e
    · refine ⟨trivial, ?_⟩
      rintro (e | sess) g' rfl
      · exact follows_endSession rfl _
      · exact follows_endSession rfl _
    · exact earned_error ..
  · rcases r.badBody with _ | e
    · exact follows_endSession rfl _
    · exact earned_error ..

lemma follows_handle : ∀ r : Request,
    Follows rules ⟨r, false, false, false⟩ (handle deps r) Earned
  | .refresh r => follows_refresh deps r
  | .logout r => follows_logout deps r
  | .sweepTokens => ⟨trivial, fun _ _ _ => ⟨nofun, nofun⟩⟩
  | .sweepSessions => ⟨trivial, fun _ _ _ => ⟨nofun, nofun⟩⟩

structure Inv (reqs : ι → Request) (s : State) (G : ι → Ghost) : Prop where
  request : ∀ i, (G i).request = reqs i
  spent : ∀ i t, (G i).consumed = true → (reqs i).token = some t → s.tokens.lookup t = none
  once : ∀ i j t, (G i).consumed = true → (G j).consumed = true → (reqs i).token = some t →
    (reqs j).token = some t → i = j
  unborn : ∀ k t, (G k).stored = false → (reqs k).draw = some t →
    s.tokens.lookup t = none ∧ ∀ i, (G i).consumed = true → (reqs i).token ≠ some t
  ended : ∀ i sid, (G i).deleted = true → (reqs i).session = some sid →
    s.sessions.sessions.lookup sid = none

variable {reqs : ι → Request} {s s' : State} {G : ι → Ghost}

omit [DecidableEq ι] in
lemma inv_start (h : DistinctDraws reqs s) :
    Inv reqs s fun i => ⟨reqs i, false, false, false⟩ where
  request _ := rfl
  spent := nofun
  once := nofun
  unborn k t _ hdraw := ⟨h.unstored k t hdraw, nofun⟩
  ended := nofun

omit [DecidableEq ι] in
lemma Inv.shrink (h : Inv reqs s G)
    (htokens : ∀ t, s.tokens.lookup t = none → s'.tokens.lookup t = none)
    (hsessions : ∀ sid, s.sessions.sessions.lookup sid = none →
      s'.sessions.sessions.lookup sid = none) : Inv reqs s' G where
  request := h.request
  spent i t hc ht := htokens t (h.spent i t hc ht)
  once := h.once
  unborn k t hs hd := ⟨htokens t (h.unborn k t hs hd).1, (h.unborn k t hs hd).2⟩
  ended i sid hd hs := hsessions sid (h.ended i sid hd hs)

/-! ## What a step changes -/

section

variable (G) (i j : ι)

lemma update_same {α : Type} (f : Ghost → α) (g : Ghost) (h : f g = f (G i)) :
    f (update G i g j) = f (G j) := by
  by_cases hji : j = i
  · subst hji
    rw [update_self, h]
  · rw [update_of_ne hji]

lemma update_set (f : Ghost → Bool) (g : Ghost) (h : f g = true) :
    f (update G i g j) = true ↔ j = i ∨ f (G j) = true := by
  by_cases hji : j = i
  · subst hji
    rw [update_self]
    exact iff_of_true h (.inl rfl)
  · rw [update_of_ne hji]
    exact (or_iff_right hji).symm

@[simp] lemma request_spend : (update G i (G i).spend j).request = (G j).request :=
  update_same G i j Ghost.request _ rfl

@[simp] lemma consumed_spend :
    (update G i (G i).spend j).consumed = true ↔ j = i ∨ (G j).consumed = true :=
  update_set G i j Ghost.consumed _ rfl

@[simp] lemma stored_spend : (update G i (G i).spend j).stored = (G j).stored :=
  update_same G i j Ghost.stored _ rfl

@[simp] lemma deleted_spend : (update G i (G i).spend j).deleted = (G j).deleted :=
  update_same G i j Ghost.deleted _ rfl

@[simp] lemma request_store : (update G i (G i).store j).request = (G j).request :=
  update_same G i j Ghost.request _ rfl

@[simp] lemma consumed_store : (update G i (G i).store j).consumed = (G j).consumed :=
  update_same G i j Ghost.consumed _ rfl

@[simp] lemma stored_store :
    (update G i (G i).store j).stored = false ↔ j ≠ i ∧ (G j).stored = false := by
  rw [← Bool.not_eq_true, update_set G i j Ghost.stored _ rfl, not_or, Bool.not_eq_true]

@[simp] lemma deleted_store : (update G i (G i).store j).deleted = (G j).deleted :=
  update_same G i j Ghost.deleted _ rfl

@[simp] lemma request_leave : (update G i (G i).leave j).request = (G j).request :=
  update_same G i j Ghost.request _ rfl

@[simp] lemma consumed_leave : (update G i (G i).leave j).consumed = (G j).consumed :=
  update_same G i j Ghost.consumed _ rfl

@[simp] lemma stored_leave : (update G i (G i).leave j).stored = (G j).stored :=
  update_same G i j Ghost.stored _ rfl

@[simp] lemma deleted_leave :
    (update G i (G i).leave j).deleted = true ↔ j = i ∨ (G j).deleted = true :=
  update_set G i j Ghost.deleted _ rfl

end

variable {i : ι}

lemma Inv.consume (h : Inv reqs s G) {t : String} (ht : (reqs i).token = some t)
    {rt : RefreshToken} (hstored : s.tokens.lookup t = some rt)
    (htokens : ∀ t', s.tokens.lookup t' = none → s'.tokens.lookup t' = none)
    (hgone : s'.tokens.lookup t = none) (hsessions : s'.sessions = s.sessions) :
    Inv reqs s' (update G i (G i).spend) := by
  have hnew : ∀ j, (G j).consumed = true → (reqs j).token ≠ some t := by
    intro j hc hj
    exact nomatch hstored.symm.trans (h.spent j t hc hj)
  refine ⟨fun j => (request_spend G i j).trans (h.request j), ?_, ?_, ?_, ?_⟩
  · intro j t' hj ht'
    rcases (consumed_spend G i j).mp hj with rfl | hj
    · obtain rfl := some.inj (ht.symm.trans ht')
      exact hgone
    · exact htokens t' (h.spent j t' hj ht')
  · intro j k t' hj hk htj htk
    rw [consumed_spend] at hj hk
    rcases hj with hji | hj <;> rcases hk with hki | hk
    · exact hji.trans hki.symm
    · subst hji
      exact absurd (htk.trans (htj.symm.trans ht)) (hnew k hk)
    · subst hki
      exact absurd (htj.trans (htk.symm.trans ht)) (hnew j hj)
    · exact h.once j k t' hj hk htj htk
  · intro k t' hs hd
    rw [stored_spend] at hs
    obtain ⟨habsent, hunused⟩ := h.unborn k t' hs hd
    refine ⟨htokens t' habsent, fun j hj hjt => ?_⟩
    rcases (consumed_spend G i j).mp hj with rfl | hj
    · obtain rfl := some.inj (ht.symm.trans hjt)
      exact nomatch hstored.symm.trans habsent
    · exact hunused j hj hjt
  · intro j sid hj hs
    rw [deleted_spend] at hj
    rw [hsessions]
    exact h.ended j sid hj hs

variable {s₀ : State}

lemma Inv.putToken (hdraws : DistinctDraws reqs s₀) (h : Inv reqs s G) {t : String}
    (ht : (reqs i).draw = some t) (hnew : (G i).stored = false)
    (htokens : ∀ t', t' ≠ t → s'.tokens.lookup t' = s.tokens.lookup t')
    (hsessions : s'.sessions = s.sessions) : Inv reqs s' (update G i (G i).store) := by
  have hunused := (h.unborn i t hnew ht).2
  refine ⟨fun j => (request_store G i j).trans (h.request j), ?_, ?_, ?_, ?_⟩
  · intro j t' hj ht'
    rw [consumed_store] at hj
    have hne : t' ≠ t := fun heq => hunused j hj (heq ▸ ht')
    rw [htokens t' hne]
    exact h.spent j t' hj ht'
  · intro j k t' hj hk
    rw [consumed_store] at hj hk
    exact h.once j k t' hj hk
  · intro k t' hs hd
    obtain ⟨hki, hs⟩ := (stored_store G i k).mp hs
    obtain ⟨habsent, hk⟩ := h.unborn k t' hs hd
    have hne : t' ≠ t := fun heq => hki (hdraws.apart k i t (heq ▸ hd) ht)
    refine ⟨(htokens t' hne).trans habsent, fun j hj => ?_⟩
    rw [consumed_store] at hj
    exact hk j hj
  · intro j sid hj hs
    rw [deleted_store] at hj
    rw [hsessions]
    exact h.ended j sid hj hs

lemma Inv.deleteSession (h : Inv reqs s G) (hsid : (reqs i).session = some sid) :
    Inv reqs { s with sessions := s.sessions.delete sid } (update G i (G i).leave) := by
  refine ⟨fun j => (request_leave G i j).trans (h.request j), ?_, ?_, ?_, ?_⟩
  · intro j t hj
    rw [consumed_leave] at hj
    exact h.spent j t hj
  · intro j k t hj hk
    rw [consumed_leave] at hj hk
    exact h.once j k t hj hk
  · intro k t hs hd
    rw [stored_leave] at hs
    refine ⟨(h.unborn k t hs hd).1, fun j hj => ?_⟩
    rw [consumed_leave] at hj
    exact (h.unborn k t hs hd).2 j hj
  · intro j sid' hj hs
    rcases (deleted_leave G i j).mp hj with rfl | hj
    · obtain rfl := some.inj (hsid.symm.trans hs)
      exact lookup_delete_self _
    · exact lookup_delete (h.ended j sid' hj hs) sid

lemma Inv.call (hdraws : DistinctDraws reqs s₀) (h : Inv reqs s G) (x : ι × ℤ) (c : Call)
    (hpre : rules.pre (G x.1) c) :
    Inv reqs (stores x s c).1 (update G x.1 ((G x.1).after c (stores x s c).2)) := by
  have hsame : ∀ {s' : State}, (∀ t, s.tokens.lookup t = none → s'.tokens.lookup t = none) →
      (∀ sid, s.sessions.sessions.lookup sid = none → s'.sessions.sessions.lookup sid = none) →
        Inv reqs s' (update G x.1 (G x.1)) := by
    intro s' ht hs
    rw [update_eq_self]
    exact h.shrink ht hs
  have hrequest := h.request x.1
  cases c with
  | now => exact hsame (fun _ ht => ht) fun _ hs => hs
  | consume t =>
    have hlost : ∀ t', s.tokens.lookup t' = none →
        (s.tokens.consume x.2 t).1.lookup t' = none := fun _ ht' => Tokens.lookup_consume ht' x.2 t
    show Inv reqs ⟨(s.tokens.consume x.2 t).1, s.sessions⟩
      (update G x.1 ((G x.1).after (.consume t) (s.tokens.consume x.2 t).2))
    rcases hanswer : (s.tokens.consume x.2 t).2 with e | rt
    · exact hsame hlost fun _ hs => hs
    · obtain ⟨hstored, hgone⟩ := Tokens.consume_ok hanswer
      exact h.consume (hrequest ▸ hpre) hstored hlost hgone rfl
  | getSession id => exact hsame (fun _ ht => ht) fun _ hs => lookup_get hs x.2 id
  | putToken t =>
    exact h.putToken hdraws (hrequest ▸ hpre.1) hpre.2 (fun _ => Tokens.lookup_put) rfl
  | deleteSession sid => exact h.deleteSession (hrequest ▸ hpre)
  | deleteBySID sid => exact hsame (fun _ ht => Tokens.lookup_deleteBySID ht sid) fun _ hs => hs
  | sweepTokens => exact hsame (fun _ ht => Tokens.lookup_sweepOnce ht x.2) fun _ hs => hs
  | sweepSessions => exact hsame (fun _ ht => ht) fun _ hs => lookup_sweepOnce hs x.2

def NotFound (sid : String) : (c : Call) → Answer c → Prop
  | .getSession _, .ok sess => sess.id ≠ sid
  | _, _ => True

def goneRules (sid : String) : Rules Call Answer Bool where
  pre _ _ := True
  post g c r g' := g' = g ∧ NotFound sid c r

def NotRefreshed (sid : String) (g : Bool) (resp : Response) : Prop :=
  g = true → ∀ body, resp = .refreshed body → body.sid ≠ sid

lemma notRefreshed_error (sid : String) (g : Bool) (status : ℕ) (code message : String) :
    NotRefreshed sid g (.error status code message) := fun _ => nofun

lemma follows_others (sid : String) :
    ∀ p : Prog Call Answer Response, Follows (goneRules sid) false p (NotRefreshed sid)
  | .ret _ => nofun
  | .call _ k => ⟨trivial, fun r _ hg => hg.1 ▸ follows_others sid (k r)⟩

lemma follows_gone (sid : String) (deps : Deps) (r : RefreshCall) :
    Follows (goneRules sid) true (refresh deps r) (NotRefreshed sid) := by
  refine follows_refresh_rule deps r (fun _ => ⟨trivial, fun _ _ hg => hg.1⟩)
    (notRefreshed_error sid) fun token _ => ⟨trivial, fun old g₁ _ => ⟨trivial, ?_⟩⟩
  rintro sess g₂ ⟨-, hsess⟩ t - -
  refine ⟨trivial, fun g₃ _ body hbody _ body' hbody' => ?_⟩
  obtain rfl := Response.refreshed.inj hbody'
  rw [hbody]
  exact hsess

lemma lookup_serve (h : s.sessions.sessions.lookup sid = none) (now : ℤ) (c : Call) :
    (serve now s c).1.sessions.sessions.lookup sid = none := by
  cases c with
  | getSession id => exact lookup_get h now id
  | deleteSession id => exact lookup_delete h id
  | sweepSessions => exact lookup_sweepOnce h now
  | now | consume | putToken | deleteBySID | sweepTokens => exact h

lemma notFound_serve (h : s.sessions.sessions.lookup sid = none) (now : ℤ) (c : Call) :
    NotFound sid c (serve now s c).2 := by
  cases c with
  | getSession id =>
    show NotFound sid (.getSession id) (s.sessions.get now id).2
    rcases hget : (s.sessions.get now id).2 with e | sess
    · trivial
    · rintro rfl
      cases h.symm.trans (get_ok hget)
  | now | consume | putToken | deleteSession | deleteBySID | sweepTokens | sweepSessions => trivial

variable {deps : Deps} {p p' : Pool Call Answer State ι Response} {xs : List (ι × ℤ)}

lemma reachable_inv (hdraws : DistinctDraws reqs s₀)
    (hrun : run (turn stores) (start deps reqs s₀) xs = some p) :
    ∃ G, Inv reqs p.shared G ∧ ∀ i, Follows rules (G i) (p.thread i) Earned :=
  pool_invariant_always stores (Inv reqs) (fun _ _ x c h hpre => ⟨_, rfl, h.call hdraws x c hpre⟩)
    (inv_start hdraws) (fun i => follows_handle deps (reqs i)) hrun

lemma not_refreshed_of_gone (hgone : p.shared.sessions.sessions.lookup sid = none)
    {r : RefreshCall} (hthread : p.thread i = refresh deps r)
    (hrun : run (turn stores) p xs = some p') {body : RefreshResponse}
    (hbody : p'.thread i = .ret (.refreshed body)) : body.sid ≠ sid := by
  have hfollows : ∀ j,
      Follows (goneRules sid) (decide (j = i)) (p.thread j) (NotRefreshed sid) := by
    intro j
    by_cases hji : j = i
    · subst hji
      rw [decide_eq_true rfl, hthread]
      exact follows_gone sid deps r
    · rw [decide_eq_false hji]
      exact follows_others sid _
  -- no call brings the session back, and the ghost values do not change
  let Gone : State → (ι → Bool) → Prop := fun s G =>
    s.sessions.sessions.lookup sid = none ∧ ∀ j, G j = decide (j = i)
  have hcall : ∀ s G (x : ι × ℤ) c, Gone s G → (goneRules sid).pre (G x.1) c →
      ∃ g', (goneRules sid).post (G x.1) c (stores x s c).2 g' ∧
        Gone (stores x s c).1 (update G x.1 g') := by
    intro s G x c h _
    refine ⟨G x.1, ⟨rfl, notFound_serve h.1 x.2 c⟩, lookup_serve h.1 x.2 c, ?_⟩
    rw [update_eq_self]
    exact h.2
  obtain ⟨G, ⟨-, hG⟩, hend⟩ :=
    pool_invariant_always stores Gone hcall ⟨hgone, fun _ => rfl⟩ hfollows hrun
  have hi := hend i
  rw [hbody, hG i] at hi
  exact hi (decide_eq_true rfl) body rfl

/-- **Refresh tokens are single use and die with the session**, in every interleaving of any number
of refreshes and logouts. -/
theorem refresh_once_until_logout {s₀ : State} (hdraws : DistinctDraws reqs s₀)
    {xs : List (ι × ℤ)} (hrun : Transition.run (turn stores) (start deps reqs s₀) xs = some p) :
    (∀ i j token body body', (reqs i).token = some token → (reqs j).token = some token →
      p.thread i = .ret (.refreshed body) → p.thread j = .ret (.refreshed body') → i = j) ∧
    ∀ j sid broker, (reqs j).session = some sid → p.thread j = .ret (.loggedOut broker) →
      ∀ i r, p.thread i = refresh deps r → ∀ ys p',
        Transition.run (turn stores) p ys = some p' →
          ∀ body, p'.thread i = .ret (.refreshed body) → body.sid ≠ sid := by
  obtain ⟨G, hinv, hfollows⟩ := reachable_inv hdraws hrun
  constructor
  · intro i j token body body' hi hj hbody hbody'
    have hci := hfollows i
    have hcj := hfollows j
    rw [hbody] at hci
    rw [hbody'] at hcj
    exact hinv.once i j token (hci.1 body rfl) (hcj.1 body' rfl) hi hj
  · intro j sid broker hj hanswer i r hthread ys p' hrun' body hbody
    have hcj := hfollows j
    rw [hanswer] at hcj
    have hgone := hinv.ended j sid (hcj.2 broker rfl) hj
    exact not_refreshed_of_gone hgone hthread hrun' hbody

def refreshOf (token newRT : String) : Request :=
  .refresh ⟨.ok token, some fun _ => .ok "jwt", .ok newRT⟩

/-- Two refreshes of the token `a`, a logout of the session `s`, and a refresh of the token `b`. -/
def racing : Fin 4 → Request
  | 0 => refreshOf "a" "b"
  | 1 => refreshOf "a" "c"
  | 2 => .logout ⟨"kim", "s", none, none, false, none⟩
  | 3 => refreshOf "b" "d"

def loggedIn : State where
  tokens := (∅ : Tokens).insert "a" ⟨"a", "s", "kim", "WEB", some 0, none⟩
  sessions := MemoryStore.new.put ⟨"s", "kim", "WEB", "", none⟩

/-- The first refresh has found the session when the logout comes, and stores `b` after it. -/
def race : List (Fin 4 × ℤ) := [0, 1, 0, 0, 2, 2, 0].map fun i => (i, 1)

theorem race_refresh_once : ∃ p : Pool Call Answer State (Fin 4) Response,
    Transition.run (turn stores) (start ⟨0, 0, false⟩ racing loggedIn) race = some p ∧
      (p.shared.tokens.lookup "b").isSome ∧ (∃ body, p.thread 0 = .ret (.refreshed body)) ∧
      p.thread 2 = .ret (.loggedOut none) ∧
      (∀ i body, (racing i).token = some "a" → p.thread i = .ret (.refreshed body) → i = 0) ∧
      ∀ ys p', Transition.run (turn stores) p ys = some p' →
        ∀ body, p'.thread 3 = .ret (.refreshed body) → body.sid ≠ "s" := by
  have happart : ∀ i j, (racing i).draw = (racing j).draw → (racing i).draw ≠ none → i = j := by
    decide +kernel
  have hunstored : ∀ i, (racing i).draw.bind (fun t => loggedIn.tokens.lookup t) = none := by
    decide +kernel
  have hdraws : DistinctDraws racing loggedIn := by
    refine ⟨fun i j t hi hj => happart i j (hi.trans hj.symm) ?_, fun i t hi => ?_⟩
    · rw [hi]
      exact some_ne_none t
    · have h := hunstored i
      rwa [hi] at h
  obtain ⟨p, hrun, hb, ⟨body₀, hfirst⟩, hlogout, hlast⟩ :
      ∃ p : Pool Call Answer State (Fin 4) Response,
        run (turn stores) (start ⟨0, 0, false⟩ racing loggedIn) race = some p ∧
          (p.shared.tokens.lookup "b").isSome ∧ (∃ body, p.thread 0 = .ret (.refreshed body)) ∧
          p.thread 2 = .ret (.loggedOut none) ∧
          p.thread 3 = refresh ⟨0, 0, false⟩ ⟨.ok "b", some fun _ => .ok "jwt", .ok "d"⟩ :=
    ⟨_, rfl, rfl, ⟨_, rfl⟩, rfl, rfl⟩
  obtain ⟨honce, hafter⟩ := refresh_once_until_logout hdraws hrun
  refine ⟨p, hrun, hb, ⟨body₀, hfirst⟩, hlogout, ?_, ?_⟩
  · intro i body hi hbody
    exact honce i 0 "a" body body₀ hi rfl hbody hfirst
  · exact hafter 2 "s" none rfl hlogout 3 _ hlast

end Wtg.Api.Refresh
