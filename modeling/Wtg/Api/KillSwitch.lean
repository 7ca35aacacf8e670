import Wtg.Api.Handlers
import Wtg.Api.Login

/-! # The kill switch

The four endpoints of `mci-api` that call the trading engine: `/v1/tx`, `/v1/tx/bulk`, `/v1/login`
(with one LOGON transaction) and `/v1/logout`. -/

namespace Wtg.Api.KillSwitch

open Policy.Operations Svcio Api.Frames Api.Handlers Api.Http Api.Login Option

structure BulkRequest where
  items : List Envelope
  stopOnError : Bool := false

def bulkMaxItems : ℕ := 100

def BulkRequest.refusal (req : BulkRequest) : Option Failure :=
  if req.items = [] then some ⟨400, "empty_items", "items 비어있음"⟩
  else if bulkMaxItems < req.items.length then
    some ⟨400, "too_many_items", "items 개수 한도 초과 (chunk 분할 필요)"⟩
  else none

inductive ClientRequest
  | tx (http : HttpRequest)
  | bulk (body : Wire.Bytes)
  | login (body : Wire.Bytes)
  | logout (contentLength : ℤ) (body : Wire.Bytes)

structure Decoders where
  codec : Codec
  bulk : Wire.Bytes → Option BulkRequest
  login : Wire.Bytes → Except String LoginRequest
  logout : Wire.Bytes → Except String LogoutRequest

/-- What surrounds a request: the time at each policy check, the trace, whether
`reserveIdempotency` has answered, and what the broker says to each call. -/
structure Surroundings where
  now : ℕ → ℤ
  traceIDHex : String
  handled : Bool
  call : ℕ → Frame → Except CallErr Reply

/-! ## What is served -/

section

variable (W : World) (srv : Server) (D : Decoders) (S : Surroundings)

def itemFailed : Except CallErr Reply → Bool
  | .error _ => true
  | .ok reply => reply.errn ≠ 0

def bulkFrames (p : Principal) (stop : Bool) : ℕ → Bool → List Envelope → List Frame
  | _, _, [] => []
  | i, firstErr, env :: envs =>
    if firstErr && stop then bulkFrames p stop (i + 1) firstErr envs
    else
      match processBulkItem W srv.deps (S.now i) p S.traceIDHex env with
      | .error _ => bulkFrames p stop (i + 1) true envs
      | .ok frame =>
        frame :: bulkFrames p stop (i + 1) (firstErr || itemFailed (S.call i frame)) envs

def txFrames (p : Principal) (http : HttpRequest) : List Frame :=
  match accepted D.codec http with
  | none => []
  | some env =>
    if S.handled then []
    else (requestFrame W srv.deps (S.now 0) p S.traceIDHex http env).toOption.toList

def bulkRequestFrames (p : Principal) (body : Wire.Bytes) : List Frame :=
  match D.bulk body with
  | none => []
  | some req =>
    match req.refusal with
    | some _ => []
    | none => if S.handled then [] else bulkFrames W srv S p req.stopOnError 0 false req.items

/-- **The frames handed to `MQ.Call`** while a request is served. -/
def served (caller : Option Caller) : ClientRequest → List Frame
  | .tx http => caller.elim [] fun c => txFrames W srv D S c.principal http
  | .bulk body => caller.elim [] fun c => bulkRequestFrames W srv D S c.principal body
  | .login body => (login W srv (D.login body)).toOption.toList
  | .logout contentLength body =>
    (logout srv caller contentLength (D.logout body)).toOption.join.toList

end

def Stopped (deps : Deps) : Prop :=
  ∃ e, deps.policy = some e ∧ e.state.killSwitch = true ∧ e.state.killSwitchChannels = []

/-! ## Behind the switch -/

section

variable {W : World} {srv : Server} {D : Decoders} {S : Surroundings}

lemma policyFailure_of_stopped {deps : Deps} (h : Stopped deps) (now : ℤ) (p : Principal)
    (env : Envelope) : policyFailure W deps now p env =
      some ⟨503, "kill_switch", "운영 정책으로 모든 거래가 일시 차단됨"⟩ := by
  obtain ⟨e, hpolicy, hon, hall⟩ := h
  have hkill : e.check W.text now (policyRequest W p env) =
      .block .killSwitch "운영 정책으로 모든 거래가 일시 차단됨" := by
    simp [Engine.check, Engine.checkKillSwitch, hon, hall]
  simp only [policyFailure, hpolicy, hkill]
  rfl

lemma frameFor_of_stopped {deps : Deps} (h : Stopped deps) (now : ℤ) (p : Principal)
    (traceIDHex : String) (env : Envelope) :
    ∃ failure, frameFor W deps now p traceIDHex env = .error failure := by
  rcases hframe : frameFor W deps now p traceIDHex env with failure | frame
  · exact ⟨failure, rfl⟩
  · obtain ⟨-, hpolicy, -⟩ := frameFor_eq_ok.mp hframe
    rw [policyFailure_of_stopped h] at hpolicy
    cases hpolicy

lemma txFrames_of_stopped (h : Stopped srv.deps) (p : Principal) (http : HttpRequest) :
    txFrames W srv D S p http = [] := by
  unfold txFrames
  rcases accepted D.codec http with _ | env
  · rfl
  · obtain ⟨failure, hfailure⟩ := frameFor_of_stopped (W := W) h (S.now 0) p S.traceIDHex env
    have hrequest : requestFrame W srv.deps (S.now 0) p S.traceIDHex http env = .error failure := by
      unfold requestFrame transaction
      rw [hfailure]
      split <;> rfl
    simp [hrequest, Except.toOption]

lemma bulkFrames_of_stopped (h : Stopped srv.deps) (p : Principal) (stop : Bool) :
    ∀ (i : ℕ) (firstErr : Bool) (envs : List Envelope),
      bulkFrames W srv S p stop i firstErr envs = []
  | _, _, [] => rfl
  | i, firstErr, env :: envs => by
    obtain ⟨failure, hfailure⟩ := frameFor_of_stopped (W := W) h (S.now i) p S.traceIDHex env
    simp only [bulkFrames, processBulkItem, hfailure]
    split
    · exact bulkFrames_of_stopped h p stop (i + 1) firstErr envs
    · exact bulkFrames_of_stopped h p stop (i + 1) true envs

lemma bulkRequestFrames_of_stopped (h : Stopped srv.deps) (p : Principal) (body : Wire.Bytes) :
    bulkRequestFrames W srv D S p body = [] := by
  unfold bulkRequestFrames
  rcases D.bulk body with _ | req
  · rfl
  · rcases hrefusal : req.refusal with _ | failure
    · simp [hrefusal, bulkFrames_of_stopped h]
    · simp [hrefusal]

end

def builtIn : ClientRequest → Option (String × String)
  | .tx _ | .bulk _ => none
  | .login _ => some (defaultLoginExchange, defaultLoginRoutingKey)
  | .logout .. => some (defaultLogoutExchange, defaultLogoutRoutingKey)

/-- **The request names no target of its own**: a login that is decoded, or a logout that is decoded
and has a session with a cookie, has no exchange and routing key, or the endpoint's own. -/
def NamesNoTarget (srv : Server) (D : Decoders) (caller : Option Caller) : ClientRequest → Prop
  | .tx _ | .bulk _ => True
  | .login body => srv.sessions = true → ∀ req, D.login body = .ok req →
      (req.exchange = "" ∨ req.exchange = defaultLoginExchange) ∧
        (req.routingKey = "" ∨ req.routingKey = defaultLoginRoutingKey)
  | .logout contentLength body => srv.sessions = true →
      ∀ c, caller = some c → c.sessionID ≠ "" → c.principal.cookie ≠ none → 0 < contentLength →
        ∀ req, D.logout body = .ok req →
          (req.exchange = "" ∨ req.exchange = defaultLogoutExchange) ∧
            (req.routingKey = "" ∨ req.routingKey = defaultLogoutRoutingKey)

/-! ## The targets of login and logout -/

section

variable {W : World} {srv : Server} {D : Decoders} {S : Surroundings} {caller : Option Caller}

variable {body : Wire.Bytes}

lemma loginFrame_builtIn {req : LoginRequest} :
    builtIn (.login body) = some ((req.frame W srv).xchg, (req.frame W srv).rkey) ↔
      (req.exchange = "" ∨ req.exchange = defaultLoginExchange) ∧
        (req.routingKey = "" ∨ req.routingKey = defaultLoginRoutingKey) := by
  simp only [builtIn, LoginRequest.frame, some.injEq, Prod.mk.injEq]
  exact and_congr (eq_comm.trans orElse_eq_right) (eq_comm.trans orElse_eq_right)

lemma logoutFrame_builtIn {req : LogoutRequest} {cookie : Mymq.Codec.Cookie} {contentLength : ℤ} :
    builtIn (.logout contentLength body) =
        some ((req.frame cookie).xchg, (req.frame cookie).rkey) ↔
      (req.exchange = "" ∨ req.exchange = defaultLogoutExchange) ∧
        (req.routingKey = "" ∨ req.routingKey = defaultLogoutRoutingKey) := by
  simp only [builtIn, LogoutRequest.frame, some.injEq, Prod.mk.injEq]
  exact and_congr (eq_comm.trans orElse_eq_right) (eq_comm.trans orElse_eq_right)

lemma mem_served_login {frame : Frame} :
    frame ∈ served W srv D S caller (.login body) ↔
      srv.sessions = true ∧ ∃ req, D.login body = .ok req ∧ frame = req.frame W srv := by
  rw [← login_eq_ok]
  change frame ∈ (login W srv (D.login body)).toOption.toList ↔ _
  rcases login W srv (D.login body) with failure | frame' <;> simp [Except.toOption, eq_comm]

lemma mem_served_logout {contentLength : ℤ} {frame : Frame} :
    frame ∈ served W srv D S caller (.logout contentLength body) ↔
      srv.sessions = true ∧ ∃ c cookie req, caller = some c ∧ c.sessionID ≠ "" ∧
        c.principal.cookie = some cookie ∧
        (if 0 < contentLength then D.logout body else .ok {}) = .ok req ∧
        frame = req.frame cookie := by
  rw [← logout_eq_ok]
  change frame ∈ (logout srv caller contentLength (D.logout body)).toOption.join.toList ↔ _
  rcases logout srv caller contentLength (D.logout body) with failure | _ | frame' <;>
    simp [Except.toOption, eq_comm]

/-- **The engine is closed to targets of the client's choice** while the kill switch is on for all
channels, exactly for requests that name no target to login or logout. -/
theorem closed_iff (W : World) (srv : Server) (D : Decoders) (S : Surroundings)
    (caller : Option Caller) (req : ClientRequest) (hstop : Stopped srv.deps) :
    (∀ frame ∈ served W srv D S caller req, builtIn req = some (frame.xchg, frame.rkey)) ↔
      NamesNoTarget srv D caller req := by
  cases req with
  | tx http =>
    refine iff_of_true (fun frame hframe => ?_) trivial
    rcases caller with _ | c
    · cases hframe
    · simp [served, txFrames_of_stopped hstop] at hframe
  | bulk body =>
    refine iff_of_true (fun frame hframe => ?_) trivial
    rcases caller with _ | c
    · cases hframe
    · simp [served, bulkRequestFrames_of_stopped hstop] at hframe
  | login body =>
    constructor
    · intro hall hsessions req hreq
      exact loginFrame_builtIn.mp (hall _ (mem_served_login.mpr ⟨hsessions, req, hreq, rfl⟩))
    · intro hplain frame hframe
      obtain ⟨hsessions, req, hreq, rfl⟩ := mem_served_login.mp hframe
      exact loginFrame_builtIn.mpr (hplain hsessions req hreq)
  | logout contentLength body =>
    constructor
    · intro hall hsessions c hc hid hcookie hlen req hreq
      obtain ⟨cookie, hcookie⟩ := ne_none_iff_exists'.mp hcookie
      refine logoutFrame_builtIn.mp (hall _ (mem_served_logout.mpr
        ⟨hsessions, c, cookie, req, hc, hid, hcookie, ?_, rfl⟩))
      rw [if_pos hlen, hreq]
    · intro hplain frame hframe
      obtain ⟨hsessions, c, cookie, req, hc, hid, hcookie, hreq, rfl⟩ :=
        mem_served_logout.mp hframe
      apply logoutFrame_builtIn.mpr
      by_cases hlen : 0 < contentLength
      · rw [if_pos hlen] at hreq
        exact hplain hsessions c hc hid (by simp [hcookie]) hlen req hreq
      · -- the body is not read, and the request is the empty one
        rw [if_neg hlen] at hreq
        cases hreq
        exact ⟨.inl rfl, .inl rfl⟩

end

/-! ## A stopped server -/

def orderDecoders : Decoders where
  codec := toyCodec
  bulk := fun _ => none
  login := fun body =>
    .ok (if body = [] then {} else { exchange := "TRADE", routingKey := "ORDER", data := body })
  logout := fun _ => .error "bad"

def stoppedServer : Server where
  deps := ⟨some (Engine.setKillSwitch .ascii 0 newEngine true "ops"), none, none⟩
  sessions := true
  defaultChannel := ""

def reconnecting : Surroundings := ⟨fun _ => 0, "", false, fun _ _ => .error .reconnecting⟩

theorem order_as_login :
    (Stopped stoppedServer.deps ∧
      served asciiWorld stoppedServer orderDecoders reconnecting none (.login [7]) =
        [⟨.send, "TRADE", "ORDER", "", "", "", none, [7]⟩]) ∧
    builtIn (.login [7]) = some ("ADMIN", "LOGON") := by
  refine ⟨⟨⟨_, rfl, by decide, by decide⟩, ?_⟩, rfl⟩
  decide +kernel

theorem closed_iff_empty :
    (served asciiWorld stoppedServer orderDecoders reconnecting none (.login [])).length = 1 ∧
    ∀ frame ∈ served asciiWorld stoppedServer orderDecoders reconnecting none (.login []),
      builtIn (.login []) = some (frame.xchg, frame.rkey) := by
  have hstop : Stopped stoppedServer.deps := ⟨_, rfl, by decide, by decide⟩
  refine ⟨by decide +kernel, (closed_iff _ _ _ _ _ _ hstop).mpr ?_⟩
  intro _ req hreq
  cases hreq
  exact ⟨.inl rfl, .inl rfl⟩

end Wtg.Api.KillSwitch
