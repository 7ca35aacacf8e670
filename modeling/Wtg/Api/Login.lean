import Wtg.Api.Http

/-! # Login and logout frames

What `Login` (`internal/api/handlers/login.go`, with one LOGON transaction: no chain and no
validating service) and `Logout` (`logout.go`) hand to the broker. -/

namespace Wtg.Api.Login

open Svcio Api.Frames

structure LoginRequest where
  exchange : String := ""
  routingKey : String := ""
  channel : String := ""
  data : Wire.Bytes := []
  header : Wire.Object := []

structure LogoutRequest where
  exchange : String := ""
  routingKey : String := ""
  data : Wire.Bytes := []

def defaultLoginExchange : String := "ADMIN"

def defaultLoginRoutingKey : String := "LOGON"

def defaultLogoutExchange : String := "ADMIN"

def defaultLogoutRoutingKey : String := "LOGOFF"

def orElse (s other : String) : String := if s = "" then other else s

lemma orElse_eq_right {s other : String} : orElse s other = other ↔ s = "" ∨ s = other := by
  unfold orElse
  by_cases h : s = ""
  · simp [h]
  · simp [h]

structure Server where
  deps : Deps
  /-- a session store is configured -/
  sessions : Bool
  defaultChannel : String

structure Caller where
  principal : Principal
  sessionID : String

/-! ## Login and logout -/

variable (W : World) (srv : Server)

def LoginRequest.channelFor (req : LoginRequest) : String :=
  orElse (orElse req.channel srv.defaultChannel) "WEB"

def loginBody (routingKey channel : String) (req : LoginRequest) : Wire.Bytes :=
  match wireBuildBody W srv.deps.svcio routingKey "" channel req.header req.data with
  | some (b :: bs, _) => b :: bs
  | _ => dataBytes W.enc req.data

def LoginRequest.frame (req : LoginRequest) : Frame where
  keyc := .send
  xchg := orElse req.exchange defaultLoginExchange
  rkey := orElse req.routingKey defaultLoginRoutingKey
  traceIDHex := ""
  pkey := ""
  nkey := ""
  cookie := none
  body := loginBody W srv (orElse req.routingKey defaultLoginRoutingKey) (req.channelFor srv) req

def login (body : Except String LoginRequest) : Except Failure Frame :=
  if srv.sessions then
    match body with
    | .error text => .error ⟨400, "bad_json", text⟩
    | .ok req => .ok (req.frame W srv)
  else .error ⟨503, "no_session_store", "세션 저장소가 구성되지 않음 — 운영 인증 비활성"⟩

def LogoutRequest.frame (req : LogoutRequest) (cookie : Mymq.Codec.Cookie) : Frame where
  keyc := .send
  xchg := orElse req.exchange defaultLogoutExchange
  rkey := orElse req.routingKey defaultLogoutRoutingKey
  traceIDHex := ""
  pkey := ""
  nkey := ""
  cookie := some cookie
  body := req.data

def logout (caller : Option Caller) (contentLength : ℤ) (body : Except String LogoutRequest) :
    Except Failure (Option Frame) :=
  if srv.sessions then
    match caller with
    | none => .error ⟨401, "unauthorized", "인증되지 않은 요청"⟩
    | some c =>
      if c.sessionID = "" then
        .error ⟨400, "no_session", "DevMode 또는 비-세션 인증으로는 logout 할 수 없음"⟩
      else
        match if 0 < contentLength then body else .ok {} with
        | .error text => .error ⟨400, "bad_json", text⟩
        | .ok req => .ok (c.principal.cookie.map req.frame)
  else .error ⟨503, "no_session_store", "세션 저장소가 구성되지 않음"⟩

lemma login_eq_ok {body : Except String LoginRequest} {frame : Frame} :
    login W srv body = .ok frame ↔
      srv.sessions = true ∧ ∃ req, body = .ok req ∧ frame = req.frame W srv := by
  unfold login
  rcases hs : srv.sessions with _ | _
  · simp
  · rcases body with text | req
    · simp
    · simp [eq_comm]

lemma logout_eq_ok {caller : Option Caller} {contentLength : ℤ}
    {body : Except String LogoutRequest} {frame : Frame} :
    logout srv caller contentLength body = .ok (some frame) ↔
      srv.sessions = true ∧ ∃ c cookie req, caller = some c ∧ c.sessionID ≠ "" ∧
        c.principal.cookie = some cookie ∧
        (if 0 < contentLength then body else .ok {}) = .ok req ∧ frame = req.frame cookie := by
  unfold logout
  rcases hs : srv.sessions with _ | _
  · simp
  · rcases caller with _ | c
    · simp
    · by_cases hid : c.sessionID = ""
      · simp [hid]
      · rcases (if 0 < contentLength then body else .ok {}) with text | req
        · simp [hid]
        · rcases hcookie : c.principal.cookie with _ | cookie
          · simp [hid, hcookie]
          · simp only [if_true, hid, if_false, hcookie, Option.map_some]
            constructor
            · intro h
              cases h
              exact ⟨trivial, c, cookie, req, rfl, hid, hcookie, rfl, rfl⟩
            · rintro ⟨-, _, cookie', req', hc, -, hcookie', hreq, rfl⟩
              obtain rfl := Option.some.inj hc
              rw [hcookie] at hcookie'
              cases hcookie'
              cases hreq
              rfl

end Wtg.Api.Login
