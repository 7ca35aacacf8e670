import Wtg.Api.Authentication

/-! # Identities through the edge

The reverse proxy of `mci-edge-api` (`internal/edge/api/server.go`) in front of `mci-api`. -/

namespace Wtg.Edge.Proxy

open Lib Api.Authentication Headers

def ingressHeaders : List String :=
  ["X-Forwarded-For", "X-Real-IP", "X-Forwarded-Proto", "Authorization", "Cookie",
    headerEdgeUser, headerEdgeChannel, headerEdgeSID]

def stripIngressHeaders (h : Headers) : Headers := h.delAll ingressHeaders

structure Context where
  principal : Option Principal
  requestID : String
  traceparent : Option String
  host : String

def injectPrincipal (h : Headers) : Option Principal → Headers
  | none => h
  | some p =>
    let h := (h.set headerEdgeUser p.usid).set headerEdgeChannel p.channel
    if p.sessionID ≠ "" then h.set headerEdgeSID p.sessionID else h

def propagate (ctx : Context) (h : Headers) : Headers :=
  let h := if ctx.requestID ≠ "" then h.set "X-Request-ID" ctx.requestID else h
  let h := ctx.traceparent.elim h fun value => h.set "traceparent" value
  h.set "X-Forwarded-Host" ctx.host

def director (ctx : Context) (h : Headers) : Headers :=
  propagate ctx (injectPrincipal (stripIngressHeaders h) ctx.principal)

def hopHeaders : List String :=
  ["Connection", "Proxy-Connection", "Keep-Alive", "Proxy-Authenticate", "Proxy-Authorization",
    "Te", "Trailer", "Transfer-Encoding", "Upgrade"]

def connectionNames (trim : String → String) (h : Headers) : List String :=
  ((h.values "Connection").flatMap fun value => (value.splitOn ",").map trim).filter (· ≠ "")

def removeHopByHopHeaders (trim : String → String) (h : Headers) : Headers :=
  (h.delAll (connectionNames trim h)).delAll hopHeaders

inductive Own
  | te
  | connection
  | upgrade
  | forwardedFor
  | userAgent
  deriving DecidableEq

def Own.name : Own → String
  | .te => "Te"
  | .connection => "Connection"
  | .upgrade => "Upgrade"
  | .forwardedFor => "X-Forwarded-For"
  | .userAgent => "User-Agent"

def outgoing (trim : String → String) (own : List (Own × String)) (ctx : Context) (h : Headers) :
    Headers :=
  own.foldl (fun h o => h.set o.1.name o.2) (removeHopByHopHeaders trim (director ctx h))

/-- The edge: the texts and paths it rests on, and the verifier of access tokens. -/
structure EdgeServer where
  strings : Strings
  trim : String → String
  cleanPath : String → String
  upstreamPath : String → String
  verify : Verifier

/-- What else surrounds a request: the request id, the trace, the host, and what the proxy sets by
itself. -/
structure Surroundings where
  requestID : String
  traceparent : Option String
  host : String
  own : List (Own × String)

inductive Answer
  | refused (e : AuthErr)
  | redirected
  | ping
  | metrics
  | unauthorized (message : String)
  | forwarded (req : Request)
  deriving DecidableEq

def authBootstrapPath (path : String) : Bool := path = "/v1/login" || path = "/v1/refresh"

namespace EdgeServer

variable (E : EdgeServer) (sur : Surroundings)

def authConfig : AuthConfig := { jwtVerifier := some E.verify }

def forward (p : Option Principal) (req : Request) : Request where
  method := req.method
  path := E.upstreamPath req.path
  header := outgoing E.trim sur.own ⟨p, sur.requestID, sur.traceparent, sur.host⟩ req.header

def proxyHandler (p : Option Principal) (req : Request) : Answer :=
  if p.all (fun p => p.usid = "") && !authBootstrapPath req.path then .unauthorized "인증 필요"
  else .forwarded (E.forward sur p req)

def route (p : Option Principal) (req : Request) : Answer :=
  if req.method ≠ "CONNECT" ∧ E.cleanPath req.path ≠ req.path then .redirected
  else if req.method ∈ ["GET", "HEAD"] ∧ req.path = "/v1/ping" then .ping
  else if req.method ∈ ["GET", "HEAD"] ∧ req.path = "/metrics" then .metrics
  else E.proxyHandler sur p req

def handle (client : Request) : Answer :=
  let req := { client with header := client.header.read }
  match auth E.strings E.authConfig req with
  | .error e => .refused e
  | .ok p => E.route sur p req

def verified (client : Request) : Option Claims :=
  if isPublicPath client.path then none
  else
    match bearerToken E.strings client.header.read with
    | .error _ => none
    | .ok tok => (E.verify tok).toOption

end EdgeServer

/-- `mci-api` behind the edge: the principal of a forwarded request, if it is accepted. -/
def apiAuth (S : Strings) (store : Option Lookup) (fwd : Request) :
    Except AuthErr (Option Principal) :=
  auth S { trustEdgeHeaders := true, sessionStore := store }
    { fwd with header := fwd.header.read }

/-! ## The headers that are sent on -/

section

variable {ctx : Context} {h : Headers} {trim : String → String} {own : List (Own × String)}

lemma isCanonical_injectPrincipal (hc : h.IsCanonical) (p : Option Principal) :
    (injectPrincipal h p).IsCanonical := by
  rcases p with _ | p
  · exact hc
  · unfold injectPrincipal
    dsimp only
    split_ifs
    · exact ((hc.set _ _).set _ _).set _ _
    · exact (hc.set _ _).set _ _

lemma isCanonical_propagate (hc : h.IsCanonical) : (propagate ctx h).IsCanonical := by
  unfold propagate
  rcases ctx.traceparent with _ | value
  · dsimp only [Option.elim]
    split_ifs
    · exact (hc.set _ _).set _ _
    · exact hc.set _ _
  · dsimp only [Option.elim]
    split_ifs
    · exact ((hc.set _ _).set _ _).set _ _
    · exact (hc.set _ _).set _ _

lemma isCanonical_own : ∀ (own : List (Own × String)) {h : Headers}, h.IsCanonical →
    Headers.IsCanonical (own.foldl (fun h o => h.set o.1.name o.2) h)
  | [], _, hc => hc
  | _ :: own, _, hc => isCanonical_own own (hc.set _ _)

lemma isCanonical_outgoing (hc : h.IsCanonical) : (outgoing trim own ctx h).IsCanonical :=
  isCanonical_own own
    (((isCanonical_propagate (isCanonical_injectPrincipal (hc.delAll _) _)).delAll _).delAll _)

lemma get_propagate (ctx : Context) (h : Headers) :
    (propagate ctx h).get headerEdgeSID = h.get headerEdgeSID := by
  have hid : canonical headerEdgeSID ≠ canonical "X-Request-ID" := by decide +kernel
  have htrace : canonical headerEdgeSID ≠ canonical "traceparent" := by
    decide +kernel
  have hhost : canonical headerEdgeSID ≠ canonical "X-Forwarded-Host" := by
    decide +kernel
  unfold propagate
  dsimp only
  rw [get_set_of_ne hhost]
  rcases ctx.traceparent with _ | value
  · dsimp only [Option.elim]
    split_ifs
    · exact get_set_of_ne hid
    · rfl
  · dsimp only [Option.elim]
    rw [get_set_of_ne htrace]
    split_ifs
    · exact get_set_of_ne hid
    · rfl

lemma get_director (ctx : Context) (h : Headers) :
    (director ctx h).get headerEdgeSID = (ctx.principal.map Principal.sessionID).getD "" := by
  have huser : canonical headerEdgeSID ≠ canonical headerEdgeUser := by
    decide +kernel
  have hchannel : canonical headerEdgeSID ≠ canonical headerEdgeChannel := by
    decide +kernel
  have hstrip : (stripIngressHeaders h).get headerEdgeSID = "" :=
    get_delAll_of_mem (by simp [ingressHeaders]) h
  rw [director, get_propagate]
  rcases ctx.principal with _ | p
  · exact hstrip
  · unfold injectPrincipal
    dsimp only
    split_ifs with hsid
    · exact get_set_self ..
    · rw [get_set_of_ne hchannel, get_set_of_ne huser, hstrip]
      exact (not_not.mp hsid).symm

lemma get_own : ∀ (own : List (Own × String)) (h : Headers),
    get (own.foldl (fun h o => h.set o.1.name o.2) h) headerEdgeSID = h.get headerEdgeSID
  | [], _ => rfl
  | (o, value) :: own, h => by
    have hne : canonical headerEdgeSID ≠ canonical o.name := by
      cases o <;> decide +kernel
    exact (get_own own _).trans (get_set_of_ne hne)

lemma get_outgoing (trim : String → String) (own : List (Own × String)) (ctx : Context)
    (h : Headers) :
    (outgoing trim own ctx h).get headerEdgeSID = (ctx.principal.map Principal.sessionID).getD "" ∨
      (outgoing trim own ctx h).get headerEdgeSID = "" := by
  rw [outgoing, get_own, removeHopByHopHeaders, ← get_director ctx h]
  rcases get_delAll hopHeaders
    ((director ctx h).delAll (connectionNames trim (director ctx h))) headerEdgeSID with hhop | hhop
  · rcases get_delAll (connectionNames trim (director ctx h)) (director ctx h)
      headerEdgeSID with hcon | hcon
    · exact .inl (hhop.trans hcon)
    · exact .inr (hhop.trans hcon)
  · exact .inr hhop

end

/-! ## Identities -/

section

variable {E : EdgeServer} {sur : Surroundings} {client fwd : Request}

lemma auth_edge_cases {p : Option Principal}
    (h : auth E.strings E.authConfig { client with header := client.header.read } = .ok p) :
    isPublicPath client.path = true ∧ p = none ∨
      ∃ c, E.verified client = some c ∧ p = some (principalFromClaims c) := by
  unfold auth at h
  by_cases hpublic : isPublicPath client.path = true
  · rw [if_pos hpublic] at h
    cases h
    exact .inl ⟨hpublic, rfl⟩
  · rw [if_neg hpublic] at h
    rcases hauth : authenticate E.strings E.authConfig client.header.read with e | p'
    · rw [hauth] at h
      cases h
    · rw [hauth] at h
      cases h
      have hjwt : authenticateJWT E.strings E.verify none client.header.read = .ok p' := hauth
      obtain ⟨tok, c, htok, hc, rfl⟩ := authenticateJWT_eq_ok hjwt
      refine .inr ⟨c, ?_, rfl⟩
      unfold EdgeServer.verified
      rw [if_neg hpublic, htok]
      simp [hc, Except.toOption]

lemma handle_eq_forwarded (h : E.handle sur client = .forwarded fwd) :
    ∃ p, auth E.strings E.authConfig { client with header := client.header.read } = .ok p ∧
      fwd = E.forward sur p { client with header := client.header.read } ∧
      (p = none → authBootstrapPath client.path = true) := by
  unfold EdgeServer.handle at h
  dsimp only at h
  rcases hauth : auth E.strings E.authConfig { client with header := client.header.read } with e | p
  · rw [hauth] at h
    cases h
  · rw [hauth] at h
    simp only [EdgeServer.route, EdgeServer.proxyHandler] at h
    split_ifs at h with _ _ _ hbad
    cases h
    refine ⟨p, rfl, rfl, fun hp => ?_⟩
    subst hp
    simpa using hbad

lemma get_forward (sur : Surroundings) (p : Option Principal) (req : Request)
    (hc : req.header.IsCanonical) :
    (E.forward sur p req).header.read.get headerEdgeSID =
        (p.map Principal.sessionID).getD "" ∨
      (E.forward sur p req).header.read.get headerEdgeSID = "" := by
  have hread : (E.forward sur p req).header.read = (E.forward sur p req).header :=
    read_eq_self (isCanonical_outgoing hc)
  rw [hread]
  exact get_outgoing ..

lemma apiAuth_eq_some {S : Strings} {store : Option Lookup} {p : Principal}
    (h : apiAuth S store fwd = .ok (some p)) :
    fwd.header.read.get headerEdgeSID ≠ "" ∧ ∃ get sess, store = some get ∧
      get (fwd.header.read.get headerEdgeSID) = .ok sess ∧ p = principalFromSession sess := by
  unfold apiAuth auth at h
  by_cases hpublic : isPublicPath fwd.path = true
  · rw [if_pos hpublic] at h
    cases h
  rw [if_neg hpublic] at h
  have hedge : (authenticateEdgeHeaders store fwd.header.read).map some = .ok (some p) := h
  rcases hauth : authenticateEdgeHeaders store fwd.header.read with e | p'
  · rw [hauth] at hedge
    cases hedge
  · rw [hauth] at hedge
    cases hedge
    exact authenticateEdgeHeaders_eq_ok hauth

/-- **An identity cannot be forged through the edge**: who is authenticated behind it has the
session of the claims that the edge has verified. -/
theorem not_forged (E : EdgeServer) (sur : Surroundings) (S : Strings) (store : Option Lookup)
    (client fwd : Request) (hfwd : E.handle sur client = .forwarded fwd) :
    (∀ p, apiAuth S store fwd = .ok (some p) →
      ∃ c get sess, E.verified client = some c ∧ store = some get ∧ get c.sid = .ok sess ∧
        p = principalFromSession sess) ∧
    (E.verified client = none → client.path = "/v1/login" ∨ client.path = "/v1/refresh") := by
  obtain ⟨user, hauth, rfl, hbootstrap⟩ := handle_eq_forwarded hfwd
  have hcanonical : client.header.read.IsCanonical := isCanonical_read _
  have hsession := get_forward (E := E) sur user { client with header := client.header.read }
    hcanonical
  refine ⟨fun p hp => ?_, fun hnone => ?_⟩
  · -- what `mci-api` reads is what the edge has set, and the edge sets what it has verified
    obtain ⟨hsid, get, sess, hstore, hget, rfl⟩ := apiAuth_eq_some hp
    rcases hsession with heq | hempty
    · rcases auth_edge_cases hauth with ⟨-, rfl⟩ | ⟨c, hc, rfl⟩
      · exact absurd heq hsid
      · rw [heq] at hget
        exact ⟨c, get, sess, hc, hstore, hget, rfl⟩
    · exact absurd hempty hsid
  · rcases auth_edge_cases hauth with ⟨-, rfl⟩ | ⟨c, hc, rfl⟩
    · simpa [authBootstrapPath] using hbootstrap rfl
    · rw [hnone] at hc
      cases hc

end

/-! ## A forger -/

def oneToken : EdgeServer where
  strings := ⟨id, id⟩
  trim := id
  cleanPath := id
  upstreamPath := id
  verify tok := if tok = "t" then .ok { sid := "s1", usid := "u1", exp := 0 }
    else .error (.invalid "")

def twoSessions : Lookup := fun id =>
  if id = "s1" ∨ id = "s2" then
    .ok ⟨id, "u1", "WEB", none, "", "", none, none, none, ⟨"WEB", "", ""⟩, ""⟩
  else .error (.session .notFound)

def noSurroundings : Surroundings := ⟨"", none, "", []⟩

def forger : Request where
  method := "POST"
  path := "/v1/tx"
  header := [("x-wtg-sid", "s2"), ("Authorization", "Bearer t"), ("X-Wtg-SID", "s2")]

def unforged : Request where
  method := "POST"
  path := "/v1/tx"
  header := [("X-Wtg-User", "u1"), ("X-Wtg-Channel", ""), ("X-Wtg-Sid", "s1"),
    ("X-Forwarded-Host", "")]

theorem not_forged_forger :
    (apiAuth ⟨id, id⟩ (some twoSessions) unforged).toOption.join.map Principal.sessionID =
      some "s1" ∧
    ∀ p, apiAuth ⟨id, id⟩ (some twoSessions) unforged = .ok (some p) →
      ∃ c get sess, oneToken.verified forger = some c ∧ some twoSessions = some get ∧
        get c.sid = .ok sess ∧ p = principalFromSession sess := by
  have hfwd : oneToken.handle noSurroundings forger = .forwarded unforged := by decide +kernel
  exact ⟨by decide +kernel, (not_forged _ _ _ _ _ _ hfwd).1⟩

end Wtg.Edge.Proxy
