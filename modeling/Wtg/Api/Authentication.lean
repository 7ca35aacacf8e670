import Wtg.Auth.SessionDocs
import Wtg.Lib.Headers

/-! # The authentication middleware

`Auth` of `internal/api/middleware/auth.go` with all its modes: headers of a developer, headers that
the edge has set, an access token (with or without a session store), and a session id as the bearer
token. -/

namespace Wtg.Api.Authentication

open Lib Auth.Stores Auth.SessionDocs

structure Claims where
  sid : String
  usid : String
  chan : String := ""
  site : String := ""
  tier : String := ""
  iat : ℤ := 0
  exp : ℤ
  jti : String := ""
  deriving DecidableEq

structure Jwt where
  encode : Claims → Except String String
  decode : String → Except String Claims
  decode_encode : ∀ c tok, encode c = .ok tok → decode tok = .ok c

def Jwt.sign (J : Jwt) (now : ℤ) (draw : Except String String) (c : Claims) :
    Except String String :=
  match if c.jti = "" then draw else .ok c.jti with
  | .error e => .error e
  | .ok jti => J.encode { c with iat := if c.iat = 0 then now else c.iat, jti := jti }

inductive JwtErr
  | invalid (text : String)
  | expired
  | notYetValid
  deriving DecidableEq

def Jwt.verify (J : Jwt) (skewSec now : ℤ) (tok : String) : Except JwtErr Claims :=
  match J.decode tok with
  | .error text => .error (.invalid text)
  | .ok c =>
    if 0 < c.exp ∧ c.exp + skewSec < now then .error .expired
    else if 0 < c.iat ∧ now + skewSec < c.iat then .error .notYetValid
    else .ok c

variable {tok : String} {c : Claims}

lemma Jwt.decode_of_verify {J : Jwt} {skewSec now : ℤ}
    (h : J.verify skewSec now tok = .ok c) : J.decode tok = .ok c := by
  unfold Jwt.verify at h
  rcases hdec : J.decode tok with text | c'
  · rw [hdec] at h
    cases h
  · rw [hdec] at h
    dsimp only at h
    split_ifs at h
    cases h
    rfl

/-- A token with the claims is in time: not too old, and not of the future. -/
def Claims.InTime (c : Claims) (skewSec now : ℤ) : Prop :=
  (0 < c.exp → now ≤ c.exp + skewSec) ∧ (0 < c.iat → c.iat ≤ now + skewSec)

instance (c : Claims) (skewSec now : ℤ) : Decidable (c.InTime skewSec now) :=
  inferInstanceAs (Decidable (_ ∧ _))

lemma Jwt.verify_of_inTime {J : Jwt} {skewSec now : ℤ}
    (hdec : J.decode tok = .ok c) (htime : c.InTime skewSec now) :
    J.verify skewSec now tok = .ok c := by
  have hexp : ¬(0 < c.exp ∧ c.exp + skewSec < now) := fun h => by
    have hle := htime.1 h.1
    omega
  have hiat : ¬(0 < c.iat ∧ now + skewSec < c.iat) := fun h => by
    have hle := htime.2 h.1
    omega
  simp only [Jwt.verify, hdec, if_neg hexp, if_neg hiat]

lemma Jwt.decode_of_sign {J : Jwt} {now : ℤ} {draw : Except String String}
    (h : J.sign now draw c = .ok tok) :
    ∃ iat jti, J.decode tok = .ok { c with iat := iat, jti := jti } := by
  unfold Jwt.sign at h
  split at h
  · cases h
  · exact ⟨_, _, J.decode_encode _ _ h⟩

structure Strings where
  trimSpace : String → String
  toUpper : String → String

structure Request where
  method : String
  path : String
  header : Headers
  deriving DecidableEq

structure Principal where
  usid : String
  channel : String
  site : String := ""
  tier : String := ""
  sessionID : String := ""
  cookie : Option Mymq.Codec.Cookie := none
  deriving DecidableEq

def headerEdgeSID : String := "X-WTG-SID"

def headerEdgeUser : String := "X-WTG-User"

def headerEdgeChannel : String := "X-WTG-Channel"

def headerEdgeSite : String := "X-WTG-Site"

def headerEdgeTier : String := "X-WTG-Tier"

inductive StoreErr
  | session (e : SessionErr)
  | other (text : String)
  deriving DecidableEq

inductive AuthErr
  | missingUser
  | authNotImplemented
  | missingAuthHeader
  | badAuthScheme
  | invalidSession
  | invalidJWT
  | missingEdgeHeader
  | store (text : String)
  deriving DecidableEq

/-- What `Get` of the session store and `Verify` answer while the request is served. -/
abbrev Lookup := String → Except StoreErr WebSession

@[inherit_doc Lookup]
abbrev Verifier := String → Except JwtErr Claims

structure AuthConfig where
  devMode : Bool := false
  sessionStore : Option Lookup := none
  jwtVerifier : Option Verifier := none
  trustEdgeHeaders : Bool := false

def bearerToken (S : Strings) (header : Headers) : Except AuthErr String :=
  let value := (header.get "Authorization").toList
  if value = [] then .error .missingAuthHeader
  else if !"Bearer ".toList.isPrefixOf value then .error .badAuthScheme
  else
    let tok := S.trimSpace (String.ofList (value.drop "Bearer ".length))
    if tok = "" then .error .missingAuthHeader else .ok tok

def principalFromSession (sess : WebSession) : Principal where
  usid := sess.usid
  channel := if sess.profile.channel ≠ "" then sess.profile.channel else sess.channel
  site := sess.profile.site
  tier := sess.profile.tier
  sessionID := sess.id
  cookie := sess.cookie

def principalFromClaims (c : Claims) : Principal where
  usid := c.usid
  channel := c.chan
  site := c.site
  tier := c.tier
  sessionID := c.sid

def authenticateToken (verify : Verifier) (store : Option Lookup) (tok : String) :
    Except AuthErr Principal :=
  match verify tok with
  | .error _ => .error .invalidJWT
  | .ok c =>
    match store with
    | none => .ok (principalFromClaims c)
    | some get =>
      match get c.sid with
      | .error _ => .error .invalidSession
      | .ok sess => .ok (principalFromSession sess)

def authenticateJWT (S : Strings) (verify : Verifier) (store : Option Lookup) (header : Headers) :
    Except AuthErr Principal :=
  match bearerToken S header with
  | .error e => .error e
  | .ok tok => authenticateToken verify store tok

def authenticateSession (S : Strings) (get : Lookup) (header : Headers) :
    Except AuthErr Principal :=
  match bearerToken S header with
  | .error e => .error e
  | .ok tok =>
    match get tok with
    | .error (.session _) => .error .invalidSession
    | .error (.other text) => .error (.store text)
    | .ok sess => .ok (principalFromSession sess)

def authenticateEdgeHeaders (store : Option Lookup) (header : Headers) :
    Except AuthErr Principal :=
  if header.get headerEdgeSID = "" then .error .missingEdgeHeader
  else
    match store with
    | none => .error .authNotImplemented
    | some get =>
      match get (header.get headerEdgeSID) with
      | .error _ => .error .invalidSession
      | .ok sess => .ok (principalFromSession sess)

def developer (S : Strings) (header : Headers) : Except AuthErr Principal :=
  if header.get headerEdgeUser = "" then .error .missingUser
  else
    let channel := S.toUpper (S.trimSpace (header.get headerEdgeChannel))
    .ok { usid := header.get headerEdgeUser
          channel := if channel = "" then "WEB" else channel
          site := S.toUpper (S.trimSpace (header.get headerEdgeSite))
          tier := S.toUpper (S.trimSpace (header.get headerEdgeTier)) }

def authenticate (S : Strings) (cfg : AuthConfig) (header : Headers) : Except AuthErr Principal :=
  if cfg.devMode then
    match cfg.jwtVerifier with
    | some verify =>
      if header.get "Authorization" ≠ "" then authenticateJWT S verify cfg.sessionStore header
      else developer S header
    | none => developer S header
  else if cfg.trustEdgeHeaders then authenticateEdgeHeaders cfg.sessionStore header
  else
    match cfg.jwtVerifier with
    | some verify => authenticateJWT S verify cfg.sessionStore header
    | none =>
      match cfg.sessionStore with
      | some get => authenticateSession S get header
      | none => .error .authNotImplemented

def isPublicPath (path : String) : Bool :=
  path ∈ ["/v1/ping", "/healthz", "/readyz", "/metrics", "/v1/login", "/v1/refresh"] ||
    "/v1/internal/".toList.isPrefixOf path.toList

/-- `Auth`: the principal that goes into the context of the request, none on a public path. -/
def auth (S : Strings) (cfg : AuthConfig) (req : Request) : Except AuthErr (Option Principal) :=
  if isPublicPath req.path then .ok none else (authenticate S cfg req.header).map some

lemma authenticateJWT_eq_ok {S : Strings} {verify : Verifier} {header : Headers} {p : Principal}
    (h : authenticateJWT S verify none header = .ok p) :
    ∃ tok c, bearerToken S header = .ok tok ∧ verify tok = .ok c ∧ p = principalFromClaims c := by
  unfold authenticateJWT authenticateToken at h
  rcases hb : bearerToken S header with e | tok
  · rw [hb] at h
    cases h
  · rw [hb] at h
    rcases hv : verify tok with e | c
    · simp only [hv] at h
      cases h
    · simp only [hv] at h
      cases h
      exact ⟨tok, c, rfl, hv, rfl⟩

lemma authenticateEdgeHeaders_eq_ok {store : Option Lookup} {header : Headers} {p : Principal}
    (h : authenticateEdgeHeaders store header = .ok p) :
    header.get headerEdgeSID ≠ "" ∧ ∃ get sess, store = some get ∧
      get (header.get headerEdgeSID) = .ok sess ∧ p = principalFromSession sess := by
  unfold authenticateEdgeHeaders at h
  split_ifs at h with hsid
  refine ⟨hsid, ?_⟩
  rcases store with _ | get
  · cases h
  · rcases hget : get (header.get headerEdgeSID) with e | sess
    · simp only [hget] at h
      cases h
    · simp only [hget] at h
      cases h
      exact ⟨get, sess, rfl, hget, rfl⟩

end Wtg.Api.Authentication
