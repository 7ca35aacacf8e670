import Wtg.Api.Authentication
import Wtg.Api.Frames
import Wtg.Api.Refresh
import Wtg.Auth.RefreshRedis

/-! # The identity of a customer

From `finishLogin` (`internal/api/handlers/login.go`) over any number of refreshes (`Refresh` of
`refresh.go`, whose program is run here on session stores of both kinds) to the principals that the
middleware derives: the edge from the claims of an access token, an internal service from the stored
session. -/

namespace Wtg.Api.Identity

open Lib Auth.Stores Auth.SessionDocs Api.Authentication List Option AList
open Api.Frames (Failure)
open Auth.RefreshRedis (Durations goRedis)
open Lib.Transition (Outcome)
open QuoteId.Registry (Profile)

inductive SessionStore
  | memory (sessions : GoMap String WebSession)
  | redis (db : TtlStore String SessionDTO)

structure Moment where
  now : ℤ
  clock : ℤ
  first : Outcome := .done
  second : Outcome := .done

structure RedisConfig where
  base64 : Base64
  durations : Durations
  pre : String

def errorText : StoreErr → String
  | .session e => e.text
  | .other text => text

namespace SessionStore

variable (R : RedisConfig)

def putRedis (db : TtlStore String SessionDTO) (m : Moment) (sess : WebSession) :
    TtlStore String SessionDTO × Except StoreErr Unit :=
  if sess.id = "" then (db, .error (.other "redis store: 세션 또는 ID 가 비어있음"))
  else
    match sess.lifetime m.now with
    | .error e => (db, .error (.session e))
    | .ok ttl =>
      let written := db.set (key R.pre sess.id) (toDTO R.base64 (sess.stamp m.now))
        (ttl.map fun t => m.clock + R.durations.set t)
      match m.first with
      | .failed => (db, .error (.other ""))
      | .unanswered => (written, .error (.other ""))
      | .done => (written, .ok ())

def put (m : Moment) (sess : WebSession) : SessionStore → SessionStore × Except StoreErr Unit
  | .memory sessions => (.memory (sessions.insert sess.id (sess.stamp m.now)), .ok ())
  | .redis db => (.redis (putRedis R db m sess).1, (putRedis R db m sess).2)

def getMemory (sessions : GoMap String WebSession) (m : Moment) (id : String) :
    GoMap String WebSession × Except StoreErr WebSession :=
  match sessions.lookup id with
  | none => (sessions, .error (.session .notFound))
  | some sess =>
    if expired sess.expiresAt m.now then (sessions.erase id, .error (.session .expired))
    else
      (sessions.insert id { sess with lastSeenAt := some m.now },
        .ok { sess with lastSeenAt := some m.now })

def getRedis (db : TtlStore String SessionDTO) (m : Moment) (id : String) :
    TtlStore String SessionDTO × Except StoreErr WebSession :=
  if m.first ≠ .done then (db, .error (.other "redis store: get: "))
  else
    match db.get m.clock (key R.pre id) with
    | none => (db, .error (.session .notFound))
    | some dto =>
      match received R.base64 m.now dto with
      | .corrupt text => (db, .error (.other text))
      | .expired =>
        (if m.second = .failed then db else db.del (key R.pre id), .error (.session .expired))
      | .session sess none => (db, .ok sess)
      | .session sess (some ttl) =>
        (if m.second = .failed then db
          else db.set (key R.pre id) (toDTO R.base64 sess)
            (some (m.clock + R.durations.set ttl)), .ok sess)

def get (m : Moment) (id : String) : SessionStore → SessionStore × Except StoreErr WebSession
  | .memory sessions => (.memory (getMemory sessions m id).1, (getMemory sessions m id).2)
  | .redis db => (.redis (getRedis R db m id).1, (getRedis R db m id).2)

def stored (id : String) : SessionStore → Option WebSession
  | .memory sessions => sessions.lookup id
  | .redis db => (db (key R.pre id)).bind fun e => (fromDTO R.base64 e.1).toOption

end SessionStore

structure Customer where
  sid : String
  usid : String
  channel : String
  profile : Profile
  deriving DecidableEq

def customer (sess : WebSession) : Customer := ⟨sess.id, sess.usid, sess.channel, sess.profile⟩

/-! ## The session stores -/

section

variable {R : RedisConfig} {m : Moment} {sess : WebSession}

lemma received_session {B : Base64} {now : ℤ} {dto : SessionDTO} {ttl : Option ℤ}
    (h : received B now dto = .session sess ttl) :
    ∃ sess₀, fromDTO B dto = .ok sess₀ ∧ sess = { sess₀ with lastSeenAt := some now } := by
  unfold received at h
  rcases hdto : fromDTO B dto with text | sess₀
  · rw [hdto] at h
    cases h
  · rw [hdto] at h
    dsimp only at h
    split_ifs at h
    cases h
    exact ⟨sess₀, rfl, rfl⟩

lemma getMemory_keeps (sessions : GoMap String WebSession) (m : Moment) (id : String) :
    (∀ sess, (SessionStore.getMemory sessions m id).2 = .ok sess →
      (sessions.lookup id).map customer = some (customer sess)) ∧
    ∀ id' sess, (SessionStore.getMemory sessions m id).1.lookup id' = some sess →
      (sessions.lookup id').map customer = some (customer sess) := by
  have hsame : ∀ id' sess, sessions.lookup id' = some sess →
      (sessions.lookup id').map customer = some (customer sess) := by
    intro id' sess h
    rw [h]
    rfl
  unfold SessionStore.getMemory
  rcases hlookup : sessions.lookup id with _ | sess₀
  · exact ⟨fun sess hok => (nomatch hok), hsame⟩
  · dsimp only
    split_ifs
    · refine ⟨fun sess hok => (nomatch hok), fun id' sess h => ?_⟩
      by_cases heq : id' = id
      · subst heq
        rw [lookup_erase] at h
        cases h
      · rw [lookup_erase_ne heq] at h
        exact hsame id' sess h
    · refine ⟨fun sess h => ?_, fun id' sess h => ?_⟩
      · cases h
        rfl
      · by_cases heq : id' = id
        · subst heq
          rw [lookup_insert] at h
          cases h
          rw [hlookup]
          rfl
        · rw [lookup_insert_ne heq] at h
          exact hsame id' sess h

def sessionOf (R : RedisConfig) (e : Option (SessionDTO × Option ℤ)) : Option WebSession :=
  e.bind fun e => (fromDTO R.base64 e.1).toOption

lemma sessionOf_toDTO (sess : WebSession) (e : Option ℤ) :
    sessionOf R (some (toDTO R.base64 sess, e)) = some sess := by
  simp [sessionOf, fromDTO_toDTO, Except.toOption]

variable (db : TtlStore String SessionDTO)

lemma getRedis_cases (m : Moment) (id : String) :
    (∃ e, SessionStore.getRedis R db m id = (db, .error e)) ∨
    (∃ e, SessionStore.getRedis R db m id = (db.del (key R.pre id), .error e)) ∨
    ∃ sess₀, sessionOf R (db (key R.pre id)) = some sess₀ ∧
      (SessionStore.getRedis R db m id = (db, .ok { sess₀ with lastSeenAt := some m.now }) ∨
        ∃ e, SessionStore.getRedis R db m id =
          (db.set (key R.pre id) (toDTO R.base64 { sess₀ with lastSeenAt := some m.now }) e,
            .ok { sess₀ with lastSeenAt := some m.now })) := by
  unfold SessionStore.getRedis
  by_cases hfirst : m.first = .done
  · rw [if_neg (not_not.mpr hfirst)]
    rcases hget : db.get m.clock (key R.pre id) with _ | dto
    · exact .inl ⟨_, rfl⟩
    obtain ⟨e, hentry, -⟩ := TtlStore.get_eq_some.mp hget
    rcases hrec : received R.base64 m.now dto with text | _ | ⟨sess₁, ttl⟩
    · exact .inl ⟨.other text, by simp only [hrec]⟩
    · by_cases hsecond : m.second = .failed
      · exact .inl ⟨.session .expired, by simp only [hrec, if_pos hsecond]⟩
      · exact .inr (.inl ⟨.session .expired, by simp only [hrec, if_neg hsecond]⟩)
    · obtain ⟨sess₀, hdto, rfl⟩ := received_session hrec
      have hfound : sessionOf R (db (key R.pre id)) = some sess₀ := by
        simp [sessionOf, hentry, hdto, Except.toOption]
      refine .inr (.inr ⟨sess₀, hfound, ?_⟩)
      rcases ttl with _ | ttl
      · exact .inl (by simp only [hrec])
      · by_cases hsecond : m.second = .failed
        · exact .inl (by simp only [hrec, if_pos hsecond])
        · exact .inr ⟨some (m.clock + R.durations.set ttl), by simp only [hrec, if_neg hsecond]⟩
  · rw [if_pos hfirst]
    exact .inl ⟨_, rfl⟩

lemma getRedis_keeps (m : Moment) (id : String) :
    (∀ sess, (SessionStore.getRedis R db m id).2 = .ok sess →
      (sessionOf R (db (key R.pre id))).map customer = some (customer sess)) ∧
    ∀ id' sess, sessionOf R ((SessionStore.getRedis R db m id).1 (key R.pre id')) = some sess →
      (sessionOf R (db (key R.pre id'))).map customer = some (customer sess) := by
  have hsame : ∀ id' sess, sessionOf R (db (key R.pre id')) = some sess →
      (sessionOf R (db (key R.pre id'))).map customer = some (customer sess) := by
    intro id' sess h
    rw [h]
    rfl
  rcases getRedis_cases db m id with ⟨e, h⟩ | ⟨e, h⟩ | ⟨sess₀, hfound, h | ⟨e, h⟩⟩
  · rw [h]
    exact ⟨fun sess hok => (nomatch hok), hsame⟩
  · rw [h]
    refine ⟨fun sess hok => (nomatch hok), fun id' sess hsess => ?_⟩
    dsimp only at hsess
    by_cases heq : key R.pre id' = key R.pre id
    · rw [heq, TtlStore.del_self] at hsess
      cases hsess
    · rw [TtlStore.del_ne _ heq] at hsess
      exact hsame id' sess hsess
  · rw [h]
    refine ⟨fun sess hok => ?_, hsame⟩
    cases hok
    rw [hfound]
    rfl
  · rw [h]
    refine ⟨fun sess hok => ?_, fun id' sess hsess => ?_⟩
    · cases hok
      rw [hfound]
      rfl
    · dsimp only at hsess
      by_cases heq : key R.pre id' = key R.pre id
      · rw [heq, TtlStore.set_self, sessionOf_toDTO] at hsess
        cases hsess
        rw [heq, hfound]
        rfl
      · rw [TtlStore.set_ne _ heq] at hsess
        exact hsame id' sess hsess

variable {store : SessionStore}

lemma customer_get {id : String} (h : (store.get R m id).2 = .ok sess) :
    (store.stored R id).map customer = some (customer sess) := by
  cases store with
  | memory sessions => exact (getMemory_keeps sessions m id).1 sess h
  | redis db => exact (getRedis_keeps db m id).1 sess h

lemma customer_stored_get {id id' : String} (h : (store.get R m id).1.stored R id' = some sess) :
    (store.stored R id').map customer = some (customer sess) := by
  cases store with
  | memory sessions => exact (getMemory_keeps sessions m id).2 id' sess h
  | redis db => exact (getRedis_keeps db m id).2 id' sess h

lemma stored_put (h : (store.put R m sess).2 = .ok ()) :
    (store.put R m sess).1.stored R sess.id = some (sess.stamp m.now) := by
  cases store with
  | memory sessions => exact lookup_insert _
  | redis db =>
    change (SessionStore.putRedis R db m sess).2 = .ok () at h
    change sessionOf R ((SessionStore.putRedis R db m sess).1 (key R.pre sess.id)) = _
    revert h
    fun_cases SessionStore.putRedis R db m sess <;> rintro ⟨⟩
    exact (congrArg (sessionOf R) (TtlStore.set_self ..)).trans (sessionOf_toDTO ..)

end

/-- The dependencies: whether access tokens are issued and refresh tokens are stored, and
lifetimes. -/
structure Deps where
  issuer : Bool
  refreshStore : Bool
  sessionTTL : ℤ
  tokens : Refresh.Deps

def defaultSessionTTL : ℤ := 8 * 3600 * 1000000000

def Deps.sessionLife (deps : Deps) : ℤ :=
  if deps.sessionTTL ≤ 0 then defaultSessionTTL else deps.sessionTTL

/-- What `finishLogin` is given, what the resolver of profiles knows of the user, what is drawn, and
how storing the refresh token ends. -/
structure LoginCall where
  channel : String
  usid : String
  cookie : Option Mymq.Codec.Cookie := none
  lgnIdntCon : String := ""
  cifNo : String := ""
  moment : Moment
  resolved : Option (String × String)
  sid : Except String String
  jti : Except String String
  refreshToken : Except String String
  putToken : Except String Unit := .ok ()

inductive Origin
  | login
  | refresh
  deriving DecidableEq

/-- What a login and its refreshes have led to: the session store, the refresh tokens that were put,
and the access tokens that were issued. -/
structure Account where
  store : SessionStore
  refreshTokens : List RefreshToken
  issued : List (Origin × String)

def unix (t : ℤ) : ℤ := t / 1000000000

namespace LoginCall

variable (r : LoginCall) (deps : Deps)

def site : String := (r.resolved.map Prod.fst).getD ""

def tier : String := (r.resolved.map Prod.snd).getD ""

def session (sid : String) : WebSession where
  id := sid
  usid := r.usid
  channel := r.channel
  cookie := r.cookie
  lgnIdntCon := r.lgnIdntCon
  cifNo := r.cifNo
  issuedAt := some r.moment.now
  expiresAt := some (r.moment.now + deps.sessionLife)
  lastSeenAt := none
  profile := ⟨r.channel, r.site, r.tier⟩
  logonID := r.usid

def claims (sid : String) : Claims where
  sid := sid
  usid := r.usid
  chan := r.channel
  site := r.site
  tier := r.tier
  exp := unix (r.moment.now + deps.tokens.accessTTL)

def accessToken (J : Jwt) (sid : String) : Except Failure (Option String) :=
  if deps.issuer then
    match J.sign (unix r.moment.now) r.jti (r.claims deps sid) with
    | .error e => .error ⟨500, "jwt_sign", e⟩
    | .ok tok => .ok (some tok)
  else .ok none

def newRefreshToken (sid : String) : Except Failure (Option RefreshToken) :=
  if deps.refreshStore then
    match r.refreshToken with
    | .error e => .error ⟨500, "rng", e⟩
    | .ok rt =>
      match r.putToken with
      | .error e => .error ⟨500, "refresh_store", e⟩
      | .ok () => .ok (some ⟨rt, sid, r.usid, r.channel, some r.moment.now,
          some (r.moment.now + deps.tokens.refreshTTL)⟩)
  else .ok none

end LoginCall

def finishLogin (J : Jwt) (R : RedisConfig) (deps : Deps) (store : SessionStore) (r : LoginCall) :
    Except Failure Account :=
  match r.sid with
  | .error e => .error ⟨500, "rng", e⟩
  | .ok sid =>
    match (store.put R r.moment (r.session deps sid)).2 with
    | .error e => .error ⟨500, "session_store", errorText e⟩
    | .ok () =>
      match r.accessToken deps J sid with
      | .error failure => .error failure
      | .ok access =>
        match r.newRefreshToken deps sid with
        | .error failure => .error failure
        | .ok rt =>
          .ok ⟨(store.put R r.moment (r.session deps sid)).1, rt.toList,
            access.toList.map fun tok => (.login, tok)⟩

structure RefreshEvent where
  moment : Moment
  now : ℤ
  body : Except String String
  consumed : Except RefreshErr ℕ
  jti : Except String String
  draw : Except String String
  putToken : Except RefreshErr Unit := .ok ()

def coreSession (sess : WebSession) : Session :=
  ⟨sess.id, sess.usid, sess.channel, sess.lgnIdntCon, sess.expiresAt⟩

def sessionAnswer : Except StoreErr WebSession → Except SessionErr Session
  | .ok sess => .ok (coreSession sess)
  | .error (.session e) => .error e
  | .error (.other _) => .error .notFound

def Account.consume (acc : Account) (ev : RefreshEvent) : Except RefreshErr RefreshToken :=
  match ev.consumed with
  | .error e => .error e
  | .ok i => (acc.refreshTokens[i]?).elim (.error .notFound) .ok

def answer (R : RedisConfig) (ev : RefreshEvent) (acc : Account) :
    (c : Refresh.Call) → Account × Refresh.Answer c
  | .now => (acc, ev.now)
  | .consume _ => (acc, acc.consume ev)
  | .getSession id =>
    ({ acc with store := (acc.store.get R ev.moment id).1 },
      sessionAnswer (acc.store.get R ev.moment id).2)
  | .putToken t =>
    match ev.putToken with
    | .error e => (acc, .error e)
    | .ok () => ({ acc with refreshTokens := acc.refreshTokens ++ [t] }, .ok ())
  | .deleteBySID _ => (acc, 0)
  | .deleteSession _ | .sweepTokens | .sweepSessions => (acc, ())

def refreshClaims (c : Refresh.Claims) : Claims where
  sid := c.sid
  usid := c.usid
  chan := c.channel
  exp := c.exp

def RefreshEvent.call (J : Jwt) (deps : Deps) (ev : RefreshEvent) : Refresh.RefreshCall where
  body := ev.body
  sign := if deps.issuer ∧ deps.refreshStore then
      some fun c => J.sign (unix ev.now) ev.jti (refreshClaims c)
    else none
  draw := ev.draw

def Account.refresh (J : Jwt) (R : RedisConfig) (deps : Deps) (acc : Account)
    (ev : RefreshEvent) : Account :=
  let r := (Refresh.refresh deps.tokens (ev.call J deps)).eval (answer R ev) acc
  match r.2 with
  | .refreshed body => { r.1 with issued := r.1.issued ++ [(.refresh, body.accessToken)] }
  | _ => r.1

inductive Event
  | refresh (ev : RefreshEvent)
  | use (moment : Moment) (id : String)

def Account.step (J : Jwt) (R : RedisConfig) (deps : Deps) (acc : Account) : Event → Account
  | .refresh ev => acc.refresh J R deps ev
  | .use moment id => { acc with store := (acc.store.get R moment id).1 }

def Account.after (J : Jwt) (R : RedisConfig) (deps : Deps) (acc : Account) (evs : List Event) :
    Account :=
  evs.foldl (Account.step J R deps) acc

/-! ## What a refresh does -/

section

variable {J : Jwt} {R : RedisConfig} {deps : Deps} {acc : Account} {ev : RefreshEvent}

def Failed (R : RedisConfig) (acc : Account) (ev : RefreshEvent)
    (r : Account × Refresh.Response) : Prop :=
  (∀ body, r.2 ≠ .refreshed body) ∧
    (r.1 = acc ∨ ∃ id, r.1 = { acc with store := (acc.store.get R ev.moment id).1 })

def Renewed (J : Jwt) (R : RedisConfig) (acc : Account) (ev : RefreshEvent)
    (r : Account × Refresh.Response) : Prop :=
  ∃ old ∈ acc.refreshTokens, ∃ sess body exp t,
    (acc.store.get R ev.moment old.sid).2 = .ok sess ∧ t.sid = sess.id ∧
    J.sign (unix ev.now) ev.jti (refreshClaims ⟨sess.id, sess.usid, sess.channel, exp⟩) =
      .ok body.accessToken ∧
    r = ({ acc with store := (acc.store.get R ev.moment old.sid).1
                    refreshTokens := acc.refreshTokens ++ [t] }, .refreshed body)

lemma mem_of_consume {old : RefreshToken} (h : acc.consume ev = .ok old) :
    old ∈ acc.refreshTokens := by
  unfold Account.consume at h
  rcases hev : ev.consumed with e | i
  · rw [hev] at h
    cases h
  · rw [hev] at h
    rcases hi : acc.refreshTokens[i]? with _ | t
    · simp [hi] at h
    · simp only [hi, elim_some, Except.ok.injEq] at h
      exact h ▸ mem_of_getElem? hi

lemma eval_refresh (J : Jwt) (R : RedisConfig) (deps : Deps) (acc : Account) (ev : RefreshEvent) :
    Failed R acc ev ((Refresh.refresh deps.tokens (ev.call J deps)).eval (answer R ev) acc) ∨
      Renewed J R acc ev
        ((Refresh.refresh deps.tokens (ev.call J deps)).eval (answer R ev) acc) := by
  have hrefused : ∀ status code message, Failed R acc ev (acc, .error status code message) :=
    fun _ _ _ => ⟨nofun, .inl rfl⟩
  have hread : ∀ id status code message, Failed R acc ev
      ({ acc with store := (acc.store.get R ev.moment id).1 }, .error status code message) :=
    fun id _ _ _ => ⟨nofun, .inr ⟨id, rfl⟩⟩
  unfold Refresh.refresh RefreshEvent.call
  by_cases hconf : deps.issuer ∧ deps.refreshStore
  · simp only [hconf, and_self, if_true]
    rcases ev.body with e | token
    · exact .inl (hrefused ..)
    · dsimp only
      by_cases htoken : token = ""
      · simp only [htoken, if_true]
        exact .inl (hrefused ..)
      · simp only [htoken, if_false, Program.Prog.eval, answer]
        rcases hold : acc.consume ev with e | old
        · rcases e with _ | _ | _ <;> exact .inl (hrefused ..)
        simp only [Program.Prog.eval, answer]
        rcases hget : (acc.store.get R ev.moment old.sid).2 with e | sess
        · rcases e with e | text <;> exact .inl (hread ..)
        simp only [sessionAnswer, coreSession, Program.Prog.eval, answer]
        rcases hsign : J.sign (unix ev.now) ev.jti (refreshClaims ⟨sess.id, sess.usid, sess.channel,
            (ev.now + deps.tokens.accessTTL) / 1000000000⟩) with e | access
        · exact .inl (hread ..)
        rcases ev.draw with e | newRT
        · exact .inl (hread ..)
        simp only [Program.Prog.eval, answer]
        rcases ev.putToken with e | _
        · exact .inl (hread ..)
        · exact .inr ⟨old, mem_of_consume hold, sess, _, _, _, hget, rfl, hsign, rfl⟩
  · simp only [hconf, if_false]
    exact .inl (hrefused ..)

end

def Customer.principal (who : Customer) : Origin → Principal
  | .login => { usid := who.usid, channel := who.channel, site := who.profile.site
                tier := who.profile.tier, sessionID := who.sid }
  | .refresh => { usid := who.usid, channel := who.channel, sessionID := who.sid }

structure Account.Inv (J : Jwt) (R : RedisConfig) (who : Customer) (acc : Account) : Prop where
  stored : ∀ sess, acc.store.stored R who.sid = some sess → customer sess = who
  tokens : ∀ t ∈ acc.refreshTokens, t.sid = who.sid
  issued : ∀ o tok, (o, tok) ∈ acc.issued →
    ∃ c, J.decode tok = .ok c ∧ principalFromClaims c = who.principal o

def LoginCall.customer (r : LoginCall) (sid : String) : Customer :=
  ⟨sid, r.usid, r.channel, ⟨r.channel, r.site, r.tier⟩⟩

/-! ## The life of an account -/

section

variable {J : Jwt} {R : RedisConfig} {deps : Deps} {acc : Account} {who : Customer} {r : LoginCall}

lemma sign_of_accessToken {sid tok : String} (h : r.accessToken deps J sid = .ok (some tok)) :
    J.sign (unix r.moment.now) r.jti (r.claims deps sid) = .ok tok := by
  revert h
  fun_cases LoginCall.accessToken r deps J sid <;> rintro ⟨⟩
  case case2 hsign => exact hsign

lemma sid_of_newRefreshToken {sid : String} {t : RefreshToken}
    (h : r.newRefreshToken deps sid = .ok (some t)) : t.sid = sid := by
  revert h
  fun_cases LoginCall.newRefreshToken r deps sid <;> rintro ⟨⟩
  rfl

variable {store : SessionStore}

lemma finishLogin_eq_ok (h : finishLogin J R deps store r = .ok acc) :
    ∃ sid access rt, (store.put R r.moment (r.session deps sid)).2 = .ok () ∧
      r.accessToken deps J sid = .ok access ∧ r.newRefreshToken deps sid = .ok rt ∧
      acc = ⟨(store.put R r.moment (r.session deps sid)).1, rt.toList,
        access.toList.map fun tok => (.login, tok)⟩ := by
  revert h
  fun_cases finishLogin J R deps store r <;> rintro ⟨⟩
  case case5 sid _ hput access haccess rt hrefresh =>
    exact ⟨sid, access, rt, hput, haccess, hrefresh, rfl⟩

lemma inv_finishLogin (h : finishLogin J R deps store r = .ok acc) :
    ∃ sid, acc.Inv J R (r.customer sid) := by
  obtain ⟨sid, access, rt, hput, haccess, hrefresh, rfl⟩ := finishLogin_eq_ok h
  refine ⟨sid, fun sess hsess => ?_, fun t ht => ?_, fun o tok htok => ?_⟩
  · have hstored : (store.put R r.moment (r.session deps sid)).1.stored R sid = _ :=
      stored_put hput
    obtain rfl := some.inj (hstored.symm.trans hsess)
    rfl
  · obtain rfl := mem_toList.mp ht
    exact sid_of_newRefreshToken hrefresh
  · obtain ⟨tok', htok', heq⟩ := mem_map.mp htok
    cases heq
    obtain rfl := mem_toList.mp htok'
    obtain ⟨iat, jti, hdec⟩ := Jwt.decode_of_sign (sign_of_accessToken haccess)
    exact ⟨_, hdec, rfl⟩

lemma Account.Inv.customer_eq (h : acc.Inv J R who) {sess : WebSession}
    (hsess : (acc.store.stored R who.sid).map customer = some (customer sess)) :
    customer sess = who := by
  obtain ⟨sess₀, hstored, heq⟩ := map_eq_some_iff.mp hsess
  exact heq ▸ h.stored sess₀ hstored

lemma Account.Inv.get (h : acc.Inv J R who) (m : Moment) (id : String) :
    Account.Inv J R who { acc with store := (acc.store.get R m id).1 } :=
  ⟨fun _ hsess => h.customer_eq (customer_stored_get hsess), h.tokens, h.issued⟩

lemma Account.Inv.refresh (h : acc.Inv J R who) (ev : RefreshEvent) :
    (acc.refresh J R deps ev).Inv J R who := by
  unfold Account.refresh
  rcases eval_refresh J R deps acc ev with
    ⟨hbody, hacc⟩ | ⟨old, hold, sess, body, exp, t, hget, ht, hsign, hr⟩
  · have hkept : ((Refresh.refresh deps.tokens (ev.call J deps)).eval (answer R ev) acc).1.Inv
        J R who := by
      rcases hacc with hacc | ⟨id, hacc⟩
      · rw [hacc]
        exact h
      · rw [hacc]
        exact h.get ev.moment id
    dsimp only
    split
    · rename_i body heq
      exact absurd heq (hbody body)
    · exact hkept
  · rw [hr]
    have hsid : old.sid = who.sid := h.tokens old hold
    have hcustomer : customer sess = who := h.customer_eq (hsid ▸ customer_get hget)
    have hread := h.get ev.moment old.sid
    obtain ⟨iat, jti, hdec⟩ := Jwt.decode_of_sign hsign
    refine ⟨hread.stored, forall_concat h.tokens ?_, fun o tok htok => ?_⟩
    · rw [ht, ← hcustomer]
      rfl
    · rcases mem_append.mp htok with htok | htok
      · exact h.issued o tok htok
      · cases mem_singleton.mp htok
        refine ⟨_, hdec, ?_⟩
        rw [← hcustomer]
        rfl

lemma Account.Inv.after (h : acc.Inv J R who) (evs : List Event) :
    (acc.after J R deps evs).Inv J R who := by
  induction evs generalizing acc with
  | nil => exact h
  | cons ev evs ih =>
    refine ih ?_
    cases ev with
    | refresh ev => exact h.refresh ev
    | use moment id => exact h.get moment id

end

/-- The principals agree on the user, the channel, the site, the tier and the session. -/
def SameIdentity (p p' : Principal) : Prop :=
  p.usid = p'.usid ∧ p.channel = p'.channel ∧ p.site = p'.site ∧ p.tier = p'.tier ∧
    p.sessionID = p'.sessionID

instance (p p' : Principal) : Decidable (SameIdentity p p') := inferInstanceAs (Decidable (_ ∧ _))

def edgePrincipal (J : Jwt) (skewSec now : ℤ) (tok : String) : Except AuthErr Principal :=
  authenticateToken (J.verify skewSec now) none tok

def internalPrincipal (J : Jwt) (R : RedisConfig) (store : SessionStore) (m : Moment)
    (skewSec now : ℤ) (tok : String) : Except AuthErr Principal :=
  authenticateToken (J.verify skewSec now) (some fun id => (store.get R m id).2) tok

/-! ## The principals of both sides -/

section

variable {J : Jwt} {R : RedisConfig} {acc : Account} {who : Customer} {o : Origin} {tok : String}
  {m : Moment} {skewSec now : ℤ} {p : Principal}

lemma Account.Inv.edgePrincipal_eq (h : acc.Inv J R who) (htok : (o, tok) ∈ acc.issued) :
    ∃ c, J.decode tok = .ok c ∧ ∀ skewSec now, c.InTime skewSec now →
      edgePrincipal J skewSec now tok = .ok (who.principal o) := by
  obtain ⟨c, hdec, hc⟩ := h.issued o tok htok
  refine ⟨c, hdec, fun skewSec now htime => ?_⟩
  simp only [edgePrincipal, authenticateToken, Jwt.verify_of_inTime hdec htime, hc]

lemma Account.Inv.internalPrincipal_eq (h : acc.Inv J R who) (htok : (o, tok) ∈ acc.issued)
    (hp : internalPrincipal J R acc.store m skewSec now tok = .ok p) :
    ∃ sess, customer sess = who ∧ p = principalFromSession sess := by
  obtain ⟨c, hdec, hc⟩ := h.issued o tok htok
  have hsid : c.sid = who.sid := by
    have hsession := congrArg Principal.sessionID hc
    cases o <;> exact hsession
  unfold internalPrincipal authenticateToken at hp
  rcases hverify : J.verify skewSec now tok with e | c'
  · rw [hverify] at hp
    cases hp
  · have hsame : c' = c := Except.ok.inj ((Jwt.decode_of_verify hverify).symm.trans hdec)
    rw [hverify, hsame] at hp
    dsimp only at hp
    rw [hsid] at hp
    rcases hget : (acc.store.get R m who.sid).2 with e | sess
    · rw [hget] at hp
      cases hp
    · rw [hget] at hp
      cases hp
      exact ⟨sess, h.customer_eq (customer_get hget), rfl⟩

lemma sameIdentity_session {sess : WebSession} (hcustomer : customer sess = who)
    (hchannel : who.profile.channel = who.channel) :
    SameIdentity (who.principal o) (principalFromSession sess) ↔
      o = .login ∨ who.profile.site = "" ∧ who.profile.tier = "" := by
  subst hcustomer
  have hsame : (principalFromSession sess).channel = sess.channel := by
    change (if sess.profile.channel ≠ "" then sess.profile.channel else sess.channel) = _
    split_ifs
    · exact hchannel
    · rfl
  cases o with
  | login => exact iff_of_true ⟨rfl, hsame.symm, rfl, rfl, rfl⟩ (.inl rfl)
  | refresh =>
    constructor
    · rintro ⟨-, -, hsite, htier, -⟩
      exact .inr ⟨hsite.symm, htier.symm⟩
    · rintro (h | ⟨hsite, htier⟩)
      · cases h
      · exact ⟨rfl, hsame.symm, hsite.symm, htier.symm, rfl⟩

end

/-- **The same identity at the edge and inside**: the principal of an access token is that of the
stored session exactly if the token is of the login, or the customer has no site and tier. -/
theorem same_identity_iff (J : Jwt) (R : RedisConfig) (deps : Deps) (store : SessionStore)
    (r : LoginCall) (acc : Account) (hlogin : finishLogin J R deps store r = .ok acc)
    (evs : List Event) (o : Origin) (tok : String)
    (htok : (o, tok) ∈ (acc.after J R deps evs).issued) :
    ∃ c, J.decode tok = .ok c ∧ ∀ skewSec now, c.InTime skewSec now →
      ∃ p, edgePrincipal J skewSec now tok = .ok p ∧ ∀ m skewSec' now' p',
        internalPrincipal J R (acc.after J R deps evs).store m skewSec' now' tok = .ok p' →
          (SameIdentity p p' ↔ o = .login ∨ r.site = "" ∧ r.tier = "") := by
  obtain ⟨sid, hinv⟩ := inv_finishLogin hlogin
  have hafter : (acc.after J R deps evs).Inv J R (r.customer sid) := hinv.after evs
  obtain ⟨c, hdec, hedge⟩ := hafter.edgePrincipal_eq htok
  refine ⟨c, hdec, fun skewSec now htime => ⟨_, hedge skewSec now htime, ?_⟩⟩
  intro m skewSec' now' p' hinternal
  obtain ⟨sess, hcustomer, rfl⟩ := hafter.internalPrincipal_eq htok hinternal
  exact sameIdentity_session hcustomer rfl

/-! ## An account with two claims -/

def branchClaims : Claims := ⟨"s1", "u1", "WEB", "BRANCH", "VIP", 1, 901, "j1"⟩

def bareClaims : Claims := ⟨"s1", "u1", "WEB", "", "", 2, 902, "j2"⟩

def twoClaims : Jwt where
  encode c := if c = branchClaims then .ok "t1" else if c = bareClaims then .ok "t2" else .error ""
  decode tok := if tok = "t1" then .ok branchClaims else if tok = "t2" then .ok bareClaims
    else .error ""
  decode_encode c tok h := by
    split_ifs at h with h₁ h₂
    · cases h
      simp [h₁]
    · cases h
      simp [h₂]

def redisConfig : RedisConfig := ⟨base256, goRedis, "wtg:auth"⟩

def bothTokens : Deps := ⟨true, true, 0, ⟨0, 0, false⟩⟩

def branchLogin : LoginCall where
  channel := "WEB"
  usid := "u1"
  moment := ⟨10 ^ 9, 10 ^ 9, .done, .done⟩
  resolved := some ("BRANCH", "VIP")
  sid := .ok "s1"
  jti := .ok "j1"
  refreshToken := .ok "r1"

def oneRefresh : List Event :=
  [.refresh ⟨⟨2 * 10 ^ 9, 2 * 10 ^ 9, .done, .done⟩, 2 * 10 ^ 9, .ok "r1", .ok 0, .ok "j2",
    .ok "r2", .ok ()⟩]

def Derives (store : SessionStore) (o : Origin) (tok : String) (p p' : Principal) : Prop :=
  ∃ acc ∈ (finishLogin twoClaims redisConfig bothTokens store branchLogin).toOption,
    (o, tok) ∈ (acc.after twoClaims redisConfig bothTokens oneRefresh).issued ∧
      (edgePrincipal twoClaims 0 3 tok).toOption = some p ∧
      (internalPrincipal twoClaims redisConfig
        (acc.after twoClaims redisConfig bothTokens oneRefresh).store
        ⟨3 * 10 ^ 9, 3 * 10 ^ 9, .done, .done⟩ 0 3 tok).toOption = some p'

instance (store : SessionStore) (o : Origin) (tok : String) (p p' : Principal) :
    Decidable (Derives store o tok p p') := inferInstanceAs (Decidable (∃ _ ∈ _, _))

def branchPrincipal : Principal := ⟨"u1", "WEB", "BRANCH", "VIP", "s1", none⟩

lemma ok_of_toOption {ε α : Type} {x : Except ε α} {a : α} (h : x.toOption = some a) :
    x = .ok a := by
  rcases x with e | a'
  · cases h
  · cases h
    rfl

theorem same_identity_iff_login :
    Derives (.redis .empty) .login "t1" branchPrincipal branchPrincipal ∧
      ∃ p, edgePrincipal twoClaims 0 3 "t1" = .ok p ∧ SameIdentity p branchPrincipal := by
  have hderives : Derives (.redis .empty) .login "t1" branchPrincipal branchPrincipal := by
    decide +kernel
  refine ⟨hderives, ?_⟩
  obtain ⟨acc, hlogin, htok, -, hinternal⟩ := hderives
  obtain ⟨c, hdec, hsame⟩ := same_identity_iff _ _ _ _ _ acc (ok_of_toOption hlogin) _ _ _ htok
  cases hdec
  obtain ⟨p, hp, hiff⟩ := hsame 0 3 (by decide)
  exact ⟨p, hp, (hiff _ _ _ _ (ok_of_toOption hinternal)).mpr (.inl rfl)⟩

theorem refreshed_without_profile :
    (Derives (.memory ∅) .refresh "t2" ⟨"u1", "WEB", "", "", "s1", none⟩ branchPrincipal ∧
      Derives (.redis .empty) .refresh "t2" ⟨"u1", "WEB", "", "", "s1", none⟩ branchPrincipal) ∧
    ¬SameIdentity ⟨"u1", "WEB", "", "", "s1", none⟩ branchPrincipal := by
  decide +kernel

end Wtg.Api.Identity
