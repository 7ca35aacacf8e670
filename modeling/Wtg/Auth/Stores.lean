import Wtg.Lib.GoMap

/-! # Sessions and refresh tokens in memory

`MemoryStore` of `pkg/auth/memstore.go` and `MemoryRefreshStore` of `pkg/auth/refresh.go`. Every
function is one critical section of its store, except `Get`, which looks the session up in one and
deletes it, if expired, in a second. -/

namespace Wtg.Auth.Stores

open Lib AList

/-- `Expired` of both: without a time, never. -/
def expired (expiresAt : Option ℤ) (now : ℤ) : Bool :=
  match expiresAt with
  | none => false
  | some t => decide (t < now)

structure RefreshToken where
  token : String
  sid : String
  usid : String
  channel : String
  issuedAt : Option ℤ
  expiresAt : Option ℤ
  deriving DecidableEq, Repr

inductive RefreshErr
  | notFound
  | expired
  | tokenRequired
  deriving DecidableEq, Repr

def RefreshErr.text : RefreshErr → String
  | .notFound => "auth: refresh token 미존재"
  | .expired => "auth: refresh token 만료"
  | .tokenRequired => "auth: RefreshToken.Token 필수"

/-! ## Refresh tokens -/

abbrev Tokens := GoMap String RefreshToken

namespace Tokens

variable (tokens : Tokens)

def put (now : ℤ) (t : RefreshToken) : Tokens × Except RefreshErr Unit :=
  if t.token = "" then (tokens, .error .tokenRequired)
  else (tokens.insert t.token { t with issuedAt := some (t.issuedAt.getD now) }, .ok ())

/-- A token is taken out even if it is expired. -/
def consume (now : ℤ) (token : String) : Tokens × Except RefreshErr RefreshToken :=
  match tokens.lookup token with
  | none => (tokens, .error .notFound)
  | some t =>
    (tokens.erase token, if Stores.expired t.expiresAt now then .error .expired else .ok t)

def deleteBySID (sid : String) : Tokens × ℕ :=
  if sid = "" then (tokens, 0)
  else
    (GoMap.eraseWhere (fun _ t => decide (t.sid = sid)) tokens.entries tokens,
      tokens.entries.countP fun e => e.2.sid = sid)

def sweepOnce (now : ℤ) : Tokens :=
  GoMap.eraseWhere (fun _ t => Stores.expired t.expiresAt now) tokens.entries tokens

variable {tokens} {token : String}

lemma lookup_put {now : ℤ} {t : RefreshToken} (h : token ≠ t.token) :
    (tokens.put now t).1.lookup token = tokens.lookup token := by
  unfold put
  split_ifs
  · rfl
  · exact lookup_insert_ne h

lemma consume_ok {now : ℤ} {t : RefreshToken} (h : (tokens.consume now token).2 = .ok t) :
    tokens.lookup token = some t ∧ (tokens.consume now token).1.lookup token = none := by
  unfold consume at h ⊢
  rcases hlookup : tokens.lookup token with _ | t'
  · rw [hlookup] at h
    exact nomatch h
  · rw [hlookup] at h
    dsimp only at h
    split_ifs at h
    obtain rfl := Except.ok.inj h
    exact ⟨rfl, lookup_erase _ _⟩

lemma lookup_consume (h : tokens.lookup token = none) (now : ℤ) (token' : String) :
    (tokens.consume now token').1.lookup token = none := by
  unfold consume
  split
  · exact h
  · by_cases heq : token = token'
    · subst heq
      exact lookup_erase _ _
    · exact (lookup_erase_ne heq).trans h

lemma lookup_sweepOnce (h : tokens.lookup token = none) (now : ℤ) :
    (tokens.sweepOnce now).lookup token = none := by
  rw [sweepOnce, GoMap.lookup_eraseWhere_entries, h]
  rfl

lemma lookup_deleteBySID (h : tokens.lookup token = none) (sid : String) :
    (tokens.deleteBySID sid).1.lookup token = none := by
  unfold deleteBySID
  split_ifs
  · exact h
  · rw [GoMap.lookup_eraseWhere_entries, h]
    rfl

end Tokens

/-! ## Sessions -/

structure Session where
  id : String
  usid : String
  channel : String
  lgnIdntCon : String
  expiresAt : Option ℤ
  deriving DecidableEq, Repr

inductive SessionErr
  | notFound
  | expired
  deriving DecidableEq, Repr

def SessionErr.text : SessionErr → String
  | .notFound => "auth: session not found"
  | .expired => "auth: session expired"

/-- Every session is stored under its own id. -/
structure MemoryStore where
  sessions : GoMap String Session
  keyed : ∀ id sess, sessions.lookup id = some sess → sess.id = id

namespace MemoryStore

def new : MemoryStore := ⟨∅, fun _ _ h => nomatch h⟩

variable (store : MemoryStore)

def put (sess : Session) : MemoryStore where
  sessions := store.sessions.insert sess.id sess
  keyed id sess' h := by
    by_cases hid : id = sess.id
    · subst hid
      rw [AList.lookup_insert] at h
      rw [Option.some.inj h]
    · rw [AList.lookup_insert_ne hid] at h
      exact store.keyed id sess' h

def delete (id : String) : MemoryStore where
  sessions := store.sessions.erase id
  keyed id' sess h := by
    by_cases hid : id' = id
    · subst hid
      rw [AList.lookup_erase] at h
      exact nomatch h
    · rw [AList.lookup_erase_ne hid] at h
      exact store.keyed id' sess h

/-- Both critical sections of `Get` in one step. The second deletes only the session that the first
has found; `LastSeenAt` is left out. -/
def get (now : ℤ) (id : String) : MemoryStore × Except SessionErr Session :=
  match store.sessions.lookup id with
  | none => (store, .error .notFound)
  | some sess =>
    if Stores.expired sess.expiresAt now then (store.delete id, .error .expired)
    else (store, .ok sess)

def sweepOnce (now : ℤ) : MemoryStore where
  sessions := GoMap.eraseWhere (fun _ sess => Stores.expired sess.expiresAt now)
    store.sessions.entries store.sessions
  keyed id sess h := by
    rw [GoMap.lookup_eraseWhere_entries] at h
    split_ifs at h
    exact store.keyed id sess h

variable {store}

@[simp] lemma lookup_delete_self (id : String) :
    (store.delete id).sessions.lookup id = none := lookup_erase _ _

variable {id : String}

lemma lookup_delete (h : store.sessions.lookup id = none) (id' : String) :
    (store.delete id').sessions.lookup id = none := by
  by_cases hid : id = id'
  · subst hid
    exact lookup_delete_self id
  · exact (lookup_erase_ne hid).trans h

lemma lookup_get (h : store.sessions.lookup id = none) (now : ℤ) (id' : String) :
    (store.get now id').1.sessions.lookup id = none := by
  unfold get
  split
  · exact h
  · split_ifs
    · exact lookup_delete h id'
    · exact h

lemma lookup_sweepOnce (h : store.sessions.lookup id = none) (now : ℤ) :
    (store.sweepOnce now).sessions.lookup id = none := by
  show (GoMap.eraseWhere _ store.sessions.entries store.sessions).lookup id = none
  rw [GoMap.lookup_eraseWhere_entries, h]
  rfl

lemma get_ok {now : ℤ} {sess : Session} (h : (store.get now id).2 = .ok sess) :
    store.sessions.lookup sess.id = some sess := by
  unfold get at h
  rcases hlookup : store.sessions.lookup id with _ | sess'
  · rw [hlookup] at h
    exact nomatch h
  · rw [hlookup] at h
    dsimp only at h
    split_ifs at h
    obtain rfl := Except.ok.inj h
    rw [store.keyed id _ hlookup]
    exact hlookup

end MemoryStore

end Wtg.Auth.Stores
