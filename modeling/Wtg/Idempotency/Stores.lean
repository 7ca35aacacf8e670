import Mathlib.Algebra.Group.Int.Defs
import Wtg.Lib.GoMap
import Wtg.Lib.Lease
import Wtg.Lib.TtlStore

/-! # The idempotency stores

`MemoryStore` and `RedisStore` of `pkg/idempotency`. -/

namespace Wtg.Idempotency.Stores

open Lib

abbrev Hash := Vector UInt8 32

def zeroHash : Hash := .replicate 32 0

structure CachedReply where
  statusCode : ℕ
  body : List UInt8
  deriving DecidableEq, Repr

abbrev Reservation := Lease.Answer CachedReply

def makeKey (usid header : String) : String := usid ++ "|" ++ header

def effectiveTTL (ttl : ℤ) : ℤ := if ttl ≤ 0 then 5 * 60 * 10 ^ 9 else ttl

structure MemEntry where
  bodyHash : Hash
  reply : Option CachedReply
  expires : ℤ
  deriving DecidableEq

structure MemoryStore where
  ttl : ℤ
  entries : GoMap String MemEntry

def newMemoryStore (ttl : ℤ) : MemoryStore := ⟨effectiveTTL ttl, ∅⟩

namespace MemoryStore

variable (s : MemoryStore) (now : ℤ) (key : String)

def makeReservation (entries : GoMap String MemEntry) (bodyHash : Hash) :
    MemoryStore × Reservation :=
  ({ s with entries := entries.insert key ⟨bodyHash, none, now + s.ttl⟩ }, .miss)

def reserve (bodyHash : Hash) : MemoryStore × Reservation :=
  match s.entries.lookup key with
  | some e =>
    if e.expires < now then s.makeReservation now key (s.entries.erase key) bodyHash
    else if e.bodyHash ≠ bodyHash then (s, .conflict)
    else
      match e.reply with
      | some reply => (s, .cached reply)
      | none => (s, .inFlight)
  | none => s.makeReservation now key s.entries bodyHash

/-- `Commit`. -/
def commit (reply : CachedReply) : MemoryStore :=
  match s.entries.lookup key with
  | none => { s with entries := s.entries.insert key ⟨zeroHash, some reply, now + s.ttl⟩ }
  | some e =>
    { s with entries := s.entries.insert key { e with reply := some reply, expires := now + s.ttl } }

def rollback : MemoryStore :=
  match s.entries.lookup key with
  | some e => if e.reply = none then { s with entries := s.entries.erase key } else s
  | none => s

end MemoryStore

inductive Value
  | hash (h : Hash)
  | reply (r : CachedReply)
  deriving DecidableEq

abbrev DB := TtlStore String Value

def replyKey (key : String) : String := key ++ ":r"

lemma replyKey_ne (key : String) : replyKey key ≠ key := by
  intro h
  have hlen := congrArg String.length h
  rw [replyKey, String.length_append] at hlen
  simp at hlen

def milli : ℤ := 10 ^ 6

def setPX (db : DB) (now : ℤ) (key : String) (v : Value) (ttl : ℤ) : Option DB :=
  if ttl ≤ 0 then none else some (db.set key v (some (now + ttl * milli)))

def luaReserve (db : DB) (now : ℤ) (key : String) (hash : Hash) (ttl : ℤ) :
    DB × Option (ℤ × Option Value) :=
  match db.get now key with
  | none =>
    match setPX db now key (.hash hash) ttl with
    | none => (db, none)
    | some db' => (db', some (0, none))
  | some cur =>
    if cur ≠ .hash hash then (db, some (3, none))
    else
      match db.get now (replyKey key) with
      | none => (db, some (2, none))
      | some reply => (db, some (1, some reply))

def luaCommit (db : DB) (now : ℤ) (key : String) (reply : CachedReply) (ttl : ℤ) : Option DB :=
  (setPX db now (replyKey key) (.reply reply) ttl).map
    fun db' => db'.pexpire now key (now + ttl * milli)

def luaRollback (db : DB) (now : ℤ) (key : String) : DB :=
  match db.get now (replyKey key) with
  | some _ => db
  | none => db.del key

structure RedisStore where
  pfx : String
  ttl : ℤ

def newRedisStore (pfx : String) (ttl : ℤ) : RedisStore :=
  ⟨if pfx = "" then "wtg:idem:" else pfx, effectiveTTL ttl⟩

namespace RedisStore

variable (r : RedisStore) (now : ℤ) (db : DB) (key : String)

def ttlMs : ℤ := r.ttl / milli

/-- The decoding in `Reserve`. -/
def decode : Option (ℤ × Option Value) → Reservation
  | some (0, _) => .miss
  | some (1, some (.reply reply)) => .cached reply
  | some (2, _) => .inFlight
  | some (3, _) => .conflict
  | _ => .failed

def reserve (bodyHash : Hash) : DB × Reservation :=
  let (db', res) := luaReserve db now (r.pfx ++ key) bodyHash r.ttlMs
  (db', decode res)

def commit (reply : CachedReply) : DB × Bool :=
  match luaCommit db now (r.pfx ++ key) reply r.ttlMs with
  | none => (db, false)
  | some db' => (db', true)

def rollback : DB := luaRollback db now (r.pfx ++ key)

end RedisStore

end Wtg.Idempotency.Stores
