import Mathlib.Order.Basic
import Wtg.Idempotency.Stores

/-! # Who owns a reservation

The stores keep no owner of a reservation: `Commit` and `Rollback` complete whatever is under the
key. -/

namespace Wtg.Idempotency.Ownership

open Lib Idempotency.Stores Lib.Lease TtlStore

def memoryLease (key : String) : Lease.Store MemoryStore Hash CachedReply where
  reserve now s h := s.reserve now key h
  commit now s reply := s.commit now key reply
  rollback _ s := s.rollback key
  reserved _ s :=
    match s.entries.lookup key with
    | some e => e.reply.isNone
    | none => false

def entryOf : Lease.Cell Hash CachedReply → Option MemEntry
  | .free => none
  | .held h e => some ⟨h, none, e⟩
  | .kept h reply e => some ⟨h, some reply, e⟩

def MemoryFollows (key : String) (ttl : ℤ) (_ : ℤ) (s : MemoryStore)
    (c : Lease.Cell Hash CachedReply) : Prop :=
  s.ttl = ttl ∧ s.entries.lookup key = entryOf c

variable {c : Lease.Cell Hash CachedReply} {key : String} {ttl now : ℤ}

lemma not_live_of_entries (h : ∀ e, entryOf c = some e → e.expires < now) :
    ¬ c.Live (fun now e => now ≤ e) now := by
  cases c with
  | free => exact id
  | held hash e => exact (h _ rfl).not_ge
  | kept hash reply e => exact (h _ rfl).not_ge

lemma memory_reserves {s : MemoryStore} (hfol : MemoryFollows key ttl now s c) (h : Hash) :
    Reserves (fun now e => now ≤ e) ttl (MemoryFollows key ttl) now c h (s.reserve now key h) := by
  obtain ⟨httl, hc⟩ := id hfol
  have hnew : ∀ entries : GoMap String MemEntry,
      MemoryFollows key ttl now (s.makeReservation now key entries h).1 (.held h (now + ttl)) :=
    fun entries => ⟨httl, by simp [MemoryStore.makeReservation, entryOf, httl]⟩
  unfold MemoryStore.reserve
  rcases hlook : s.entries.lookup key with _ | ⟨h', reply, expires⟩
  · exact .miss (not_live_of_entries (by rw [← hc, hlook]; nofun)) (hnew _)
  rw [hlook] at hc
  dsimp only
  split_ifs with hexp hhash
  · refine .miss (not_live_of_entries fun e he => ?_) (hnew _)
    cases hc.trans he
    exact hexp
  · exact .conflict hfol
  · obtain rfl := not_not.mp hhash
    cases reply with
    | none => exact .inFlight hfol
    | some reply =>
      cases c with
      | kept h' a e => cases hc; exact .cached hfol rfl
      | _ => cases hc

lemma memory_implements (key : String) (ttl : ℤ) :
    Implements (memoryLease key) (fun now e => now ≤ e) ttl (MemoryFollows key ttl) where
  live_mono := fun hle hlive => hle.trans hlive
  live_later := fun hle hlive => hlive.trans hle
  mono := fun _ h => h
  miss := fun h => (memory_reserves h _).of_miss
  other := fun h => (memory_reserves h _).of_other
  cached := fun h => (memory_reserves h _).of_cached
  failed := fun h => (memory_reserves h _).ne_failed
  commit := by
    rintro now s h e a ⟨httl, hc⟩ -
    simp only [memoryLease, MemoryStore.commit, hc, entryOf]
    exact ⟨httl, by simp [entryOf, httl]⟩
  rollback := by
    rintro now s h e ⟨httl, hc⟩ -
    simp only [memoryLease, MemoryStore.rollback, hc, entryOf]
    exact ⟨httl, by simp [entryOf]⟩

def redisLease (r : RedisStore) (key : String) : Lease.Store DB Hash CachedReply where
  reserve now db h := r.reserve now db key h
  commit now db reply := (r.commit now db key reply).1
  rollback now db := r.rollback now db key
  reserved now db :=
    (db.get now (r.pfx ++ key)).isSome && (db.get now (replyKey (r.pfx ++ key))).isNone

def Gone (now : ℤ) (entry : Option (Value × Option ℤ)) : Prop :=
  entry = none ∨ ∃ v e, entry = some (v, some e) ∧ e ≤ now

def RedisFollows (key : String) (ttl now : ℤ) (db : DB) : Lease.Cell Hash CachedReply → Prop
  | .free => Gone now (db key) ∧ Gone now (db (replyKey key))
  | .held h e => db key = some (.hash h, some e) ∧ Gone now (db (replyKey key)) ∧ 0 < ttl
  | .kept h reply e =>
    db key = some (.hash h, some e) ∧ db (replyKey key) = some (.reply reply, some e)

variable {db : DB}

lemma Gone.get (h : Gone now (db key)) : db.get now key = none := by
  rcases h with h | ⟨v, e, h, he⟩
  · exact get_of_none h
  · exact get_of_expired h he

lemma Gone.mono {now' : ℤ} {entry : Option (Value × Option ℤ)} (hle : now ≤ now')
    (h : Gone now entry) : Gone now' entry := by
  rcases h with h | ⟨v, e, h, he⟩
  · exact .inl h
  · exact .inr ⟨v, e, h, he.trans hle⟩

variable (r : RedisStore)

lemma gone_of_get {e : ℤ} {v : Value} (h : db key = some (v, some e))
    (hget : db.get now key = none) : e ≤ now := by
  by_contra hlt
  rw [get_of_entry h (not_le.mp hlt)] at hget
  cases hget

lemma RedisFollows.of_get_none (h : RedisFollows key ttl now db c)
    (hget : db.get now key = none) :
    ¬ c.Live (fun now e => now < e) now ∧ Gone now (db (replyKey key)) := by
  cases c with
  | free => exact ⟨id, h.2⟩
  | held hash e => exact ⟨(gone_of_get h.1 hget).not_gt, h.2.1⟩
  | kept hash reply e =>
    have he := gone_of_get h.1 hget
    exact ⟨he.not_gt, .inr ⟨_, e, h.2, he⟩⟩

lemma RedisFollows.kept_of_get {h : Hash} {v : Value} (hfol : RedisFollows key ttl now db c)
    (hkey : db.get now key = some (.hash h)) (hrep : db.get now (replyKey key) = some v) :
    ∃ a e, v = .reply a ∧ c = .kept h a e := by
  cases c with
  | free => rw [hfol.1.get] at hkey; cases hkey
  | held h' e => rw [hfol.2.1.get] at hrep; cases hrep
  | kept h' a e =>
    obtain ⟨_, hk, -⟩ := get_eq_some.mp hkey
    obtain ⟨_, hr, -⟩ := get_eq_some.mp hrep
    cases hfol.1.symm.trans hk
    cases hfol.2.symm.trans hr
    exact ⟨a, e, rfl, rfl⟩

lemma redis_reserves (hfol : RedisFollows (r.pfx ++ key) r.ttlMs now db c) (h : Hash) :
    Reserves (fun now e => now < e) (r.ttlMs * milli) (RedisFollows (r.pfx ++ key) r.ttlMs) now c h
      (r.reserve now db key h) := by
  unfold RedisStore.reserve luaReserve setPX
  rcases hget : db.get now (r.pfx ++ key) with _ | cur
  · dsimp only
    split_ifs with hpos
    · refine .failed hfol ?_
      unfold milli
      omega
    · obtain ⟨hdead, hgone⟩ := hfol.of_get_none hget
      exact .miss hdead ⟨by simp, by simpa [replyKey_ne] using hgone, not_le.mp hpos⟩
  · dsimp only
    split_ifs with hcur
    · exact .conflict hfol
    · obtain rfl := not_not.mp hcur
      rcases hrep : db.get now (replyKey (r.pfx ++ key)) with _ | v
      · exact .inFlight hfol
      · obtain ⟨a, e, rfl, hc⟩ := hfol.kept_of_get hget hrep
        exact .cached hfol hc

lemma redis_commit_eq {e : ℤ} {h : Hash} (a : CachedReply) (hpos : 0 < r.ttlMs)
    (hkey : db (r.pfx ++ key) = some (.hash h, some e)) (hlive : now < e) :
    (r.commit now db key a).1 =
      (db.set (replyKey (r.pfx ++ key)) (.reply a) (some (now + r.ttlMs * milli))).set
        (r.pfx ++ key) (.hash h) (some (now + r.ttlMs * milli)) := by
  have hget : (db.set (replyKey (r.pfx ++ key)) (.reply a) (some (now + r.ttlMs * milli))).get now
      (r.pfx ++ key) = some (.hash h) := by
    refine get_of_entry ?_ hlive
    rw [set_ne _ (replyKey_ne _).symm, hkey]
  simp only [RedisStore.commit, luaCommit, setPX, if_neg (not_le.mpr hpos), Option.map_some,
    pexpire, hget]

lemma redis_implements (key : String) :
    Implements (redisLease r key) (fun now e => now < e) (r.ttlMs * milli)
      (RedisFollows (r.pfx ++ key) r.ttlMs) where
  live_mono := fun hle hlive => lt_of_le_of_lt hle hlive
  live_later := fun hle hlive => lt_of_lt_of_le hlive hle
  mono := by
    rintro now now' db (_ | ⟨h, e⟩ | ⟨h, reply, e⟩) hle hfol
    · exact ⟨hfol.1.mono hle, hfol.2.mono hle⟩
    · exact ⟨hfol.1, hfol.2.1.mono hle, hfol.2.2⟩
    · exact hfol
  miss := fun h => (redis_reserves r h _).of_miss
  other := fun h => (redis_reserves r h _).of_other
  cached := fun h => (redis_reserves r h _).of_cached
  failed := fun h => (redis_reserves r h _).ne_failed
  commit := by
    rintro now db h e a ⟨hkey, hrep, hpos⟩ hlive
    show RedisFollows _ _ now (r.commit now db key a).1 _
    rw [redis_commit_eq r a hpos hkey hlive]
    exact ⟨by simp, by rw [set_ne _ (replyKey_ne _), set_self]⟩
  rollback := by
    rintro now db h e ⟨hkey, hrep, hpos⟩ hlive
    have heq : (redisLease r key).rollback now db = db.del (r.pfx ++ key) := by
      simp only [redisLease, RedisStore.rollback, luaRollback, hrep.get]
    rw [heq]
    exact ⟨.inl (by simp), by rwa [del_ne _ (replyKey_ne _)]⟩

/-- **Ownership.** In every run, over both stores, in which leaders complete in time, a returned
reply was committed under the same hash, and a `Rollback` releases nobody else's reservation. -/
theorem reservations_owned (ttl time : ℤ) (pfx key : String)
    (acts : List (ℤ × Lease.Act Hash CachedReply)) :
    (∀ s, Transition.Along (Lease.step (memoryLease key))
          (Lease.Timely (fun now e => now ≤ e) (newMemoryStore ttl).ttl)
          (Lease.start time (newMemoryStore ttl)) acts →
        Transition.run (Lease.step (memoryLease key)) (Lease.start time (newMemoryStore ttl)) acts =
          some s →
        Lease.Owned s.log) ∧
    (∀ s, Transition.Along (Lease.step (redisLease (newRedisStore pfx ttl) key))
          (Lease.Timely (fun now e => now < e) ((newRedisStore pfx ttl).ttlMs * milli))
          (Lease.start time TtlStore.empty) acts →
        Transition.run (Lease.step (redisLease (newRedisStore pfx ttl) key))
          (Lease.start time TtlStore.empty) acts = some s →
        Lease.Owned s.log) := by
  constructor
  · intro s hgood hrun
    exact owned (memory_implements key _) ⟨rfl, rfl⟩ hgood hrun
  · intro s hgood hrun
    exact owned (redis_implements _ key) ⟨.inl rfl, .inl rfl⟩ hgood hrun

/-! ## Leaders in time and late -/

def hashOf (b : UInt8) : Hash := .replicate 32 b

def timelyRun : List (ℤ × Lease.Act Hash CachedReply) :=
  [(0, .reserve 0 (hashOf 1)), (milli, .rollback 0), (2 * milli, .reserve 1 (hashOf 2)),
    (3 * milli, .commit 1 ⟨200, [1]⟩), (4 * milli, .reserve 2 (hashOf 2))]

theorem timelyRun_owned :
    (∃ s, Transition.run (Lease.step (memoryLease "u|k"))
        (Lease.start 0 (newMemoryStore (2 * milli))) timelyRun = some s ∧ Lease.Owned s.log) ∧
    (∃ s, Transition.run (Lease.step (redisLease (newRedisStore "" (2 * milli)) "u|k"))
        (Lease.start 0 TtlStore.empty) timelyRun = some s ∧ Lease.Owned s.log) := by
  have h := reservations_owned (2 * milli) 0 "" "u|k" timelyRun
  refine ⟨⟨_, rfl, h.1 _ (by decide +kernel) rfl⟩, ⟨_, rfl, h.2 _ (by decide +kernel) rfl⟩⟩

def slowLeader (late : Lease.Act Hash CachedReply) : List (ℤ × Lease.Act Hash CachedReply) :=
  [(0, .reserve 0 (hashOf 1)), (3 * milli, .reserve 1 (hashOf 2)), (4 * milli, late),
    (4 * milli, .reserve 2 (hashOf 2))]

def logOf {σ : Type} (st : Lease.Store σ Hash CachedReply) (store : σ)
    (acts : List (ℤ × Lease.Act Hash CachedReply)) : Option (List (Lease.Event Hash CachedReply)) :=
  (Transition.run (Lease.step st) (Lease.start 0 store) acts).map Lease.Sys.log

def answersAnother : List (Lease.Event Hash CachedReply) :=
  [.reserved 0 (hashOf 1) .miss, .reserved 1 (hashOf 2) .miss, .committed 0 ⟨200, [1]⟩,
    .reserved 2 (hashOf 2) (.cached ⟨200, [1]⟩)]

def releasesAnother : List (Lease.Event Hash CachedReply) :=
  [.reserved 0 (hashOf 1) .miss, .reserved 1 (hashOf 2) .miss, .rolledBack 0 (some 1),
    .reserved 2 (hashOf 2) .miss]

lemma not_owned_answersAnother : ¬ Owned answersAnother := by
  intro h
  obtain ⟨j, hmiss, hcom⟩ := h.cached (answersAnother.take 3) [] 2 (hashOf 2) ⟨200, [1]⟩ rfl
  have hj : j = 0 := by simpa [answersAnother] using hcom
  subst hj
  exact absurd hmiss (by decide +kernel)

lemma not_owned_releasesAnother : ¬ Owned releasesAnother := fun h =>
  absurd (h.released 0 1 (by simp [releasesAnother])) (by decide)

theorem slow_leader_completes_another :
    (logOf (memoryLease "u|k") (newMemoryStore (2 * milli)) (slowLeader (.commit 0 ⟨200, [1]⟩)) =
        some answersAnother ∧
      logOf (redisLease (newRedisStore "" (2 * milli)) "u|k") TtlStore.empty
        (slowLeader (.commit 0 ⟨200, [1]⟩)) = some answersAnother ∧
      ¬ Lease.Owned answersAnother) ∧
    (logOf (memoryLease "u|k") (newMemoryStore (2 * milli)) (slowLeader (.rollback 0)) =
        some releasesAnother ∧
      logOf (redisLease (newRedisStore "" (2 * milli)) "u|k") TtlStore.empty
        (slowLeader (.rollback 0)) = some releasesAnother ∧
      ¬ Lease.Owned releasesAnother) := by
  refine ⟨⟨?_, ?_, not_owned_answersAnother⟩, ⟨?_, ?_, not_owned_releasesAnother⟩⟩
  all_goals decide +kernel

end Wtg.Idempotency.Ownership
