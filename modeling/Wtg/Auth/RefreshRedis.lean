import Mathlib.Algebra.Group.Int.Defs
import Wtg.Auth.Stores
import Wtg.Lib.Transition
import Wtg.Lib.TtlSet

/-! # Refresh tokens in Redis

`RedisRefreshStore` of `pkg/auth/refresh_redis.go`. A token is kept under a key of its own, and for
every session there is the set of its tokens, the index. -/

namespace Wtg.Auth.RefreshRedis

open Lib Auth.Stores List Option TtlStore
open Lib.Transition (Outcome)

def second : ℤ := 10 ^ 9

def milli : ℤ := 10 ^ 6

/-- How long a key lives that go-redis gives a duration: with `SET`, and with `EXPIRE`. -/
structure Durations where
  set : ℤ → ℤ
  expire : ℤ → ℤ

def unrounded : Durations := ⟨id, id⟩

/-- `SET` takes milliseconds unless the duration is in whole seconds, and `EXPIRE` takes seconds;
both are cut off, and at least 1. -/
def goRedis : Durations where
  set ttl := if ttl % second = 0 then ttl else max (ttl / milli * milli) milli
  expire ttl := max (ttl / second * second) second

def lifetime (wall : ℤ) (expiresAt : Option ℤ) : ℤ :=
  match expiresAt with
  | none => second
  | some t => if t - wall ≤ 0 then second else min (t - wall) (2 ^ 63 - 1)

structure Stored where
  rt : RefreshToken
  serial : ℕ
  deriving DecidableEq, Repr

/-- The tokens under their keys (`rt:` and the token), and the index of each session under its own
(`sid:` and the session id). -/
structure DB where
  tokens : TtlStore String Stored
  index : TtlStore String (List String)

def DB.put (d : Durations) (db : DB) (now ttl : ℤ) (e : Stored) : DB where
  tokens := db.tokens.set e.rt.token e (some (now + d.set ttl))
  index := (db.index.sadd now e.rt.sid e.rt.token).pexpire now e.rt.sid (now + d.expire ttl)

def DB.delete (db : DB) (sid : String) (tokens : List String) : DB :=
  ⟨db.tokens.delAll tokens, db.index.del sid⟩

inductive Err
  | store (e : RefreshErr)
  | redis (what : String)
  deriving DecidableEq, Repr

/-- A call under way, by the command it makes next. -/
inductive Op
  | put (t : RefreshToken) (ttl : ℤ)
  | getDel (token : String)
  | sRem (sid token : String)
  | sMembers (sid : String) (since : ℕ)
  | del (sid : String) (tokens : List String) (since : ℕ)
  deriving DecidableEq, Repr

/-- What a call returns; a `Consume` that has its token returns it whatever becomes of `SREM`. -/
inductive Event
  | stored (result : Except Err Unit)
  | consumed (result : Except Err Stored)
  | revoked (sid : String) (since : ℕ) (result : Except Err ℕ)

/-- The clock of Redis, the database, the number of `Put`s made, the calls under way, and what calls
have returned. -/
structure State where
  clock : ℤ
  db : DB
  puts : ℕ
  calls : List Op
  log : List Event

def State.init (clock : ℤ) : State := ⟨clock, ⟨.empty, .empty⟩, 0, [], []⟩

/-- A call begins, or the call `n` makes its next command, at a time of Redis and a time `client` of
its own. -/
inductive Action
  | put (now wall : ℤ) (t : Option RefreshToken)
  | consume (token : String)
  | deleteBySID (sid : String)
  | exec (now client : ℤ) (n : ℕ) (outcome : Outcome)
  deriving DecidableEq, Repr

structure Effect where
  db : DB
  puts : ℕ
  next : Option Op
  event : Option Event

def perform (d : Durations) (s : State) (client : ℤ) : Op → Effect
  | .put t ttl => ⟨s.db.put d s.clock ttl ⟨t, s.puts⟩, s.puts + 1, none, some (.stored (.ok ()))⟩
  | .getDel token =>
    match s.db.tokens.get s.clock token with
    | none => ⟨s.db, s.puts, none, some (.consumed (.error (.store .notFound)))⟩
    | some e =>
      let db := { s.db with tokens := s.db.tokens.del token }
      if expired e.rt.expiresAt client then
        ⟨db, s.puts, none, some (.consumed (.error (.store .expired)))⟩
      else ⟨db, s.puts, some (.sRem e.rt.sid token), some (.consumed (.ok e))⟩
  | .sRem sid token =>
    ⟨{ s.db with index := s.db.index.srem s.clock sid token }, s.puts, none, none⟩
  | .sMembers sid since =>
    match s.db.index.smembers s.clock sid with
    | [] => ⟨s.db, s.puts, none, some (.revoked sid since (.ok 0))⟩
    | tokens => ⟨s.db, s.puts, some (.del sid tokens since), none⟩
  | .del sid tokens since =>
    ⟨s.db.delete sid tokens, s.puts, none, some (.revoked sid since (.ok tokens.length))⟩

def Op.failure : Op → Option Event
  | .put _ _ => some (.stored (.error (.redis "auth: redis Put: ")))
  | .getDel _ => some (.consumed (.error (.redis "auth: redis Consume: ")))
  | .sRem _ _ => none
  | .sMembers sid since => some (.revoked sid since (.error (.redis "auth: SMembers: ")))
  | .del sid _ since => some (.revoked sid since (.error (.redis "auth: pipe Exec: ")))

def State.after (s : State) (op : Op) (r : Effect) : Outcome → State
  | .failed => { s with log := s.log ++ op.failure.toList }
  | .unanswered => { s with db := r.db, puts := r.puts, log := s.log ++ op.failure.toList }
  | .done => { s with db := r.db, puts := r.puts, calls := s.calls ++ r.next.toList
                      log := s.log ++ r.event.toList }

def step (d : Durations) (s : State) : Action → Option State
  | .put now wall t =>
    match t.filter fun t => t.token ≠ "" with
    | none => some { s with log := s.log ++ [.stored (.error (.store .tokenRequired))] }
    | some t =>
      let t' := { t with issuedAt := some (t.issuedAt.getD now) }
      some { s with calls := s.calls ++ [.put t' (lifetime wall t.expiresAt)] }
  | .consume token =>
    if token = "" then some { s with log := s.log ++ [.consumed (.error (.store .notFound))] }
    else some { s with calls := s.calls ++ [.getDel token] }
  | .deleteBySID sid => some { s with calls := s.calls ++ [.sMembers sid s.puts] }
  | .exec now client n outcome =>
    if now < s.clock then none
    else
      match s.calls[n]? with
      | none => none
      | some op =>
        let s := { s with clock := now, calls := s.calls.eraseIdx n }
        some (s.after op (perform d s client op) outcome)

/-- A token that is consumed after its session was revoked was put after the revocation had
started. -/
def Respects : Event → Event → Prop
  | .revoked sid since (.ok _), .consumed (.ok e) => e.rt.sid = sid → since ≤ e.serial
  | _, _ => True

def Intact (db : DB) (now : ℤ) (sid : String) : Prop :=
  db.index.get now sid = none →
    ∀ token ∈ db.index.listed sid, ∀ e ∈ db.tokens.get now token, e.rt.sid ≠ sid

def Op.Clear (t : RefreshToken) : Op → Prop
  | .sRem sid token => ¬(sid = t.sid ∧ token = t.token)
  | .del sid _ _ => sid ≠ t.sid
  | .put _ _ | .getDel _ | .sMembers _ _ => True

def Op.Guard (s : State) (now : ℤ) : Op → Prop
  | .put t _ => Intact s.db now t.sid ∧ ∀ op ∈ s.calls, op.Clear t
  | .sMembers sid _ => Intact s.db now sid
  | .getDel _ | .sRem _ _ | .del _ _ _ => True

/-- **A guarded step**: a `Put`, and the reading of an index, find the index of the session intact,
and a `Put` does not come between the commands of a call that takes its token off the index. -/
def Guarded (s : State) : Action → Prop
  | .exec now _ n outcome => outcome ≠ .failed → ∀ op ∈ s.calls[n]?, op.Guard s now
  | .put _ _ _ | .consume _ | .deleteBySID _ => True

instance : ∀ a b, Decidable (Respects a b)
  | .revoked _ _ (.ok _), .consumed (.ok _) => inferInstanceAs (Decidable (_ → _))
  | .revoked _ _ (.ok _), .consumed (.error _) | .revoked _ _ (.ok _), .stored _
  | .revoked _ _ (.ok _), .revoked _ _ _ => .isTrue trivial
  | .revoked _ _ (.error _), _ | .stored _, _ | .consumed _, _ => .isTrue trivial

instance (db : DB) (now : ℤ) (sid : String) : Decidable (Intact db now sid) :=
  inferInstanceAs (Decidable (_ → _))

instance (t : RefreshToken) : ∀ op : Op, Decidable (op.Clear t)
  | .sRem _ _ => inferInstanceAs (Decidable (¬ _))
  | .del _ _ _ => inferInstanceAs (Decidable (_ ≠ _))
  | .put _ _ | .getDel _ | .sMembers _ _ => .isTrue trivial

instance (s : State) (now : ℤ) : ∀ op : Op, Decidable (op.Guard s now)
  | .put _ _ => inferInstanceAs (Decidable (_ ∧ _))
  | .sMembers sid _ => inferInstanceAs (Decidable (Intact s.db now sid))
  | .getDel _ | .sRem _ _ | .del _ _ _ => .isTrue trivial

instance (s : State) : ∀ a, Decidable (Guarded s a)
  | .exec _ _ _ _ => inferInstanceAs (Decidable (_ → _))
  | .put _ _ _ | .consume _ | .deleteBySID _ => .isTrue trivial

def State.live (s : State) : String → Option Stored := s.db.tokens.get s.clock

/-- What a call under way relies on: a token that `Consume` is about to take off the index is not
there again, and what `DeleteBySID` is about to delete is all that its session has. -/
def Op.Sound (live : String → Option Stored) (puts : ℕ) : Op → Prop
  | .sRem sid token => ∀ e, live token = some e → e.rt.sid ≠ sid
  | .sMembers _ since => since ≤ puts
  | .del sid tokens since =>
    since ≤ puts ∧ ∀ token e, live token = some e → e.rt.sid = sid → token ∈ tokens
  | .put _ _ | .getDel _ => True

def Event.Holds (live : String → Option Stored) (puts : ℕ) : Event → Prop
  | .revoked sid since (.ok _) =>
    since ≤ puts ∧ ∀ token e, live token = some e → e.rt.sid = sid → since ≤ e.serial
  | .revoked _ _ (.error _) | .stored _ | .consumed _ => True

structure Inv (s : State) : Prop where
  indexed : ∀ token e, s.live token = some e → token ∈ s.db.index.listed e.rt.sid
  calls : ∀ op ∈ s.calls, op.Sound s.live s.puts
  holds : ∀ ev ∈ s.log, ev.Holds s.live s.puts
  respects : s.log.Pairwise Respects

variable {s s' : State} {op : Op} {ev : Event}

lemma inv_init (clock : ℤ) : Inv (State.init clock) where
  indexed _ _ h := nomatch (get_of_none rfl).symm.trans h
  calls := nofun
  holds := nofun
  respects := List.Pairwise.nil

/-! ## With fewer tokens -/

section

variable {live live' : String → Option Stored} {puts : ℕ}
  (hlive : ∀ token e, live' token = some e → live token = some e)

include hlive

lemma Op.Sound.fewer (h : op.Sound live puts) : op.Sound live' puts := by
  cases op with
  | sRem sid token => exact fun e he => h e (hlive token e he)
  | sMembers sid since => exact h
  | del sid tokens since => exact ⟨h.1, fun token e he => h.2 token e (hlive token e he)⟩
  | put | getDel => trivial

lemma Event.Holds.fewer (h : ev.Holds live puts) : ev.Holds live' puts := by
  match ev, h with
  | .revoked sid since (.ok n), h =>
    exact ⟨h.1, fun token e he => h.2 token e (hlive token e he)⟩
  | .revoked _ _ (.error _), _ | .stored _, _ | .consumed _, _ => trivial

end

lemma Inv.fewer (h : Inv s) (hlive : ∀ token e, s'.live token = some e → s.live token = some e)
    (hindexed : ∀ token e, s'.live token = some e → token ∈ s.db.index.listed e.rt.sid →
      token ∈ s'.db.index.listed e.rt.sid)
    (hcalls : ∀ op ∈ s'.calls, op ∈ s.calls) (hputs : s'.puts = s.puts) (hlog : s'.log = s.log) :
    Inv s' where
  indexed token e he := hindexed token e he (h.indexed token e (hlive token e he))
  calls op hop := by
    rw [hputs]
    exact (h.calls op (hcalls op hop)).fewer hlive
  holds ev hev := by
    rw [hputs]
    exact (h.holds ev (hlog ▸ hev)).fewer hlive
  respects := hlog ▸ h.respects

lemma Inv.addCall (h : Inv s) (hop : op.Sound s.live s.puts) :
    Inv { s with calls := s.calls ++ [op] } :=
  ⟨h.indexed, forall_concat h.calls hop, h.holds, h.respects⟩

lemma Inv.addEvent (h : Inv s) (hev : ev.Holds s.live s.puts)
    (hresp : ∀ ev' ∈ s.log, Respects ev' ev) : Inv { s with log := s.log ++ [ev] } :=
  ⟨h.indexed, h.calls, forall_concat h.holds hev, pairwise_concat h.respects hresp⟩

def Event.Empty : Event → Prop
  | .consumed (.ok _) => False
  | .consumed (.error _) | .stored _ | .revoked _ _ _ => True

lemma Event.Empty.respects (h : ev.Empty) (ev' : Event) : Respects ev' ev := by
  match ev', ev, h with
  | .revoked _ _ (.ok _), .consumed (.error _), _ | .revoked _ _ (.ok _), .stored _, _
  | .revoked _ _ (.ok _), .revoked _ _ _, _ => trivial
  | .revoked _ _ (.error _), _, _ | .stored _, _, _ | .consumed _, _, _ => trivial

lemma Inv.addEmpty (h : Inv s) (hev : ev.Holds s.live s.puts) (hempty : ev.Empty) :
    Inv { s with log := s.log ++ [ev] } :=
  h.addEvent hev fun ev' _ => hempty.respects ev'

lemma Inv.failure (h : Inv s) (op : Op) : Inv { s with log := s.log ++ op.failure.toList } := by
  cases op with
  | sRem sid token =>
    simp only [Op.failure, toList_none, append_nil]
    exact h
  | put | getDel | sMembers | del =>
    exact h.addEmpty trivial trivial

variable {d : Durations} {client : ℤ} {sid : String} {e : Stored}

lemma Inv.mem_smembers (h : Inv s) (hintact : Intact s.db s.clock sid) {token : String}
    (he : s.live token = some e) (hsid : e.rt.sid = sid) :
    token ∈ s.db.index.smembers s.clock sid := by
  have hlisted := h.indexed token e he
  rw [hsid] at hlisted
  rcases hget : s.db.index.get s.clock sid with _ | l
  · exact absurd hsid (hintact hget token hlisted e he)
  · rw [smembers_eq_listed hget]
    exact hlisted

lemma live_put {t : RefreshToken} {ttl : ℤ} {token : String}
    (he : (s.db.put d s.clock ttl ⟨t, s.puts⟩).tokens.get s.clock token = some e) :
    token = t.token ∧ e = ⟨t, s.puts⟩ ∨ token ≠ t.token ∧ s.live token = some e := by
  by_cases htoken : token = t.token
  · subst htoken
    obtain ⟨x, hx, -⟩ := get_eq_some.mp he
    have hentry := some.inj ((set_self ..).symm.trans hx)
    exact .inl ⟨rfl, (Prod.mk.inj hentry).1.symm⟩
  · refine .inr ⟨htoken, ?_⟩
    rw [← he]
    exact (get_congr (set_ne _ htoken ..) _).symm

lemma Inv.put (h : Inv s) {t : RefreshToken} {ttl : ℤ} (hintact : Intact s.db s.clock t.sid)
    (hclear : ∀ op ∈ s.calls, op.Clear t) :
    Inv { s with db := s.db.put d s.clock ttl ⟨t, s.puts⟩, puts := s.puts + 1 } := by
  refine ⟨fun token e he => ?_, fun op hop => ?_, fun ev hev => ?_, h.respects⟩
  · by_cases hsid : e.rt.sid = t.sid
    · rw [hsid]
      refine (mem_listed_sadd_pexpire ..).mpr ?_
      rcases live_put he with ⟨htoken, -⟩ | ⟨-, hold⟩
      · exact .inl htoken
      · exact .inr (h.mem_smembers hintact hold hsid)
    · rcases live_put he with ⟨-, rfl⟩ | ⟨-, hold⟩
      · exact absurd rfl hsid
      · have hsame : (s.db.put d s.clock ttl ⟨t, s.puts⟩).index e.rt.sid = s.db.index e.rt.sid :=
          (pexpire_ne _ hsid ..).trans (sadd_ne hsid ..)
        show token ∈ (s.db.put d s.clock ttl ⟨t, s.puts⟩).index.listed e.rt.sid
        rw [listed_congr hsame]
        exact h.indexed token e hold
  · have hsound := h.calls op hop
    have hop' := hclear op hop
    cases op with
    | sRem sid token =>
      intro e he hsid
      rcases live_put he with ⟨rfl, rfl⟩ | ⟨-, hold⟩
      · exact hop' ⟨hsid.symm, rfl⟩
      · exact hsound e hold hsid
    | sMembers sid since => exact Nat.le_succ_of_le hsound
    | del sid tokens since =>
      refine ⟨Nat.le_succ_of_le hsound.1, fun token e he hsid => ?_⟩
      rcases live_put he with ⟨-, rfl⟩ | ⟨-, hold⟩
      · exact absurd hsid.symm hop'
      · exact hsound.2 token e hold hsid
    | put | getDel => trivial
  · have hholds := h.holds ev hev
    match ev, hholds with
    | .revoked sid since (.ok n), hholds =>
      refine ⟨Nat.le_succ_of_le hholds.1, fun token e he hsid => ?_⟩
      rcases live_put he with ⟨-, rfl⟩ | ⟨-, hold⟩
      · exact hholds.1
      · exact hholds.2 token e hold hsid
    | .revoked _ _ (.error _), _ | .stored _, _ | .consumed _, _ => trivial

lemma Inv.getDel (h : Inv s) (token : String) :
    Inv { s with db := { s.db with tokens := s.db.tokens.del token } } := by
  refine h.fewer (fun token' e he => ?_) (fun _ _ _ hlisted => hlisted) (fun _ hop => hop) rfl rfl
  by_cases htoken : token' = token
  · subst htoken
    exact nomatch (get_of_none (del_self ..)).symm.trans he
  · exact (get_congr (del_ne _ htoken) _).symm.trans he

variable {sid token : String}

lemma Inv.sRem (h : Inv s)
    (hsound : (Op.sRem sid token).Sound s.live s.puts) :
    Inv { s with db := { s.db with index := s.db.index.srem s.clock sid token } } := by
  refine h.fewer (fun _ _ he => he) (fun token' e he hlisted => ?_) (fun _ hop => hop) rfl rfl
  by_cases hsid : e.rt.sid = sid
  · have htoken : token' ≠ token := by
      rintro rfl
      exact hsound e he hsid
    show token' ∈ (s.db.index.srem s.clock sid token).listed e.rt.sid
    rw [hsid] at hlisted ⊢
    exact mem_listed_srem hlisted htoken
  · show token' ∈ (s.db.index.srem s.clock sid token).listed e.rt.sid
    rw [listed_congr (srem_ne hsid ..)]
    exact hlisted

variable {tokens : List String}

lemma live_delete
    (he : (s.db.delete sid tokens).tokens.get s.clock token = some e) :
    token ∉ tokens ∧ s.live token = some e := by
  have hkey := delAll_eq (k := token) tokens s.db.tokens
  by_cases htoken : token ∈ tokens
  · rw [if_pos htoken] at hkey
    exact nomatch (get_of_none hkey).symm.trans he
  · rw [if_neg htoken] at hkey
    exact ⟨htoken, (get_congr hkey _).symm.trans he⟩

lemma Inv.delete (h : Inv s) {since : ℕ}
    (hsound : (Op.del sid tokens since).Sound s.live s.puts) :
    Inv { s with db := s.db.delete sid tokens } ∧
      ∀ token e, (s.db.delete sid tokens).tokens.get s.clock token = some e → e.rt.sid ≠ sid := by
  have hgone : ∀ token e, (s.db.delete sid tokens).tokens.get s.clock token = some e →
      e.rt.sid ≠ sid := by
    intro token e he hsid
    obtain ⟨htoken, hold⟩ := live_delete he
    exact htoken (hsound.2 token e hold hsid)
  refine ⟨h.fewer (fun _ _ he => (live_delete he).2) (fun token e he hlisted => ?_)
    (fun _ hop => hop) rfl rfl, hgone⟩
  show token ∈ (s.db.index.del sid).listed e.rt.sid
  rw [listed_congr (del_ne _ (hgone token e he))]
  exact hlisted

structure Fine (s : State) (r : Effect) : Prop where
  inv : Inv { s with db := r.db, puts := r.puts }
  next : ∀ op ∈ r.next, op.Sound (r.db.tokens.get s.clock) r.puts
  holds : ∀ ev ∈ r.event, ev.Holds (r.db.tokens.get s.clock) r.puts
  respects : ∀ ev ∈ r.event, ∀ ev' ∈ s.log, Respects ev' ev

lemma fine_of_empty {db : DB} {puts : ℕ} (hinv : Inv { s with db := db, puts := puts })
    (hholds : ev.Holds (db.tokens.get s.clock) puts) (hempty : ev.Empty) :
    Fine s ⟨db, puts, none, some ev⟩ where
  inv := hinv
  next := nofun
  holds _ hev := some.inj hev ▸ hholds
  respects _ hev ev' _ := some.inj hev ▸ hempty.respects ev'

lemma fine_getDel (h : Inv s) (token : String) : Fine s (perform d s client (.getDel token)) := by
  unfold perform
  dsimp only
  split
  · exact fine_of_empty h trivial trivial
  · rename_i e he
    split_ifs
    · exact fine_of_empty (h.getDel token) trivial trivial
    · refine ⟨h.getDel token, ?_, ?_, ?_⟩
      · rintro op ⟨⟩ e' he'
        cases (get_of_none (del_self ..)).symm.trans he'
      · rintro ev ⟨⟩
        trivial
      · rintro ev ⟨⟩ ev' hev'
        -- the token could be consumed, so it is not older than any revocation of its session
        have hholds := h.holds ev' hev'
        rcases ev' with _ | _ | ⟨sid, since, _ | n⟩
        case revoked.ok => exact fun hsid => hholds.2 token e he hsid
        all_goals trivial

lemma fine_sMembers (h : Inv s) {since : ℕ} (hsince : since ≤ s.puts)
    (hintact : Intact s.db s.clock sid) : Fine s (perform d s client (.sMembers sid since)) := by
  have hall : ∀ token e, s.live token = some e → e.rt.sid = sid →
      token ∈ s.db.index.smembers s.clock sid := fun _ _ => h.mem_smembers hintact
  unfold perform
  dsimp only
  split
  · rename_i hnone
    refine fine_of_empty h ⟨hsince, fun token e he hsid => ?_⟩ trivial
    have hmem := hall token e he hsid
    rw [hnone] at hmem
    exact absurd hmem not_mem_nil
  · refine ⟨h, ?_, nofun, nofun⟩
    rintro op ⟨⟩
    exact ⟨hsince, hall⟩

lemma fine_perform (d : Durations) (client : ℤ) (h : Inv s) (hsound : op.Sound s.live s.puts)
    (hguard : op.Guard s s.clock) : Fine s (perform d s client op) := by
  cases op with
  | put t ttl => exact fine_of_empty (h.put hguard.1 hguard.2) trivial trivial
  | getDel token => exact fine_getDel h token
  | sRem sid token => exact ⟨h.sRem hsound, nofun, nofun, nofun⟩
  | sMembers sid since => exact fine_sMembers h hsound hguard
  | del sid tokens since =>
    obtain ⟨hinv, hgone⟩ := h.delete hsound
    have hholds : (Event.revoked sid since (.ok tokens.length)).Holds
        ((s.db.delete sid tokens).tokens.get s.clock) s.puts :=
      ⟨hsound.1, fun token e he hsid => absurd hsid (hgone token e he)⟩
    exact fine_of_empty hinv hholds trivial

lemma Inv.after (h : Inv s) (hsound : op.Sound s.live s.puts) {outcome : Outcome}
    (hguard : outcome ≠ .failed → op.Guard s s.clock) :
    Inv (s.after op (perform d s client op) outcome) := by
  cases outcome with
  | failed => exact h.failure op
  | unanswered =>
    have hfine := fine_perform d client h hsound (hguard nofun)
    exact hfine.inv.failure op
  | done =>
    have hfine := fine_perform d client h hsound (hguard nofun)
    generalize perform d s client op = r at hfine
    obtain ⟨db, puts, next, event⟩ := r
    have hcall : Inv { s with db := db, puts := puts, calls := s.calls ++ next.toList } := by
      rcases next with _ | op'
      · simpa using hfine.inv
      · exact hfine.inv.addCall (hfine.next op' rfl)
    rcases event with _ | ev
    · simpa [State.after] using hcall
    · exact hcall.addEvent (hfine.holds ev rfl) (hfine.respects ev rfl)

lemma Inv.step (h : Inv s) {a : Action} (hguarded : Guarded s a)
    (hstep : RefreshRedis.step d s a = some s') : Inv s' := by
  revert hstep
  fun_cases RefreshRedis.step d s a <;> rintro ⟨⟩
  case case1 | case3 => exact h.addEmpty trivial trivial
  case case2 | case4 => exact h.addCall trivial
  case case5 sid =>
    have hsound : (Op.sMembers sid s.puts).Sound s.live s.puts := Nat.le_refl _
    exact h.addCall hsound
  case case8 now client n outcome hback op hop _ =>
    have hlive : ∀ token e, s.db.tokens.get now token = some e → s.live token = some e :=
      fun _ _ he => get_of_later (not_lt.mp hback) he
    have htick : Inv { s with clock := now, calls := s.calls.eraseIdx n } :=
      h.fewer hlive (fun _ _ _ hlisted => hlisted) (fun _ => mem_of_mem_eraseIdx) rfl rfl
    refine htick.after ((h.calls op (mem_of_getElem? hop)).fewer hlive) fun hmade => ?_
    have hguard := hguarded hmade op hop
    cases op with
    | put t ttl => exact ⟨hguard.1, fun op hop => hguard.2 op (mem_of_mem_eraseIdx hop)⟩
    | sMembers sid since => exact hguard
    | getDel | sRem | del => trivial

/-- **Logout revokes every refresh token**: in every guarded run, a token consumed after a
`DeleteBySID` of its session was put after that call had started. -/
theorem revoked_for_good (d : Durations) {clock : ℤ} {acts : List Action}
    (hrun : Transition.run (step d) (State.init clock) acts = some s)
    (hguarded : Transition.Along (step d) Guarded (State.init clock) acts) :
    s.log.Pairwise Respects := by
  have hinv : Inv s :=
    Transition.invariant (step d) (fun _ _ _ h hgood hstep => h.step hgood hstep)
      (inv_init clock) hguarded hrun
  exact hinv.respects

def tokenOf (token : String) (expiresAt : ℤ) : RefreshToken :=
  ⟨token, "s", "kim", "WEB", some 0, some expiresAt⟩

def putAt (now : ℤ) (t : RefreshToken) : List Action := [.put now now t, .exec now now 0 .done]

def consumeAt (now : ℤ) (token : String) : List Action :=
  [.consume token, .exec now now 0 .done, .exec now now 0 .done]

def deleteAt (now : ℤ) : List Action :=
  [.deleteBySID "s", .exec now now 0 .done, .exec now now 0 .done]

def inTurn : List Action :=
  putAt 0 (tokenOf "a" (10 * second)) ++ putAt 0 (tokenOf "b" (20 * second)) ++
    consumeAt second "a" ++ deleteAt (2 * second) ++
    putAt (3 * second) (tokenOf "c" (30 * second)) ++ consumeAt (4 * second) "c"

theorem inTurn_revoked : ∃ s,
    Transition.run (step unrounded) (State.init 0) inTurn = some s ∧ s.log.length = 6 ∧
      s.log.Pairwise Respects := by
  have hrun : ∃ s ∈ Transition.run (step unrounded) (State.init 0) inTurn, s.log.length = 6 := by
    decide +kernel
  obtain ⟨s, hs, hlength⟩ := hrun
  exact ⟨s, hs, hlength, revoked_for_good unrounded hs (by decide +kernel)⟩

def shorterLast : List Action :=
  putAt 0 (tokenOf "a" (10 * second)) ++ putAt 0 (tokenOf "b" second) ++
    [.deleteBySID "s", .exec (2 * second) 0 0 .done] ++ consumeAt (3 * second) "a"

def fraction : List Action :=
  putAt 0 (tokenOf "a" (1500 * milli)) ++ [.deleteBySID "s", .exec (1200 * milli) 0 0 .done] ++
    consumeAt (1300 * milli) "a"

/-- A token is put between the two commands of a `DeleteBySID`; the next one does not find it. -/
def putDuringDelete : List Action :=
  putAt 0 (tokenOf "a" (10 * second)) ++
    [.deleteBySID "s", .exec 0 0 0 .done, .put 0 0 (tokenOf "b" (10 * second)), .exec 0 0 1 .done,
      .exec 0 0 0 .done] ++
    [.deleteBySID "s", .exec second 0 0 .done] ++ consumeAt (2 * second) "b"

def putDuringConsume : List Action :=
  putAt 0 (tokenOf "a" (10 * second)) ++
    [.consume "a", .exec 0 0 0 .done, .put 0 0 (tokenOf "a" (10 * second)), .exec 0 0 1 .done,
      .exec 0 0 0 .done] ++
    [.deleteBySID "s", .exec second 0 0 .done] ++ consumeAt (2 * second) "a"

/-- A token is consumed after its session was revoked, although it was put before. -/
def Escapes (d : Durations) (acts : List Action) : Prop :=
  ∃ s ∈ Transition.run (step d) (State.init 0) acts, ¬s.log.Pairwise Respects

instance (d : Durations) (acts : List Action) : Decidable (Escapes d acts) :=
  inferInstanceAs (Decidable (∃ _ ∈ _, _))

theorem revoked_and_consumed : Escapes unrounded shorterLast ∧ Escapes unrounded putDuringDelete ∧
    Escapes unrounded putDuringConsume ∧ Escapes goRedis fraction := by
  decide +kernel

end Wtg.Auth.RefreshRedis
