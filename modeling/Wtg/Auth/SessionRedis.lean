import Wtg.Auth.RefreshRedis
import Wtg.Auth.SessionDocs

/-! # Sessions in Redis

`RedisStore` of `pkg/auth/redisstore.go`. `Put` is one `SET`, `Delete` is one `DEL`. -/

namespace Wtg.Auth.SessionRedis

open Lib Auth.Stores Auth.SessionDocs List Option
open Auth.RefreshRedis (Durations)
open Lib.Transition (Outcome)

inductive Err
  | store (e : SessionErr)
  | text (text : String)
  | redis (what : String)
  deriving DecidableEq

/-- A call under way, by the command it makes next: that of `Put`, the first of `Get`, its second if
the session has expired, its second if not, and that of `Delete`. -/
inductive Op
  | put (sess : WebSession) (ttl : Option ℤ)
  | get (id : String) (mark : Option ℕ)
  | clean (id : String) (mark : Option ℕ)
  | touch (id : String) (mark : Option ℕ) (sess : WebSession) (ttl : ℤ)
  | del (id : String)
  deriving DecidableEq

/-- What a call returns; for a `Get`, with its mark and the number of `Put`s of the id that have
begun. -/
inductive Event
  | stored (result : Except Err Unit)
  | got (id : String) (mark : Option ℕ) (puts : ℕ) (result : Except Err WebSession)
  | deleted (id : String) (result : Except Err Unit)

/-- The clock of Redis, the documents, for every id the `Put`s begun and how many they were at the
last `Delete`, the calls under way, and what calls have returned. -/
structure State where
  clock : ℤ
  db : TtlStore String SessionDTO
  puts : String → ℕ
  deletedAt : String → Option ℕ
  calls : List Op
  log : List Event

def State.init (clock : ℤ) : State := ⟨clock, .empty, fun _ => 0, fun _ => none, [], []⟩

/-- A call begins, or the call `n` makes its next command, at a time of Redis and a time `client` of
its own. -/
inductive Action
  | put (now : ℤ) (sess : Option WebSession)
  | get (id : String)
  | delete (id : String)
  | exec (now client : ℤ) (n : ℕ) (outcome : Outcome)
  deriving DecidableEq

structure Effect where
  db : TtlStore String SessionDTO
  deletedAt : String → Option ℕ
  next : Option Op
  event : Option Event

/-! ## Steps -/

section

variable (B : Base64) (d : Durations) (pre : String)

def State.received (s : State) (client : ℤ) (id : String) (mark : Option ℕ)
    (dto : SessionDTO) : Effect :=
  match SessionDocs.received B client dto with
  | .corrupt text =>
    ⟨s.db, s.deletedAt, none, some (.got id mark (s.puts id) (.error (.text text)))⟩
  | .expired => ⟨s.db, s.deletedAt, some (.clean id mark), none⟩
  | .session sess none => ⟨s.db, s.deletedAt, none, some (.got id mark (s.puts id) (.ok sess))⟩
  | .session sess (some ttl) => ⟨s.db, s.deletedAt, some (.touch id mark sess ttl), none⟩

def perform (s : State) (client : ℤ) : Op → Effect
  | .put sess ttl =>
    ⟨s.db.set (key pre sess.id) (toDTO B sess) (ttl.map fun t => s.clock + d.set t), s.deletedAt,
      none, some (.stored (.ok ()))⟩
  | .get id mark =>
    match s.db.get s.clock (key pre id) with
    | none =>
      ⟨s.db, s.deletedAt, none, some (.got id mark (s.puts id) (.error (.store .notFound)))⟩
    | some dto => s.received B client id mark dto
  | .clean id mark =>
    ⟨s.db.del (key pre id), s.deletedAt, none,
      some (.got id mark (s.puts id) (.error (.store .expired)))⟩
  | .touch id mark sess ttl =>
    ⟨s.db.set (key pre id) (toDTO B sess) (some (s.clock + d.set ttl)), s.deletedAt, none,
      some (.got id mark (s.puts id) (.ok sess))⟩
  | .del id =>
    ⟨s.db.del (key pre id), Function.update s.deletedAt id (some (s.puts id)), none,
      some (.deleted id (.ok ()))⟩

def State.failure (s : State) : Op → Event
  | .put _ _ => .stored (.error (.redis ""))
  | .get id mark => .got id mark (s.puts id) (.error (.redis "redis store: get: "))
  | .clean id mark => .got id mark (s.puts id) (.error (.store .expired))
  | .touch id mark sess _ => .got id mark (s.puts id) (.ok sess)
  | .del id => .deleted id (.error (.redis "redis store: del: "))

def State.after (s : State) (op : Op) (r : Effect) : Outcome → State
  | .failed => { s with log := s.log ++ [s.failure op] }
  | .unanswered => { s with db := r.db, log := s.log ++ [s.failure op] }
  | .done => { s with db := r.db, deletedAt := r.deletedAt, calls := s.calls ++ r.next.toList
                      log := s.log ++ r.event.toList }

def step (s : State) : Action → Option State
  | .put now sess =>
    match sess.filter fun sess => sess.id ≠ "" with
    | none =>
      some { s with log := s.log ++
        [.stored (.error (.text "redis store: 세션 또는 ID 가 비어있음"))] }
    | some sess =>
      match sess.lifetime now with
      | .error e => some { s with log := s.log ++ [.stored (.error (.store e))] }
      | .ok ttl =>
        some { s with puts := Function.update s.puts sess.id (s.puts sess.id + 1)
                      calls := s.calls ++ [.put (sess.stamp now) ttl] }
  | .get id => some { s with calls := s.calls ++ [.get id (s.deletedAt id)] }
  | .delete id =>
    if id = "" then
      some { s with deletedAt := Function.update s.deletedAt "" (some (s.puts ""))
                    log := s.log ++ [.deleted "" (.ok ())] }
    else some { s with calls := s.calls ++ [.del id] }
  | .exec now client n outcome =>
    if now < s.clock then none
    else
      match s.calls[n]? with
      | none => none
      | some op =>
        let s := { s with clock := now, calls := s.calls.eraseIdx n }
        some (s.after op (perform B d pre s client op) outcome)

end

/-- **A deletion is final**: a `Get` that returns a session and started after a `Delete` has seen a
`Put` begin since. -/
def Event.Final : Event → Prop
  | .got _ (some mark) puts (.ok _) => mark < puts
  | .got _ none _ _ | .got _ _ _ (.error _) | .stored _ | .deleted _ _ => True

def Op.Writes (id : String) : Op → Prop
  | .put sess _ => sess.id = id
  | .touch id' _ _ _ => id' = id
  | .get _ _ | .clean _ _ | .del _ => False

def Op.Alone (calls : List Op) : Op → Prop
  | .del id => ∀ op ∈ calls, ¬op.Writes id
  | .put _ _ | .get _ _ | .clean _ _ | .touch _ _ _ _ => True

/-- **A step that deletes nothing that is about to be written**: when the `DEL` of a `Delete` is
answered, no other call is about to write the session. -/
def Drained (s : State) : Action → Prop
  | .exec _ _ n outcome => outcome = .done → ∀ op ∈ s.calls[n]?, op.Alone s.calls
  | .put _ _ | .get _ | .delete _ => True

instance : ∀ ev : Event, Decidable ev.Final
  | .got _ (some _) _ (.ok _) => inferInstanceAs (Decidable (_ < _))
  | .got _ none _ _ | .got _ (some _) _ (.error _) | .stored _ | .deleted _ _ => .isTrue trivial

instance (id : String) : ∀ op : Op, Decidable (op.Writes id)
  | .put _ _ => inferInstanceAs (Decidable (_ = _))
  | .touch id' _ _ _ => inferInstanceAs (Decidable (id' = id))
  | .get _ _ | .clean _ _ | .del _ => .isFalse not_false

instance (calls : List Op) : ∀ op : Op, Decidable (op.Alone calls)
  | .del _ => inferInstanceAs (Decidable (∀ _ ∈ _, _))
  | .put _ _ | .get _ _ | .clean _ _ | .touch _ _ _ _ => .isTrue trivial

instance (s : State) : ∀ a, Decidable (Drained s a)
  | .exec _ _ _ _ => inferInstanceAs (Decidable (_ → _))
  | .put _ _ | .get _ | .delete _ => .isTrue trivial

/-- No session of the id is stored, and none is about to be written. -/
def Quiet (pre : String) (s : State) (id : String) : Prop :=
  s.db (key pre id) = none ∧ ∀ op ∈ s.calls, ¬op.Writes id

def Op.mark : Op → Option (String × ℕ)
  | .get id mark | .clean id mark | .touch id mark _ _ => mark.map fun p => (id, p)
  | .put _ _ | .del _ => none

structure Inv (pre : String) (s : State) : Prop where
  empty : Quiet pre s ""
  quiet : ∀ id, s.deletedAt id = some (s.puts id) → Quiet pre s id
  marks : ∀ op ∈ s.calls, ∀ id p, op.mark = some (id, p) → ∃ q, s.deletedAt id = some q ∧ p ≤ q
  bounded : ∀ id q, s.deletedAt id = some q → q ≤ s.puts id
  final : ∀ ev ∈ s.log, ev.Final

/-! ## What a step keeps -/

section

variable {B : Base64} {d : Durations} {pre : String} {s s' : State}

lemma inv_init (clock : ℤ) : Inv pre (State.init clock) where
  empty := ⟨rfl, fun _ hop => absurd hop not_mem_nil⟩
  quiet := fun _ hid => absurd hid (some_ne_none _).symm
  marks := fun _ hop => absurd hop not_mem_nil
  bounded := fun _ _ hq => absurd hq (some_ne_none _).symm
  final := fun _ hev => absurd hev not_mem_nil

lemma Inv.mark_lt (h : Inv pre s) {op : Op} (hop : op ∈ s.calls) {id : String} {p : ℕ}
    (hmark : op.mark = some (id, p)) (hid : ¬Quiet pre s id) : p < s.puts id := by
  obtain ⟨q, hq, hpq⟩ := h.marks op hop id p hmark
  have hle := h.bounded id q hq
  have hne : q ≠ s.puts id := fun heq => hid (h.quiet id (heq ▸ hq))
  omega

lemma Inv.final_got (h : Inv pre s) {op : Op} (hop : op ∈ s.calls) {id : String}
    {mark : Option ℕ} (hmark : op.mark = mark.map fun p => (id, p)) (hid : ¬Quiet pre s id)
    (sess : WebSession) : (Event.got id mark (s.puts id) (.ok sess)).Final := by
  rcases mark with _ | p
  · trivial
  · exact h.mark_lt hop hmark hid

lemma Inv.update (h : Inv pre s) (hputs : s'.puts = s.puts) (hdel : s'.deletedAt = s.deletedAt)
    (hdb : ∀ id, Quiet pre s id → s'.db (key pre id) = none)
    (hcalls : ∀ op ∈ s'.calls, op ∈ s.calls ∨
      (∀ id p, op.mark = some (id, p) → ∃ q, s.deletedAt id = some q ∧ p ≤ q) ∧
        ∀ id, op.Writes id → ¬Quiet pre s id)
    (hlog : ∀ ev ∈ s'.log, ev ∈ s.log ∨ ev.Final) : Inv pre s' := by
  have hquiet : ∀ id, Quiet pre s id → Quiet pre s' id := by
    intro id hid
    refine ⟨hdb id hid, fun op hop hwrites => ?_⟩
    rcases hcalls op hop with hop | ⟨-, hop⟩
    · exact hid.2 op hop hwrites
    · exact hop id hwrites hid
  refine ⟨hquiet _ h.empty, fun id hid => ?_, fun op hop id p hmark => ?_, fun id q hq => ?_,
    fun ev hev => (hlog ev hev).elim (h.final ev) fun hfinal => hfinal⟩
  · rw [hputs, hdel] at hid
    exact hquiet id (h.quiet id hid)
  · rw [hdel]
    rcases hcalls op hop with hop | ⟨hop, -⟩
    · exact h.marks op hop id p hmark
    · exact hop id p hmark
  · rw [hputs]
    exact h.bounded id q (hdel ▸ hq)

def State.at (s : State) (now : ℤ) (n : ℕ) : State :=
  { s with clock := now, calls := s.calls.eraseIdx n }

variable {op : Op} {id : String} {now client : ℤ} {n : ℕ}

/-- What the next command of a call does. -/
structure Does (pre : String) (s : State) (op : Op) (r : Effect) : Prop where
  db : ∀ id, Quiet pre s id → r.db (key pre id) = none
  next : ∀ op' ∈ r.next, op'.mark = op.mark ∧ ∀ id, op'.Writes id → ¬Quiet pre s id
  final : ∀ ev ∈ r.event, ev.Final
  deletedAt : (∀ id, op ≠ .del id) → r.deletedAt = s.deletedAt

lemma does_return {db : TtlStore String SessionDTO} {deletedAt : String → Option ℕ} {ev : Event}
    (hdb : ∀ id, Quiet pre s id → db (key pre id) = none) (hev : ev.Final)
    (hdel : (∀ id, op ≠ .del id) → deletedAt = s.deletedAt) :
    Does pre s op ⟨db, deletedAt, none, some ev⟩ where
  db := hdb
  next := nofun
  final _ h := some.inj h ▸ hev
  deletedAt := hdel

lemma does_go_on {op' : Op} (hmark : op'.mark = op.mark)
    (hwrites : ∀ id, op'.Writes id → ¬Quiet pre s id) :
    Does pre s op ⟨s.db, s.deletedAt, some op', none⟩ where
  db _ hid := hid.1
  next _ h := some.inj h ▸ ⟨hmark, hwrites⟩
  final := nofun
  deletedAt _ := rfl

lemma final_error {mark : Option ℕ} {puts : ℕ} {e : Err} :
    (Event.got id mark puts (.error e)).Final := by
  cases mark <;> trivial

lemma does_perform (h : Inv pre s) (hop : op ∈ s.calls) :
    Does pre s op (perform B d pre (s.at now n) client op) := by
  have hdel : ∀ id' id, Quiet pre s id → (s.db.del (key pre id')) (key pre id) = none := by
    intro id' id hid
    by_cases heq : key pre id = key pre id'
    · rw [heq, TtlStore.del_self]
    · rw [TtlStore.del_ne _ heq]
      exact hid.1
  have hset : ∀ id' dto e id, id' ≠ id → Quiet pre s id →
      (s.db.set (key pre id') dto e) (key pre id) = none := by
    intro id' dto e id hne hid
    rw [TtlStore.set_ne _ fun heq => hne (key_inj.mp heq).symm]
    exact hid.1
  cases op with
  | put sess ttl =>
    exact does_return (fun id hid => hset _ _ _ id (hid.2 _ hop) hid) trivial fun _ => rfl
  | get id mark =>
    unfold perform
    dsimp only
    split
    · exact does_return (fun _ hid => hid.1) final_error fun _ => rfl
    rename_i dto hget
    have hthere : ¬Quiet pre s id := by
      obtain ⟨e, he, -⟩ := TtlStore.get_eq_some.mp hget
      exact fun hquiet => nomatch he.symm.trans hquiet.1
    unfold State.received
    split
    · exact does_return (fun _ hid => hid.1) final_error fun _ => rfl
    · exact does_go_on rfl fun _ => False.elim
    · exact does_return (fun _ hid => hid.1) (h.final_got hop rfl hthere _) fun _ => rfl
    · exact does_go_on rfl fun _ heq => heq ▸ hthere
  | clean id mark => exact does_return (hdel id) final_error fun _ => rfl
  | touch id mark sess ttl =>
    exact does_return (fun id' hid => hset _ _ _ id' (hid.2 _ hop) hid)
      (h.final_got hop rfl (fun hquiet => hquiet.2 _ hop rfl) sess) fun _ => rfl
  | del id => exact does_return (hdel id) trivial fun hne => absurd rfl (hne id)

lemma Inv.failure_final (h : Inv pre s) (hop : op ∈ s.calls) :
    ((s.at now n).failure op).Final := by
  cases op with
  | touch id' mark sess ttl =>
    exact h.final_got hop rfl (fun hquiet => hquiet.2 _ hop rfl) sess
  | get | clean => exact final_error
  | put | del => trivial

section

variable (h : Inv pre s)
include h

lemma Inv.after (hop : op ∈ s.calls) {outcome : Outcome}
    (hdel : outcome = .done → ∀ id, op ≠ .del id) :
    Inv pre ((s.at now n).after op (perform B d pre (s.at now n) client op) outcome) := by
  have hfailed : ∀ ev ∈ s.log ++ [(s.at now n).failure op], ev ∈ s.log ∨ ev.Final := by
    exact forall_concat (fun _ => .inl) (.inr (h.failure_final hop))
  cases outcome with
  | failed =>
    exact h.update rfl rfl (fun id hid => hid.1)
      (fun op' hop' => .inl (mem_of_mem_eraseIdx hop')) hfailed
  | unanswered =>
    exact h.update rfl rfl (does_perform h hop).db
      (fun op' hop' => .inl (mem_of_mem_eraseIdx hop')) hfailed
  | done =>
    have hdoes : Does pre s op (perform B d pre (s.at now n) client op) := does_perform h hop
    refine h.update rfl (hdoes.deletedAt (hdel rfl)) hdoes.db ?_ ?_
    · intro op' hop'
      rcases mem_append.mp hop' with hop' | hop'
      · exact .inl (mem_of_mem_eraseIdx hop')
      · obtain ⟨hmark, hwrites⟩ := hdoes.next op' (mem_toList.mp hop')
        exact .inr ⟨fun id p hp => h.marks op hop id p (hmark ▸ hp), hwrites⟩
    · intro ev hev
      exact (mem_append.mp hev).imp_right fun hev => hdoes.final ev (mem_toList.mp hev)

lemma Inv.deleted (hid : Quiet pre s' id) (hputs : s'.puts = s.puts)
    (hdel : s'.deletedAt = Function.update s.deletedAt id (some (s.puts id)))
    (hdb : ∀ id', Quiet pre s id' → s'.db (key pre id') = none)
    (hcalls : ∀ op ∈ s'.calls, op ∈ s.calls) (hlog : ∀ ev ∈ s'.log, ev ∈ s.log ∨ ev.Final) :
    Inv pre s' := by
  have hquiet : ∀ id', Quiet pre s id' → Quiet pre s' id' :=
    fun id' hid' => ⟨hdb id' hid', fun op hop => hid'.2 op (hcalls op hop)⟩
  refine ⟨hquiet _ h.empty, fun id' hid' => ?_, fun op hop id' p hmark => ?_, fun id' q hq => ?_,
    fun ev hev => (hlog ev hev).elim (h.final ev) fun hfinal => hfinal⟩
  · by_cases heq : id' = id
    · exact heq ▸ hid
    · rw [hputs, hdel, Function.update_of_ne heq] at hid'
      exact hquiet id' (h.quiet id' hid')
  · obtain ⟨q, hq, hpq⟩ := h.marks op (hcalls op hop) id' p hmark
    rw [hdel]
    by_cases heq : id' = id
    · subst heq
      exact ⟨s.puts id', Function.update_self .., hpq.trans (h.bounded id' q hq)⟩
    · exact ⟨q, by rw [Function.update_of_ne heq, hq], hpq⟩
  · rw [hputs]
    rw [hdel] at hq
    by_cases heq : id' = id
    · subst heq
      rw [Function.update_self] at hq
      exact (some.inj hq).ge
    · rw [Function.update_of_ne heq] at hq
      exact h.bounded id' q hq

lemma Inv.put {sess : WebSession} (hid : sess.id ≠ "") (ttl : Option ℤ) :
    Inv pre { s with puts := Function.update s.puts sess.id (s.puts sess.id + 1)
                     calls := s.calls ++ [.put sess ttl] } := by
  have hquiet : ∀ id', id' ≠ sess.id → Quiet pre s id' →
      Quiet pre { s with puts := Function.update s.puts sess.id (s.puts sess.id + 1)
                         calls := s.calls ++ [.put sess ttl] } id' := by
    intro id' hne hid'
    exact ⟨hid'.1, forall_concat hid'.2 (Ne.symm hne)⟩
  refine ⟨hquiet _ (Ne.symm hid) h.empty, fun id' hid' => ?_, forall_concat h.marks nofun,
    fun id' q hq => ?_, h.final⟩
  · by_cases heq : id' = sess.id
    · -- the deletion is older than this `Put`
      subst heq
      have hle := h.bounded _ _ hid'
      simp only [Function.update_self] at hle
      omega
    · have hputs : Function.update s.puts sess.id (s.puts sess.id + 1) id' = s.puts id' :=
        Function.update_of_ne heq ..
      exact hquiet id' heq (h.quiet id' (hid'.trans (congrArg some hputs)))
  · have hle := h.bounded id' q hq
    by_cases heq : id' = sess.id
    · subst heq
      simp only [Function.update_self]
      omega
    · simpa only [Function.update_of_ne heq] using hle

lemma Inv.begins (hmark : ∀ id p, op.mark = some (id, p) → ∃ q, s.deletedAt id = some q ∧ p ≤ q)
    (hwrites : ∀ id, ¬op.Writes id) : Inv pre { s with calls := s.calls ++ [op] } := by
  refine h.update rfl rfl (fun id hid => hid.1) (forall_concat (fun _ => .inl) ?_) fun _ => .inl
  exact .inr ⟨hmark, fun id hid => absurd hid (hwrites id)⟩

lemma Inv.returns {ev : Event} (hev : ev.Final) : Inv pre { s with log := s.log ++ [ev] } :=
  h.update rfl rfl (fun _ hid => hid.1) (fun _ => .inl) (forall_concat (fun _ => .inl) (.inr hev))

lemma Inv.del (hop : Op.del id ∈ s.calls) (hclear : ∀ op ∈ s.calls, ¬op.Writes id) :
    Inv pre ((s.at now n).after (.del id) (perform B d pre (s.at now n) client (.del id))
      .done) := by
  have hcalls : ∀ op ∈ (s.calls.eraseIdx n ++ []), op ∈ s.calls := by
    intro op hop'
    rw [append_nil] at hop'
    exact mem_of_mem_eraseIdx hop'
  have hquiet : Quiet pre ((s.at now n).after (.del id)
      (perform B d pre (s.at now n) client (.del id)) .done) id :=
    ⟨TtlStore.del_self .., fun op hop' => hclear op (hcalls op hop')⟩
  have hdoes : Does pre s _ (perform B d pre (s.at now n) client (.del id)) := does_perform h hop
  refine h.deleted hquiet rfl rfl hdoes.db hcalls fun ev hev => ?_
  exact (mem_append.mp hev).imp_right fun hev => hdoes.final ev (mem_toList.mp hev)

lemma Inv.step {a : Action} (hdrained : Drained s a)
    (hstep : SessionRedis.step B d pre s a = some s') : Inv pre s' := by
  revert hstep
  fun_cases SessionRedis.step B d pre s a <;> rintro ⟨⟩
  case case1 => exact h.returns trivial
  case case2 => exact h.returns trivial
  case case3 now _ sess hfilter _ _ =>
    have hid : sess.id ≠ "" := by simpa using (filter_eq_some_iff.mp hfilter).2
    have hstamp : (sess.stamp now).id ≠ "" := hid
    exact h.put hstamp _
  case case4 id =>
    refine h.begins (fun id' p hmark => ?_) fun _ => not_false
    obtain ⟨q, hq, heq⟩ := map_eq_some_iff.mp hmark
    cases heq
    exact ⟨p, hq, le_rfl⟩
  case case5 =>
    -- nothing is ever stored under the empty id
    have hreturned : Inv pre { s with log := s.log ++ [.deleted "" (.ok ())] } := h.returns trivial
    exact hreturned.deleted h.empty rfl rfl (fun id' hid' => hid'.1) (fun op hop => hop)
      fun ev hev => .inl hev
  case case6 => exact h.begins nofun fun _ => not_false
  case case9 now client n outcome _ op hcall _ =>
    have hop : op ∈ s.calls := mem_of_getElem? hcall
    by_cases hdel : outcome = .done ∧ ∃ id, op = .del id
    · obtain ⟨rfl, id, rfl⟩ := hdel
      exact h.del hop (hdrained rfl (.del id) hcall)
    · exact h.after hop fun hdone id heq => hdel ⟨hdone, id, heq⟩

end

end

/-- **A deleted session stays away** from every `Get` that starts later, unless a `Put` has begun
since or a `DEL` was answered while a call was about to write. -/
theorem deleted_for_good (B : Base64) (d : Durations) (pre : String) (clock : ℤ)
    (as : List Action) (s : State)
    (hrun : Transition.run (step B d pre) (State.init clock) as = some s)
    (hdrained : Transition.Along (step B d pre) Drained (State.init clock) as) :
    ∀ ev ∈ s.log, ev.Final := by
  have hinv : Inv pre s :=
    Transition.invariant (step B d pre) (fun _ _ _ h hgood hstep => h.step hgood hstep)
      (inv_init clock) hdrained hrun
  exact hinv.final

/-! ## A read beside a delete -/

def webSession : WebSession :=
  ⟨"s1", "u1", "WEB", none, "", "", none, some 100, none, ⟨"WEB", "", ""⟩, "u1"⟩

def readOnce : List Action :=
  [.put 0 (some webSession), .exec 0 0 0 .done, .get "s1", .exec 1 1 0 .done]

/-- The `Delete` comes after both commands of the `Get`; then another `Get`. -/
def inTurn : List Action :=
  readOnce.append [.exec 2 2 0 .done, .delete "s1", .exec 3 3 0 .done, .get "s1",
    .exec 4 4 0 .done]

/-- The `Delete` comes between the two commands of the `Get`; then another `Get`. -/
def between : List Action :=
  readOnce.append [.delete "s1", .exec 2 2 1 .done, .exec 3 3 0 .done, .get "s1",
    .exec 4 4 0 .done, .exec 5 5 0 .done]

theorem inTurn_deleted : ∃ s,
    Transition.run (step base256 RefreshRedis.goRedis "wtg:auth") (State.init 0) inTurn = some s ∧
      s.log.length = 4 ∧ ∀ ev ∈ s.log, ev.Final := by
  have hrun : ∃ s ∈ Transition.run (step base256 RefreshRedis.goRedis "wtg:auth") (State.init 0)
      inTurn, s.log.length = 4 := by
    decide +kernel
  have hdrained : Transition.Along (step base256 RefreshRedis.goRedis "wtg:auth") Drained
      (State.init 0) inTurn := by
    decide +kernel
  obtain ⟨s, hs, hlength⟩ := hrun
  rw [mem_def] at hs
  exact ⟨s, hs, hlength, deleted_for_good _ _ _ _ _ _ hs hdrained⟩

theorem deleted_and_back :
    ∃ s ∈ Transition.run (step base256 RefreshRedis.goRedis "wtg:auth") (State.init 0) between,
      ∃ ev ∈ s.log, ¬ev.Final := by
  decide +kernel

end Wtg.Auth.SessionRedis
