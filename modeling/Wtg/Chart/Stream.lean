import Wtg.Lib.Transition
import Wtg.Pricing.Doc
import Wtg.Quote.Bars

/-! # The chart stream

A client of `/v1/chart/stream` that comes back names pairs, timeframes and the time since when it
has missed bars. -/

namespace Wtg.Chart.Stream

open Lib.Transition Pricing.Doc Quote.Bars List

def tfText : Timeframe → String
  | .tf1s => "1s"
  | .tf30s => "30s"
  | .tf1m => "1m"
  | .tf5m => "5m"
  | .tf15m => "15m"
  | .tf1h => "1h"
  | .tf4h => "4h"
  | .tf1d => "1d"

def supported (tf : String) : Bool := allTimeframes.any fun t => tfText t = tf

lemma supported_tfText (t : Timeframe) : supported (tfText t) = true := by
  cases t <;> decide

def splitFilter (s : String) : List String :=
  let s := trimSpace s.toList
  if s = [] then []
  else ((s.splitOn ',').map fun p => String.ofList (trimSpace p)).filter (· ≠ "")

structure Request where
  pairs : String
  tfs : String
  since : String

/-- The server: whether it has a database, `time.Parse` of RFC 3339 as Unix nanoseconds, and the
size of the queues. -/
structure Server where
  hasRepo : Bool
  parse : String → Option ℤ
  wsSendQueueSize : ℤ

def maxBackfillBars : ℕ := 500

inductive Msg (R : Type*)
  | backfill (b : Bar R)
  | live (b : Bar R)
  | done (count : ℕ) (since : String)
  deriving DecidableEq

structure Subscriber (R : Type*) where
  cap : ℕ
  pairs : List String
  tfs : List String
  pending : List (Msg R)
  enqueued : List (Msg R)
  closed : Bool

variable {R : Type*}

def newSubscriber (R : Type*) (size : ℤ) : Subscriber R :=
  ⟨if size ≤ 0 then 256 else size.toNat, [], [], [], [], false⟩

def Subscriber.matches (sub : Subscriber R) (pair tf : String) : Bool :=
  (sub.pairs = [] ∨ pair ∈ sub.pairs) ∧ (sub.tfs = [] ∨ tf ∈ sub.tfs)

/-- `Send`: not into a closed connection and not into a full channel. -/
def Subscriber.send (sub : Subscriber R) (m : Msg R) : Option (Subscriber R) :=
  if sub.closed then none
  else if sub.pending.length < sub.cap then
    some { sub with pending := sub.pending ++ [m], enqueued := sub.enqueued ++ [m] }
  else none

def sendAll : Subscriber R → List (Msg R) → Subscriber R × ℕ × Bool
  | sub, [] => (sub, 0, false)
  | sub, m :: ms =>
    match sub.send m with
    | none => (sub, 0, true)
    | some sub' =>
      let (last, n, failed) := sendAll sub' ms
      (last, n + 1, failed)

def inQuery (db : List (Bar R)) (pair tf : String) (since now : ℤ) : List (Bar R) :=
  db.filter fun b => b.pair = pair ∧ tfText b.tf = tf ∧ since ≤ b.openedAt ∧ b.openedAt < now

def queryBars (db : List (Bar R)) (pair tf : String) (since now : ℤ) (limit : ℕ) : List (Bar R) :=
  ((inQuery db pair tf since now).insertionSort fun a b => a.openedAt ≤ b.openedAt).take limit

inductive Phase
  | idle
  | connected
  | querying (since now : ℤ) (todo : List (String × String)) (sent : ℕ)
  | backfilled
  | live
  deriving DecidableEq

/-- `published` are the bars that went through the hub; `refused` says that a `Send` failed. -/
structure State (R : Type*) where
  db : List (Bar R)
  published : List (Bar R)
  sub : Subscriber R
  phase : Phase
  inHub : Bool
  refused : Bool

inductive Action (R : Type*)
  | connect
  | start (now : ℤ)
  | query (pair tf : String) (ok : Bool)
  | finish
  | add
  | drain
  | close
  | store (b : Bar R)
  | publish (b : Bar R)

/-! ## The system -/

section

variable [DecidableEq R] (srv : Server) (req : Request)

def init : State R := ⟨[], [], newSubscriber R srv.wsSendQueueSize, .idle, false, false⟩

def plan (now : ℤ) : Phase :=
  if req.since = "" then .backfilled
  else if splitFilter req.pairs = [] ∨ splitFilter req.tfs = [] then .backfilled
  else if srv.hasRepo = false then .backfilled
  else match srv.parse req.since with
    | none => .backfilled
    | some since => .querying since now
        ((splitFilter req.pairs).flatMap fun p => (splitFilter req.tfs).map fun t => (p, t)) 0

def answer (s : State R) (since now : ℤ) (pair tf : String) (ok : Bool)
    (todo : List (String × String)) (sent : ℕ) : State R :=
  if supported tf = true ∧ ok = true then
    let (sub, n, failed) := sendAll s.sub
      ((queryBars s.db pair tf since now maxBackfillBars).map .backfill)
    { s with
      sub
      refused := s.refused || failed
      phase := .querying since now (if failed then [] else todo) (sent + n) }
  else { s with phase := .querying since now todo sent }

def fanOut (s : State R) (b : Bar R) : State R :=
  if s.inHub = true ∧ s.sub.matches b.pair (tfText b.tf) = true then
    match s.sub.send (.live b) with
    | some sub => { s with sub }
    | none =>
      if s.sub.closed then { s with refused := true }
      else { s with sub := { s.sub with closed := true }, inHub := false, refused := true }
  else s

def step (s : State R) : Action R → Option (State R)
  | .connect =>
    if s.phase = .idle then
      some { s with
        sub := { newSubscriber R srv.wsSendQueueSize with
          pairs := splitFilter req.pairs, tfs := splitFilter req.tfs }
        phase := .connected }
    else none
  | .start now => if s.phase = .connected then some { s with phase := plan srv req now } else none
  | .query pair tf ok =>
    match s.phase with
    | .querying since now (p :: todo) sent =>
      if p = (pair, tf) then some (answer s since now pair tf ok todo sent) else none
    | _ => none
  | .finish =>
    match s.phase with
    | .querying _ _ [] sent =>
      match s.sub.send (.done sent req.since) with
      | some sub => some { s with sub, phase := .backfilled }
      | none => some { s with refused := true, phase := .backfilled }
    | _ => none
  | .add => if s.phase = .backfilled then some { s with phase := .live, inHub := true } else none
  | .drain =>
    match s.sub.pending with
    | [] => none
    | _ :: rest => some { s with sub := { s.sub with pending := rest } }
  | .close =>
    if s.phase = .idle then none
    else some { s with sub := { s.sub with closed := true }, inHub := false }
  | .store b =>
    if ∀ c ∈ s.db, ¬ (c.pair = b.pair ∧ c.tf = b.tf ∧ c.openedAt = b.openedAt) then
      some { s with db := s.db ++ [b] }
    else none
  | .publish b =>
    if b ∈ s.db ∧ b ∉ s.published then
      some (fanOut { s with published := s.published ++ [b] } b)
    else none

/-- The connection stays open, nothing is refused and a query stays within its limit. -/
def Calm (s : State R) (a : Action R) : Prop :=
  (match a with
    | .close => False
    | .query pair tf _ =>
      match s.phase with
      | .querying since now _ _ => (inQuery s.db pair tf since now).length ≤ maxBackfillBars
      | _ => True
    | _ => True) ∧
  (step srv req s a).all (fun s' => !s'.refused) = true

end

/-- The request asks for bars since a time, of some pairs and timeframes, and there is a database.
-/
structure Names (srv : Server) (req : Request) (since : ℤ) : Prop where
  since_ne : req.since ≠ ""
  pairs_ne : splitFilter req.pairs ≠ []
  tfs_ne : splitFilter req.tfs ≠ []
  repo : srv.hasRepo = true
  parsed : srv.parse req.since = some since

def Named (req : Request) (b : Bar R) : Prop :=
  b.pair ∈ splitFilter req.pairs ∧ tfText b.tf ∈ splitFilter req.tfs

/-- A bar the client must get: named, opened since then, and published by now or stored before the
connection. -/
def Owed (req : Request) (since : ℤ) (as : List (Action R)) (s : State R) (b : Bar R) : Prop :=
  Named req b ∧ since ≤ b.openedAt ∧
    (b ∈ s.published ∨ Once (fun before => .store b ∈ before) .connect as)

def BackfillFirst (l : List (Msg R)) : Prop :=
  l.Pairwise fun m m' => ∀ b b', m = .live b → m' ≠ .backfill b'

/-- Every bar the client must get is enqueued, backfill first. -/
def GapFree (req : Request) (since : ℤ) (as : List (Action R)) (s : State R) : Prop :=
  (∀ b, Owed req since as s b → .backfill b ∈ s.sub.enqueued ∨ .live b ∈ s.sub.enqueued) ∧
    BackfillFirst s.sub.enqueued

/-- The bar was stored when its pair and timeframe were queried, and opened before the time the
handler took as the end of the queries. -/
def Queried (as : List (Action R)) (b : Bar R) : Prop :=
  Once (fun before => .store b ∈ before ∧ ∃ now, .start now ∈ before ∧ b.openedAt < now)
    (.query b.pair (tfText b.tf) true) as

def Followed (as : List (Action R)) (b : Bar R) : Prop :=
  Once (fun before => .add ∈ before) (.publish b) as

/-- What sending `ms` does to a subscriber. -/
structure Sends (sub sub' : Subscriber R) (ms : List (Msg R)) : Prop where
  enqueued : sub'.enqueued = sub.enqueued ++ ms
  closed : sub'.closed = sub.closed
  pairs : sub'.pairs = sub.pairs
  tfs : sub'.tfs = sub.tfs

lemma sends_nil (sub : Subscriber R) : Sends sub sub [] := ⟨(append_nil _).symm, rfl, rfl, rfl⟩

lemma sends_send {sub sub' : Subscriber R} {m : Msg R} (h : sub.send m = some sub') :
    Sends sub sub' [m] := by
  unfold Subscriber.send at h
  split_ifs at h
  rw [← Option.some.inj h]
  exact ⟨rfl, rfl, rfl, rfl⟩

lemma sends_sendAll : ∀ (ms : List (Msg R)) (sub : Subscriber R), (sendAll sub ms).2.2 = false →
    Sends sub (sendAll sub ms).1 ms
  | [], sub, _ => sends_nil sub
  | m :: ms, sub, h => by
    unfold sendAll at h ⊢
    rcases hsend : sub.send m with _ | sub'
    · rw [hsend] at h
      cases h
    · rw [hsend] at h
      have hm := sends_send hsend
      have ih := sends_sendAll ms sub' h
      refine ⟨?_, ih.closed.trans hm.closed, ih.pairs.trans hm.pairs, ih.tfs.trans hm.tfs⟩
      show (sendAll sub' ms).1.enqueued = _
      rw [ih.enqueued, hm.enqueued, append_assoc]
      rfl

variable {pair tf : String} {todo : List (String × String)}

def answered (db : List (Bar R)) (since now : ℤ) (pair tf : String) (ok : Bool) : List (Bar R) :=
  if supported tf = true ∧ ok = true then queryBars db pair tf since now maxBackfillBars else []

lemma answer_eq {s : State R} {since now : ℤ} {ok : Bool} {sent : ℕ}
    (h : (answer s since now pair tf ok todo sent).refused = false) :
    ∃ sub sent', answer s since now pair tf ok todo sent =
        { s with sub, phase := .querying since now todo sent' } ∧
      Sends s.sub sub ((answered s.db since now pair tf ok).map .backfill) := by
  unfold answer answered at *
  by_cases hsend : supported tf = true ∧ ok = true
  · rw [if_pos hsend] at h ⊢
    rw [if_pos hsend]
    obtain ⟨-, hall⟩ := Bool.or_eq_false_iff.mp h
    have hspec := sends_sendAll _ _ hall
    revert hall hspec
    rcases sendAll s.sub ((queryBars s.db pair tf since now maxBackfillBars).map .backfill)
      with ⟨sub, n, failed⟩
    rintro rfl hspec
    refine ⟨sub, sent + n, ?_, hspec⟩
    dsimp only
    rw [Bool.or_false, if_neg Bool.false_ne_true]
  · rw [if_neg hsend, if_neg hsend]
    exact ⟨s.sub, sent, rfl, sends_nil _⟩

variable {b : Bar R}

lemma fanOut_cases {s : State R} (h : (fanOut s b).refused = false) :
    (s.inHub = true ∧ s.sub.matches b.pair (tfText b.tf) = true ∧
      ∃ sub, s.sub.send (.live b) = some sub ∧ fanOut s b = { s with sub }) ∨
    (¬ (s.inHub = true ∧ s.sub.matches b.pair (tfText b.tf) = true) ∧ fanOut s b = s) := by
  unfold fanOut at h ⊢
  by_cases hto : s.inHub = true ∧ s.sub.matches b.pair (tfText b.tf) = true
  · rw [if_pos hto] at h ⊢
    rcases hsend : s.sub.send (.live b) with _ | sub
    · rw [hsend] at h
      rcases hclosed : s.sub.closed with _ | _ <;> rw [hclosed] at h <;> cases h
    · exact .inl ⟨hto.1, hto.2, sub, rfl, rfl⟩
  · rw [if_neg hto]
    exact .inr ⟨hto, rfl⟩

lemma mem_queryBars {db : List (Bar R)} {since now : ℤ} {limit : ℕ}
    (h : (inQuery db pair tf since now).length ≤ limit) :
    b ∈ queryBars db pair tf since now limit ↔
      b ∈ db ∧ b.pair = pair ∧ tfText b.tf = tf ∧ since ≤ b.openedAt ∧ b.openedAt < now := by
  rw [queryBars, take_of_length_le (by rwa [length_insertionSort]),
    mem_insertionSort, inQuery, mem_filter]
  simp only [decide_eq_true_eq]

variable {sub : Subscriber R}

lemma matches_iff (hpairs : sub.pairs ≠ []) (htfs : sub.tfs ≠ []) :
    sub.matches pair tf = true ↔ pair ∈ sub.pairs ∧ tf ∈ sub.tfs := by
  simp [Subscriber.matches, hpairs, htfs]

/-! ## Whole runs -/

section

variable {srv : Server} {req : Request} {since : ℤ}

structure Inv (req : Request) (since : ℤ) (past : List (Action R)) (s : State R) : Prop where
  unclosed : s.sub.closed = false
  unrefused : s.refused = false
  stored : ∀ b, b ∈ s.db ↔ .store b ∈ past
  hub : s.inHub = true ↔ .add ∈ past
  hub_live : s.inHub = true → s.phase = .live
  started : ∀ t, .start t ∈ past → s.phase ≠ .idle ∧ s.phase ≠ .connected ∧
    ∀ since now todo sent, s.phase = .querying since now todo sent → now = t
  querying : ∀ since' now todo sent, s.phase = .querying since' now todo sent →
    since' = since ∧ .start now ∈ past
  filters : s.phase ≠ .idle →
    s.sub.pairs = splitFilter req.pairs ∧ s.sub.tfs = splitFilter req.tfs
  followed : ∀ b, .live b ∈ s.sub.enqueued ↔ Followed past b ∧ Named req b
  queried : ∀ b, .backfill b ∈ s.sub.enqueued ↔ Queried past b ∧ since ≤ b.openedAt
  ordered : BackfillFirst s.sub.enqueued

lemma inv_init : Inv req since [] (init srv : State R) := by
  refine ⟨rfl, rfl, fun b => ?_, ?_, nofun, nofun, nofun, fun h => absurd rfl h, fun b => ?_,
    fun b => ?_, List.Pairwise.nil⟩
  · simp [init]
  · simp [init]
  · exact ⟨nofun, fun h => absurd h.1 (not_once_nil _ _)⟩
  · exact ⟨nofun, fun h => absurd h.1 (not_once_nil _ _)⟩

variable {past : List (Action R)} {s s' : State R}

def isPublish : Action R → Bool
  | .publish _ => true
  | _ => false

def isQuery : Action R → Bool
  | .query _ _ _ => true
  | _ => false

variable {a : Action R}

lemma followed_append (ha : isPublish a = false) (b : Bar R) :
    Followed (past ++ [a]) b ↔ Followed past b := by
  rw [Followed, once_append_singleton]
  refine ⟨fun h => h.elim id fun h => ?_, .inl⟩
  rw [h.1] at ha
  cases ha

lemma queried_append (ha : isQuery a = false) (b : Bar R) :
    Queried (past ++ [a]) b ↔ Queried past b := by
  rw [Queried, once_append_singleton]
  refine ⟨fun h => h.elim id fun h => ?_, .inl⟩
  rw [h.1] at ha
  cases ha

lemma Followed.add_mem (h : Followed past b) : .add ∈ past := by
  obtain ⟨before, after, rfl, hadd⟩ := h
  exact mem_append_left _ hadd

lemma Queried.start_mem (h : Queried past b) : ∃ t, .start t ∈ past := by
  obtain ⟨before, after, rfl, -, t, ht, -⟩ := h
  exact ⟨t, mem_append_left _ ht⟩

section

variable (h : Inv req since past s)
include h

lemma Inv.no_live (hhub : ¬ s.inHub = true) (b : Bar R) : .live b ∉ s.sub.enqueued :=
  fun hb => hhub (h.hub.mpr ((h.followed b).mp hb).1.add_mem)

lemma Inv.not_queried (hphase : s.phase = .idle ∨ s.phase = .connected) (b : Bar R) :
    ¬ Queried past b := by
  intro hb
  obtain ⟨t, ht⟩ := hb.start_mem
  obtain ⟨hidle, hconnected, -⟩ := h.started t ht
  exact hphase.elim hidle hconnected

lemma Inv.not_inHub (hphase : s.phase ≠ .live) : ¬ s.inHub = true :=
  fun hin => hphase (h.hub_live hin)

lemma Inv.querying_append (a : Action R) :
    ∀ since' now todo sent, s.phase = .querying since' now todo sent →
      since' = since ∧ .start now ∈ past ++ [a] := fun _ _ _ _ heq =>
  (h.querying _ _ _ _ heq).imp_right (mem_append_left _)

lemma Inv.filters_sends {ms : List (Msg R)} (hsends : Sends s.sub sub ms) (hne : s.phase ≠ .idle) :
    sub.pairs = splitFilter req.pairs ∧ sub.tfs = splitFilter req.tfs :=
  (h.filters hne).imp hsends.pairs.trans hsends.tfs.trans

lemma Inv.followed_append (ha : isPublish a = false) (b : Bar R) :
    .live b ∈ s.sub.enqueued ↔ Followed (past ++ [a]) b ∧ Named req b := by
  rw [Stream.followed_append ha]
  exact h.followed b

lemma Inv.queried_append (ha : isQuery a = false) (b : Bar R) :
    .backfill b ∈ s.sub.enqueued ↔ Queried (past ++ [a]) b ∧ since ≤ b.openedAt := by
  rw [Stream.queried_append ha]
  exact h.queried b

lemma inv_connect (hphase : s.phase = .idle) :
    Inv req since (past ++ [.connect]) { s with
      sub := { newSubscriber R srv.wsSendQueueSize with
        pairs := splitFilter req.pairs, tfs := splitFilter req.tfs }
      phase := .connected } := by
  have hhub : ¬ s.inHub = true := h.not_inHub (by rw [hphase]; nofun)
  refine ⟨rfl, h.unrefused, by simpa using h.stored, by simpa using h.hub, fun hin => ?_,
    fun t ht => ?_, nofun, fun _ => ⟨rfl, rfl⟩,
    fun b => ⟨fun hb => absurd hb not_mem_nil, fun hb => ?_⟩,
    fun b => ⟨fun hb => absurd hb not_mem_nil, fun hb => ?_⟩, List.Pairwise.nil⟩
  · exact absurd hin hhub
  · exact absurd hphase (h.started t (by simpa using ht)).1
  · exact absurd (h.hub.mpr ((followed_append rfl b).mp hb.1).add_mem) hhub
  · exact absurd ((queried_append rfl b).mp hb.1) (h.not_queried (.inl hphase) b)

end

lemma plan_eq (hnames : Names srv req since) (now : ℤ) : plan srv req now = .querying since now
    ((splitFilter req.pairs).flatMap fun p => (splitFilter req.tfs).map fun t => (p, t)) 0 := by
  rw [plan, if_neg hnames.since_ne, if_neg (not_or.mpr ⟨hnames.pairs_ne, hnames.tfs_ne⟩),
    if_neg (by rw [hnames.repo]; decide), hnames.parsed]

lemma inv_start (hnames : Names srv req since) (h : Inv req since past s)
    (hphase : s.phase = .connected) (now : ℤ) :
    Inv req since (past ++ [.start now]) { s with phase := plan srv req now } := by
  rw [plan_eq hnames]
  have hhub : ¬ s.inHub = true := h.not_inHub (by rw [hphase]; nofun)
  have hnone : ∀ t, .start t ∉ past := fun t ht => (h.started t ht).2.1 hphase
  refine ⟨h.unclosed, h.unrefused, by simpa using h.stored, by simpa using h.hub, fun hin => ?_,
    fun t ht => ?_, fun since' now' todo sent heq => ?_, fun _ => ?_,
    h.followed_append rfl, h.queried_append rfl, h.ordered⟩
  · exact absurd hin hhub
  · refine ⟨nofun, nofun, fun since' now' todo sent heq => ?_⟩
    rcases mem_append.mp ht with ht | ht
    · exact absurd ht (hnone t)
    · cases heq
      cases mem_singleton.mp ht
      rfl
  · cases heq
    exact ⟨rfl, mem_append_right _ (mem_singleton_self _)⟩
  · exact h.filters (by rw [hphase]; nofun)

lemma backfillFirst_append {l : List (Msg R)} (hl : BackfillFirst l) (hlive : ∀ b, .live b ∉ l)
    (bs : List (Bar R)) : BackfillFirst (l ++ bs.map .backfill) := by
  refine pairwise_append.mpr ⟨hl, pairwise_map.mpr ?_, fun m hm m' _ b b' hb => ?_⟩
  · exact pairwise_of_forall fun _ _ b b' hb => by cases hb
  · exact absurd (hb ▸ hm) (hlive b)

lemma backfillFirst_concat {l : List (Msg R)} (hl : BackfillFirst l) {m : Msg R}
    (hm : ∀ b, m ≠ .backfill b) : BackfillFirst (l ++ [m]) :=
  Lib.pairwise_concat hl fun _ _ _ b' _ => hm b'

variable {since' now : ℤ}

section

variable (h : Inv req since past s)
include h

lemma inv_query {p : String × String} {sent : ℕ} {ok : Bool}
    (hphase : s.phase = .querying since' now (p :: todo) sent)
    (hlimit : (inQuery s.db pair tf since' now).length ≤ maxBackfillBars)
    (hrefused : (answer s since' now pair tf ok todo sent).refused = false) :
    Inv req since (past ++ [.query pair tf ok]) (answer s since' now pair tf ok todo sent) := by
  obtain ⟨sub, sent', heq, hsends⟩ := answer_eq hrefused
  rw [heq]
  have hhub : ¬ s.inHub = true := h.not_inHub (by rw [hphase]; nofun)
  obtain ⟨rfl, hstart⟩ := h.querying _ _ _ _ hphase
  refine ⟨hsends.closed.trans h.unclosed, h.unrefused, by simpa using h.stored,
    by simpa using h.hub, fun hin => ?_, fun t ht => ?_, fun since'' now' todo'' sent'' heq => ?_,
    fun _ => ?_, fun b => ?_, fun b => ?_, ?_⟩
  · exact absurd hin hhub
  · obtain ⟨-, -, hnow⟩ := h.started t (by simpa using ht)
    refine ⟨nofun, nofun, fun since'' now' todo'' sent'' heq => ?_⟩
    cases heq
    exact hnow _ _ _ _ hphase
  · cases heq
    exact ⟨rfl, mem_append_left _ hstart⟩
  · exact h.filters_sends hsends (by rw [hphase]; nofun)
  · rw [followed_append rfl, hsends.enqueued, ← h.followed b]
    simp
  · -- the rows are the bars stored by now, opened from `since` on and before `now`
    have hrow : .backfill b ∈ (answered s.db since' now pair tf ok).map Msg.backfill ↔
        ((.query pair tf ok : Action R) = .query b.pair (tfText b.tf) true ∧ .store b ∈ past ∧
          ∃ t, .start t ∈ past ∧ b.openedAt < t) ∧ since' ≤ b.openedAt := by
      rw [mem_map, answered]
      simp only [Msg.backfill.injEq, exists_eq_right, mem_ite_nil_right, mem_queryBars hlimit,
        h.stored, Action.query.injEq]
      constructor
      · rintro ⟨⟨-, rfl⟩, hst, hpair, htf, hge, hlt⟩
        exact ⟨⟨⟨hpair.symm, htf.symm, rfl⟩, hst, now, hstart, hlt⟩, hge⟩
      · rintro ⟨⟨⟨hpair, rfl, rfl⟩, hst, t, ht, hlt⟩, hge⟩
        rw [← (h.started t ht).2.2 _ _ _ _ hphase] at hlt
        exact ⟨⟨supported_tfText _, rfl⟩, hst, hpair.symm, rfl, hge, hlt⟩
    rw [Queried, once_append_singleton, or_and_right, hsends.enqueued, mem_append, hrow]
    exact or_congr (h.queried b) Iff.rfl
  · rw [hsends.enqueued]
    exact backfillFirst_append h.ordered (h.no_live hhub) _

lemma inv_finish {sent : ℕ} (hphase : s.phase = .querying since' now [] sent)
    (hsend : s.sub.send (.done sent req.since) = some sub) :
    Inv req since (past ++ [.finish]) { s with sub, phase := .backfilled } := by
  have hsends := sends_send hsend
  have hhub : ¬ s.inHub = true := h.not_inHub (by rw [hphase]; nofun)
  refine ⟨hsends.closed.trans h.unclosed, h.unrefused, by simpa using h.stored,
    by simpa using h.hub, fun hin => ?_, fun t _ => ⟨nofun, nofun, nofun⟩, nofun, fun _ => ?_,
    fun b => ?_, fun b => ?_, ?_⟩
  · exact absurd hin hhub
  · exact h.filters_sends hsends (by rw [hphase]; nofun)
  · rw [followed_append rfl, hsends.enqueued, ← h.followed b]
    simp
  · rw [queried_append rfl, hsends.enqueued, ← h.queried b]
    simp
  · rw [hsends.enqueued]
    exact backfillFirst_concat h.ordered fun _ hb => by cases hb

lemma inv_add (hphase : s.phase = .backfilled) :
    Inv req since (past ++ [.add]) { s with phase := .live, inHub := true } := by
  exact ⟨h.unclosed, h.unrefused, by simpa using h.stored, by simp, fun _ => rfl,
    fun t _ => ⟨nofun, nofun, nofun⟩, nofun, fun _ => h.filters (by rw [hphase]; nofun),
    h.followed_append rfl, h.queried_append rfl, h.ordered⟩

lemma inv_drain (rest : List (Msg R)) :
    Inv req since (past ++ [.drain]) { s with sub := { s.sub with pending := rest } } := by
  exact ⟨h.unclosed, h.unrefused, by simpa using h.stored, by simpa using h.hub, h.hub_live,
    fun t ht => h.started t (by simpa using ht), h.querying_append _, h.filters,
    h.followed_append rfl, h.queried_append rfl, h.ordered⟩

lemma inv_store (c : Bar R) :
    Inv req since (past ++ [.store c]) { s with db := s.db ++ [c] } := by
  refine ⟨h.unclosed, h.unrefused, fun b => ?_, by simpa using h.hub, h.hub_live,
    fun t ht => h.started t (by simpa using ht), h.querying_append _, h.filters,
    h.followed_append rfl, h.queried_append rfl, h.ordered⟩
  · rw [mem_append, mem_append, h.stored]
    simp

end

lemma inv_publish (hnames : Names srv req since) (h : Inv req since past s) (c : Bar R)
    (published : List (Bar R)) (hrefused : (fanOut { s with published } c).refused = false) :
    Inv req since (past ++ [.publish c]) (fanOut { s with published } c) := by
  have hfollow : ∀ b, Followed (past ++ [.publish c]) b ↔
      Followed past b ∨ (c = b ∧ .add ∈ past) := fun b => by
    rw [Followed, once_append_singleton, Action.publish.injEq]
    rfl
  -- whether the client gets it is whether it is in the hub and the bar is named
  have hmatch : s.inHub = true → (s.sub.matches c.pair (tfText c.tf) = true ↔ Named req c) := by
    intro hin
    obtain ⟨hp, ht⟩ := h.filters (by rw [h.hub_live hin]; nofun)
    rw [matches_iff (hp ▸ hnames.pairs_ne) (ht ▸ hnames.tfs_ne), hp, ht]
    rfl
  rcases fanOut_cases hrefused with ⟨hin, hmatches, sub, hsend, heq⟩ | ⟨hto, heq⟩ <;> rw [heq]
  · have hsends := sends_send hsend
    have hadd : .add ∈ past := h.hub.mp hin
    have hnamed : Named req c := (hmatch hin).mp hmatches
    refine ⟨hsends.closed.trans h.unclosed, h.unrefused, by simpa using h.stored,
      by simpa using h.hub, h.hub_live, fun t ht => h.started t (by simpa using ht),
      h.querying_append _, h.filters_sends hsends, fun b => ?_, fun b => ?_, ?_⟩
    · rw [hfollow, hsends.enqueued, mem_append, h.followed b, or_and_right, mem_singleton,
        Msg.live.injEq]
      refine or_congr Iff.rfl ⟨?_, fun hb => hb.1.1.symm⟩
      rintro rfl
      exact ⟨⟨rfl, hadd⟩, hnamed⟩
    · rw [queried_append rfl, hsends.enqueued, ← h.queried b]
      simp
    · rw [hsends.enqueued]
      exact backfillFirst_concat h.ordered fun _ hb => by cases hb
  · refine ⟨h.unclosed, h.unrefused, by simpa using h.stored, by simpa using h.hub,
      h.hub_live, fun t ht => h.started t (by simpa using ht), h.querying_append _, h.filters,
      fun b => ?_, h.queried_append rfl, h.ordered⟩
    · rw [hfollow, or_and_right, ← h.followed b]
      refine ⟨.inl, fun hb => hb.elim id fun hb => absurd ?_ hto⟩
      obtain ⟨⟨rfl, hadd⟩, hnamed⟩ := hb
      have hin := h.hub.mpr hadd
      exact ⟨hin, (hmatch hin).mpr hnamed⟩

variable [DecidableEq R]

lemma inv_step (hnames : Names srv req since) (h : Inv req since past s)
    (hcalm : Calm srv req s a) (hstep : step srv req s a = some s') :
    Inv req since (past ++ [a]) s' := by
  obtain ⟨hkind, hrefused⟩ := hcalm
  rw [hstep, Option.all_some, Bool.not_eq_true'] at hrefused
  revert hstep
  fun_cases step srv req s a <;> rintro ⟨⟩
  case case1 hphase => exact inv_connect h hphase
  case case3 now hphase => exact inv_start hnames h hphase now
  case case5 pair tf ok since' now todo sent hphase =>
    rw [hphase] at hkind
    exact inv_query h hphase hkind hrefused
  case case8 hphase sub hsend => exact inv_finish h hphase hsend
  case case9 => cases hrefused
  case case11 hphase => exact inv_add h hphase
  case case14 => exact inv_drain h _
  case case16 => exact absurd hkind id
  case case17 b _ => exact inv_store h b
  case case19 b _ => exact inv_publish hnames h b _ hrefused

end

/-- **No gap exactly where the hand-over misses nothing**: in every calm run, every bar the client
must get was stored before its query and opened before the end of the queries, or published when the
client was in the hub. -/
theorem gapFree_iff_handed_over [DecidableEq R] {srv : Server} {req : Request} {since : ℤ}
    (hnames : Names srv req since) {as : List (Action R)} {s : State R}
    (hrun : run (step srv req) (init srv) as = some s)
    (hcalm : Along (step srv req) (Calm srv req) (init srv) as) :
    GapFree req since as s ↔ ∀ b, Owed req since as s b → Queried as b ∨ Followed as b := by
  have hstep : ∀ (past : List (Action R)) s a s', Inv req since past s → Calm srv req s a →
      step srv req s a = some s' → Inv req since (past ++ [a]) s' :=
    fun past s a s' h hgood hs => inv_step hnames h hgood hs
  have hinv : Inv req since as s := history (step srv req) hstep inv_init hcalm hrun
  have hbar : ∀ b, Owed req since as s b → ((.backfill b ∈ s.sub.enqueued ∨
      .live b ∈ s.sub.enqueued) ↔ Queried as b ∨ Followed as b) := by
    rintro b ⟨hnamed, hsince, -⟩
    rw [hinv.queried b, hinv.followed b, and_iff_left hsince, and_iff_left hnamed]
  constructor
  · intro h b hb
    exact (hbar b hb).mp (h.1 b hb)
  · intro h
    exact ⟨fun b hb => (hbar b hb).mpr (h b hb), hinv.ordered⟩

def plainServer : Server := ⟨true, fun s => if s = "1970-01-01T00:00:00Z" then some 0 else none, 0⟩

def minuteBars : Request := ⟨"USD/KRW", "1m", "1970-01-01T00:00:00Z"⟩

lemma names_minuteBars : Names plainServer minuteBars 0 := by
  refine ⟨by decide, by decide, by decide, rfl, by decide⟩

def barOf (n : ℕ) : Bar ℤ :=
  ⟨"USD/KRW", .tf1m, n * minute, some ((n + 1) * minute), 1, 1, 1, 1, 1, 1, 1, 1, 1⟩

instance (s : State ℤ) (a : Action ℤ) : Decidable (Calm plainServer minuteBars s a) := by
  unfold Calm
  cases a with
  | query pair tf ok =>
    rcases s.phase <;> infer_instance
  | _ => infer_instance

def handedOver : List (Action ℤ) :=
  [.store (barOf 1), .connect, .start (3 * minute), .query "USD/KRW" "1m" true,
    .publish (barOf 1), .store (barOf 2), .finish, .add, .publish (barOf 2)]

lemma eq_of_owed_handedOver {s : State ℤ} (hpub : s.published = [barOf 1, barOf 2]) {b : Bar ℤ}
    (h : Owed minuteBars 0 handedOver s b) : b = barOf 1 ∨ b = barOf 2 := by
  obtain ⟨-, -, hb | ⟨before, after, has, hstore⟩⟩ := h
  · simpa [hpub] using hb
  · have hmem : .store b ∈ handedOver := by
      rw [has]
      exact mem_append_left _ hstore
    simpa [handedOver] using hmem

theorem gapFree_iff_handed_over_twoBars :
    ∃ s, run (step plainServer minuteBars) (init plainServer) handedOver = some s ∧
      s.phase = .live ∧ GapFree minuteBars 0 handedOver s := by
  have hsome : (run (step plainServer minuteBars) (init plainServer) handedOver).isSome := by
    decide +kernel
  obtain ⟨s, hrun⟩ := Option.isSome_iff_exists.mp hsome
  have hend : (run (step plainServer minuteBars) (init plainServer) handedOver).map
      (fun s => (s.phase, s.published)) = some (.live, [barOf 1, barOf 2]) := by decide +kernel
  rw [hrun] at hend
  obtain ⟨hphase, hpub⟩ := Prod.mk.inj (Option.some.inj hend)
  refine ⟨s, hrun, hphase, ?_⟩
  refine (gapFree_iff_handed_over names_minuteBars hrun (by decide +kernel)).mpr fun b hb => ?_
  rcases eq_of_owed_handedOver hpub hb with rfl | rfl
  · refine .inl ⟨handedOver.take 3, handedOver.drop 4, rfl, ?_, 3 * minute, ?_, by decide⟩
    · simp [handedOver]
    · simp [handedOver]
  · refine .inr ⟨handedOver.take 8, [], rfl, ?_⟩
    simp [handedOver]

def missed : List (Action ℤ) :=
  [.connect, .start (3 * minute), .query "USD/KRW" "1m" true, .store (barOf 2),
    .publish (barOf 2), .finish, .add]

theorem bar_between_query_and_add_lost :
    ∃ s, run (step plainServer minuteBars) (init plainServer) missed = some s ∧
      Along (step plainServer minuteBars) (Calm plainServer minuteBars) (init plainServer) missed ∧
      s.phase = .live ∧ Owed minuteBars 0 missed s (barOf 2) ∧ ¬ GapFree minuteBars 0 missed s := by
  have hsome : (run (step plainServer minuteBars) (init plainServer) missed).isSome := by
    decide +kernel
  obtain ⟨s, hrun⟩ := Option.isSome_iff_exists.mp hsome
  have hend : (run (step plainServer minuteBars) (init plainServer) missed).map
      (fun s => (s.phase, s.published, s.sub.enqueued)) =
        some (.live, [barOf 2], [.done 0 "1970-01-01T00:00:00Z"]) := by decide +kernel
  rw [hrun] at hend
  obtain ⟨hphase, hrest⟩ := Prod.mk.inj (Option.some.inj hend)
  obtain ⟨hpub, henq⟩ := Prod.mk.inj hrest
  have howed : Owed minuteBars 0 missed s (barOf 2) := by
    refine ⟨⟨by decide +kernel, by decide +kernel⟩, by decide, .inl ?_⟩
    rw [hpub]
    exact mem_singleton_self _
  refine ⟨s, hrun, by decide +kernel, hphase, howed, fun h => ?_⟩
  have hmem := h.1 (barOf 2) howed
  rw [henq] at hmem
  simp at hmem

end Wtg.Chart.Stream
