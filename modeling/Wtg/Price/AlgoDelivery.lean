import Wtg.Lib.Handover
import Wtg.Price.AlgoFollow

/-! # What a subscriber of the algo feed receives

A subscriber that resumes after `from_seq` should receive every later quote of the streams it asked
for once and in order, some from the rings and the others live, whatever the producer does
meanwhile. -/

namespace Wtg.Price.AlgoDelivery

open Lib Lib.Transition Quote.Envelope Price.Best Price.AlgoKeys Price.Algo List
open Price.AlgoLog Price.AlgoFollow

variable {R : Type*}

/-! ## The invariant -/

section

variable {req : AlgoSubscribeRequest} {s s' : State R}

/-- **The condition on a step**: a quote has plain names and a number that fits in 63 bits, and a
subscriber without symbols finds no forward stream. -/
def Good (req : AlgoSubscribeRequest) (s : State R) : Action R → Prop
  | .number t _ tenor _ _ => (⟨t.source, t.symbol, tenor⟩ : Stream).Plain ∧
      ((s.server.seqGens.lookup (streamKeyFor t.source t.symbol tenor)).getD 0).toNat + 1 < 2 ^ 63
  | .enumerate _ => req.sub.SpotOnly s.server.rings.keys
  | _ => True

structure Inv (req : AlgoSubscribeRequest) (s : State R) : Prop where
  logged : Logged s
  unregistered : s.phase = .start → s.ch = [] ∧ s.received = [] ∧ s.replayEndSeq = ∅
  following : s.phase ≠ .start → s.dropped = false → ∃ g, Following req s g

lemma Inv.producer (h : Inv req s) {server : AlgoStreamServer R} {stage : Stage R}
    (hlogged : Logged { s with server, stage }) (hflight : inFlight stage = inFlight s.stage) :
    Inv req { s with server, stage } := by
  refine ⟨hlogged, h.unregistered, fun hstart hdrop => ?_⟩
  obtain ⟨g, hg⟩ := h.following hstart hdrop
  exact ⟨g, { hg with split := by rw [hflight, ← hg.split] }⟩

lemma Inv.subscriber (h : Inv req s) (hstart : s.phase ≠ .start) (hlogged : Logged s')
    (hstart' : s'.phase ≠ .start) (hdropped : s'.dropped = s.dropped)
    (hfollow : ∀ g, Following req s g → ∃ g', Following req s' g') : Inv req s' := by
  refine ⟨hlogged, fun hp => absurd hp hstart', fun _ hdrop => ?_⟩
  rw [hdropped] at hdrop
  obtain ⟨g, hg⟩ := h.following hstart hdrop
  exact hfollow g hg

lemma Inv.handOut (h : Inv req s) {q : AlgoQuote R} (hstage : s.stage = .pushed q) :
    Inv req { fanout req.sub s q with stage := .idle } := by
  have hsame : (fanout req.sub s q).server = s.server ∧
      (fanout req.sub s q).emitted = s.emitted ∧ (fanout req.sub s q).phase = s.phase ∧
      (s.dropped = true → (fanout req.sub s q).dropped = true) ∧
      (s.phase = .start → fanout req.sub s q = s) := by
    fun_cases Algo.fanout req.sub s q
    case case1 hsub _ => exact ⟨rfl, rfl, rfl, id, fun hp => by simp [hp, Phase.subscribed] at hsub⟩
    case case2 hsub _ =>
      exact ⟨rfl, rfl, rfl, fun _ => rfl, fun hp => by simp [hp, Phase.subscribed] at hsub⟩
    case case3 => exact ⟨rfl, rfl, rfl, id, fun _ => rfl⟩
  obtain ⟨hserver, hemitted, hphase, hdropped, hstart⟩ := hsame
  refine ⟨(h.logged.handOut hstage).congr hserver rfl hemitted, fun hp => ?_, fun hp hdrop => ?_⟩
  · rw [show (fanout req.sub s q).phase = s.phase from hphase] at hp
    rw [hstart hp]
    exact h.unregistered hp
  · rw [show (fanout req.sub s q).phase = s.phase from hphase] at hp
    have hdrop' : s.dropped = false := by
      rcases hs : s.dropped with _ | _
      · rfl
      · exact absurd ((hdropped hs).symm.trans hdrop) (by simp)
    obtain ⟨g, hg⟩ := h.following hp hdrop'
    exact ⟨_, hg.fanout hstage hp hdrop⟩

lemma replayKey_logged (h : Logged s) (fromSeq : Int64) (key : String) (keys : List String) :
    Logged (replayKey fromSeq s key keys) ∧ (replayKey fromSeq s key keys).phase ≠ .start ∧
      (replayKey fromSeq s key keys).dropped = s.dropped := by
  have hfold : ∀ (ticks : List (AlgoQuote R)) (t : State R),
      (ticks.foldl (replayOne key) t).server = t.server ∧
        (ticks.foldl (replayOne key) t).stage = t.stage ∧
        (ticks.foldl (replayOne key) t).emitted = t.emitted ∧
        (ticks.foldl (replayOne key) t).dropped = t.dropped := by
    intro ticks
    induction ticks with
    | nil => exact fun t => ⟨rfl, rfl, rfl, rfl⟩
    | cons q ticks ih => exact fun t => ih (replayOne key t q)
  rcases hsnap : snapshot (s.server.ringFor key).2 fromSeq with ⟨ticks, oldest, gap⟩
  simp only [replayKey, hsnap]
  rcases gap with _ | _
  · obtain ⟨hserver, hstage, hemitted, hdropped⟩ :=
      hfold ticks { s with server := (s.server.ringFor key).1 }
    exact ⟨(h.ringFor key).congr hserver hstage hemitted, by simp, hdropped⟩
  · exact ⟨(h.ringFor key).congr rfl rfl rfl, by simp, rfl⟩

lemma inv_start (ringSize clientBufferSize : ℤ) :
    Inv req (start (newAlgoStreamServer (R := R) ringSize clientBufferSize)) :=
  ⟨logged_start _ ⟨rfl, rfl⟩, fun _ => ⟨rfl, rfl, rfl⟩, fun hp => absurd rfl hp⟩

end

/-! ## What was received -/

section

variable {req : AlgoSubscribeRequest} {s : State R} {g : Ghost R}

def wanted (req : AlgoSubscribeRequest) (s : State R) (key : String) : List (AlgoQuote R) :=
  (on key s.emitted).filter fun q => after req.fromSeq q && req.sub.accepts q.stream

def original (q : AlgoQuote R) : AlgoQuote R := { q with isBackfill := false }

def got (req : AlgoSubscribeRequest) (s : State R) (key : String) : List (AlgoQuote R) :=
  ((on key s.received).filter (after req.fromSeq)).map original

def inStream (key : String) (fromSeq : Int64) (q : AlgoQuote R) : Bool :=
  decide (q.key = key) && after fromSeq q

lemma inStream_iff {key : String} {fromSeq : Int64} {q : AlgoQuote R} :
    inStream key fromSeq q = true ↔ q.key = key ∧ after fromSeq q = true := by
  rw [inStream, Bool.and_eq_true, decide_eq_true_eq]

lemma filter_inStream (key : String) (fromSeq : Int64) (l : List (AlgoQuote R)) :
    l.filter (inStream key fromSeq) = (on key l).filter (after fromSeq) := by
  unfold on inStream
  rw [filter_filter]
  exact filter_congr fun q _ => Bool.and_comm _ _

variable {q : AlgoQuote R}

lemma original_of_live (h : q.isBackfill = false) : original q = q := by
  rw [original, ← h]

lemma mem_copy (h : Following req s g) (hq : q ∈ g.copy) :
    q ∈ s.emitted ∧ after req.fromSeq q = true ∧ (g.cut q.key).isSome := by
  have hon : q ∈ on q.key g.copy := mem_filter.mpr ⟨hq, by simp⟩
  rw [h.copy, Ghost.copied] at hon
  rcases hcut : g.cut q.key with _ | b
  · rw [hcut] at hon
    exact absurd hon (by simp)
  · rw [hcut] at hon
    obtain ⟨htake, hafter⟩ := mem_filter.mp hon
    exact ⟨mem_of_mem_take (mem_filter.mp htake).1, hafter, rfl⟩

lemma mem_consumed (h : Following req s g) (hq : q ∈ g.consumed) :
    q ∈ s.emitted ∧ req.sub.accepts q.stream = true := by
  have hgap : s.phase ≠ .gap := by
    intro hp
    have hnil := h.replaying (by rw [hp]; simp)
    rw [hnil] at hq
    exact absurd hq (by simp)
  have hoffered : q ∈ g.fanned.filter fun q => req.sub.accepts q.stream := by
    rw [h.offered hgap]
    exact mem_append_left _ hq
  obtain ⟨hfanned, haccepts⟩ := mem_filter.mp hoffered
  rw [h.split]
  exact ⟨mem_append_left _ (mem_append_right _ hfanned), haccepts⟩

lemma accepts_of_received (h : Following req s g) (hlog : Logged s) (hq : q ∈ s.received) :
    req.sub.accepts q.stream = true := by
  rw [h.received] at hq
  rcases mem_append.mp hq with hq | hq
  · obtain ⟨r, hr, rfl⟩ := mem_map.mp hq
    obtain ⟨hmem, -, hcut⟩ := mem_copy h hr
    exact h.sound r.stream (hlog.plain r (mem_append_left _ hmem)).1 (.inl hcut)
  · exact (mem_consumed h (mem_filter.mp hq).1).2

def kept (req : AlgoSubscribeRequest) (s : State R) (key : String) (q : AlgoQuote R) : Bool :=
  inStream key req.fromSeq q && !skipped s.replayEndSeq q

lemma got_eq (h : Following req s g) (hlog : Logged s) (key : String) :
    got req s key = on key g.copy ++ g.consumed.filter (kept req s key) := by
  have hlive : ∀ q ∈ s.emitted, original q = q := fun q hq =>
    original_of_live (hlog.plain q (mem_append_left _ hq)).2
  have hcopy : ((on key (g.copy.map AlgoQuote.backfill)).filter (after req.fromSeq)).map original =
      on key g.copy := by
    have hmap : on key (g.copy.map AlgoQuote.backfill) =
        (on key g.copy).map AlgoQuote.backfill := by
      unfold on
      rw [filter_map]
      rfl
    have hself : (on key g.copy).filter (after req.fromSeq ∘ AlgoQuote.backfill) =
        on key g.copy := by
      rw [filter_eq_self]
      intro q hq
      exact (mem_copy h (mem_filter.mp hq).1).2.1
    rw [hmap, filter_map, hself, map_map]
    refine (map_congr_left fun q hq => ?_).trans (map_id _)
    exact hlive q (mem_copy h (mem_filter.mp hq).1).1
  have hconsumed : ((on key (g.consumed.filter fun q => !skipped s.replayEndSeq q)).filter
      (after req.fromSeq)).map original = g.consumed.filter (kept req s key) := by
    rw [← filter_inStream, filter_filter]
    refine (map_congr_left fun q hq => ?_).trans (map_id _)
    exact hlive q (mem_consumed h (mem_filter.mp hq).1).1
  rw [got, h.received, on_append, filter_append, map_append, hcopy, hconsumed]

lemma sorted_inStream (h : Logged s) (key : String) (fromSeq : Int64) :
    (s.emitted.filter (inStream key fromSeq)).Pairwise fun q r => q.seq.toInt < r.seq.toInt := by
  have hall := h.numbers key
  rw [on_append] at hall
  rw [filter_inStream]
  exact hall.of_append.pairwise.filter _

variable {key : String}

lemma keep_iff (h : Following req s g) (hlog : Logged s) {b : ℕ} (hcut : g.cut key = some b)
    (hq : inStream key req.fromSeq q = true) :
    (!skipped s.replayEndSeq q) = true ↔ Handover.Above (fun q : AlgoQuote R => q.seq.toInt)
      (inStream key req.fromSeq) s.emitted b q := by
  have hcopy : on key g.copy = (s.emitted.take b).filter (inStream key req.fromSeq) := by
    rw [h.copy, Ghost.copied, hcut, filter_inStream]
  have hsorted : ((s.emitted.take b).filter (inStream key req.fromSeq)).Pairwise
      fun q r => q.seq.toInt < r.seq.toInt :=
    (sorted_inStream hlog key req.fromSeq).sublist ((take_sublist b s.emitted).filter _)
  unfold Handover.Above
  rw [skipped, (inStream_iff.mp hq).1, h.ends, hcopy]
  generalize (s.emitted.take b).filter (inStream key req.fromSeq) = l at hsorted
  rcases l.eq_nil_or_concat with rfl | ⟨l, last, rfl⟩
  · simp
  · rw [concat_eq_append] at hsorted ⊢
    have hlast : (!((l ++ [last]).getLast?.map (·.seq)).any fun e => q.seq ≤ e) = true ↔
        last.seq.toInt < q.seq.toInt := by
      simp [← Int64.lt_iff_toInt_lt]
    rw [hlast]
    refine ⟨fun hlt => forall_concat (fun r hr => ?_) hlt, fun hall =>
      hall last (mem_append_right _ (mem_singleton_self _))⟩
    exact ((pairwise_append.mp hsorted).2.2 r hr last (mem_singleton_self _)).trans hlt

lemma wanted_eq_filter (req : AlgoSubscribeRequest) (s : State R) (key : String) :
    wanted req s key = s.emitted.filter fun q =>
      inStream key req.fromSeq q && req.sub.accepts q.stream := by
  unfold wanted on inStream
  rw [filter_filter]
  refine filter_congr fun q _ => ?_
  rcases decide (q.key = key) with _ | _ <;> simp

lemma accepts_of_cut (h : Following req s g) (hlog : Logged s) (hcut : (g.cut key).isSome)
    (hq : q ∈ s.emitted) (hin : inStream key req.fromSeq q = true) :
    req.sub.accepts q.stream = true := by
  obtain ⟨rfl, -⟩ := inStream_iff.mp hin
  exact h.sound q.stream (hlog.plain q (mem_append_left _ hq)).1 (.inl hcut)

lemma wanted_eq (h : Following req s g) (hlog : Logged s) (hcut : (g.cut key).isSome) :
    wanted req s key = s.emitted.filter (inStream key req.fromSeq) := by
  rw [wanted_eq_filter]
  refine filter_congr fun q hq => ?_
  rcases hin : inStream key req.fromSeq q with _ | _
  · rfl
  · rw [accepts_of_cut h hlog hcut hq hin, Bool.and_true]

lemma got_isPrefix (h : Following req s g) (hlog : Logged s) (hlive : s.phase ≠ .live)
    (key : String) : got req s key <+: wanted req s key := by
  rw [got_eq h hlog, h.replaying hlive, filter_nil, append_nil]
  rcases hcut : g.cut key with _ | b
  · rw [h.copy, Ghost.copied, hcut]
    exact List.nil_prefix
  · have hstart := List.take_prefix b s.emitted
    rw [wanted_eq h hlog (by rw [hcut]; rfl), h.copy, Ghost.copied, hcut, filter_inStream]
    exact (hstart.filter _).filter _

def pending (req : AlgoSubscribeRequest) (s : State R) (key : String) : List (AlgoQuote R) :=
  (s.ch ++ inFlight s.stage).filter fun q =>
    inStream key req.fromSeq q && !skipped s.replayEndSeq q && req.sub.accepts q.stream

lemma kept_eq (h : Following req s g) (hlive : s.phase = .live) (key : String) :
    g.consumed.filter (kept req s key) ++ pending req s key = (s.emitted.drop g.old.length).filter
      fun q => kept req s key q && req.sub.accepts q.stream := by
  have hoffered := h.offered (by rw [hlive]; simp)
  have hdrop : s.emitted.drop g.old.length = g.fanned ++ inFlight s.stage := by
    rw [h.split, append_assoc, drop_left]
  have hconsumed : g.consumed.filter (kept req s key) =
      g.consumed.filter fun q => kept req s key q && req.sub.accepts q.stream := by
    refine filter_congr fun q hq => ?_
    rw [(mem_consumed h hq).2, Bool.and_true]
  have hfanned : ((g.consumed ++ s.ch).filter fun q =>
      kept req s key q && req.sub.accepts q.stream) =
        g.fanned.filter fun q => kept req s key q && req.sub.accepts q.stream := by
    rw [← hoffered, filter_filter]
    refine filter_congr fun q _ => ?_
    rcases req.sub.accepts q.stream with _ | _ <;> simp
  have hpending : pending req s key = (s.ch ++ inFlight s.stage).filter fun q =>
      kept req s key q && req.sub.accepts q.stream := rfl
  rw [hpending, hconsumed, ← filter_append, ← append_assoc, filter_append, hfanned,
    ← filter_append, hdrop]

/-! A stream of which nothing was replayed has no quote before the registration, and none of its
quotes is skipped. -/

lemma old_of_uncut (h : Following req s g) (hlive : s.phase = .live) (hcut : g.cut key = none) :
    (g.old.filter fun q => inStream key req.fromSeq q && req.sub.accepts q.stream) = [] := by
  rw [filter_eq_nil_iff]
  intro q hq hboth
  rw [Bool.and_eq_true, inStream_iff] at hboth
  have hcovered := h.covered (by rw [hlive]; rfl) q hq hboth.2
  rw [hlive, hboth.1.1, hcut] at hcovered
  exact absurd hcovered (by simp [todo])

lemma kept_of_uncut (h : Following req s g) (hcut : g.cut key = none) (q : AlgoQuote R) :
    kept req s key q = inStream key req.fromSeq q := by
  unfold kept
  rcases hin : inStream key req.fromSeq q with _ | _
  · rfl
  · have hends := h.ends key
    rw [h.copy, Ghost.copied, hcut] at hends
    rw [skipped, (inStream_iff.mp hin).1, hends]
    rfl

lemma got_append_pending (h : Following req s g) (hlog : Logged s) (hlive : s.phase = .live)
    (key : String) : got req s key ++ pending req s key = wanted req s key := by
  rw [got_eq h hlog, append_assoc, kept_eq h hlive, h.copy, Ghost.copied]
  rcases hcut : g.cut key with _ | b
  · have hparts : g.old ++ s.emitted.drop g.old.length = s.emitted := by
      rw [h.split, append_assoc, drop_left]
    rw [wanted_eq_filter, ← hparts, filter_append, old_of_uncut h hlive hcut, hparts]
    simp only [kept_of_uncut h hcut]
  · rw [wanted_eq h hlog (by rw [hcut]; rfl)]
    have haccepts : ∀ q ∈ s.emitted.drop g.old.length,
        (kept req s key q && req.sub.accepts q.stream) = kept req s key q := by
      intro q hq
      unfold kept
      rcases hin : inStream key req.fromSeq q with _ | _
      · rfl
      · rw [accepts_of_cut h hlog (by rw [hcut]; rfl) (mem_of_mem_drop hq) hin, Bool.and_true]
    show (on key (s.emitted.take b)).filter (after req.fromSeq) ++ _ = _
    rw [filter_congr haccepts, ← filter_inStream]
    exact Handover.copy_append_rest (fun q => q.seq.toInt) (sorted_inStream hlog key req.fromSeq)
      (h.cut_le key b hcut).1 fun q _ hin => keep_iff h hlog hcut hin

lemma Inv.complete (h : Inv req s) (hdropped : s.dropped = false) (key : String) :
    got req s key <+: wanted req s key := by
  by_cases hstart : s.phase = .start
  · rw [got, (h.unregistered hstart).2.1]
    exact List.nil_prefix
  · obtain ⟨g, hg⟩ := h.following hstart hdropped
    by_cases hlive : s.phase = .live
    · rw [← got_append_pending hg h.logged hlive key]
      exact prefix_append _ _
    · exact got_isPrefix hg h.logged hlive key

lemma Inv.got_eq_wanted (h : Inv req s) (hdropped : s.dropped = false) (hlive : s.phase = .live)
    (hstage : s.stage = .idle) (hch : s.ch = []) (key : String) :
    got req s key = wanted req s key := by
  obtain ⟨g, hg⟩ := h.following (by rw [hlive]; simp) hdropped
  have hpending : pending req s key = [] := by
    rw [pending, hch, hstage]
    rfl
  rw [← got_append_pending hg h.logged hlive key, hpending, append_nil]

end

/-! ## Whole runs -/

section

variable [Add R] [Div R] [OfNat R 2] {req : AlgoSubscribeRequest} {s : State R}

lemma step_inv (hfrom : 0 < req.fromSeq) (hsub : req.sub.Plain) (s : State R) (a : Action R)
    (s' : State R) (h : Inv req s) (hgood : Good req s a) (hstep : step req s a = some s') :
    Inv req s' := by
  revert hstep
  fun_cases step req s a <;> rintro ⟨⟩
  case case1 t env tenor bid ask hstage server seq hseq =>
    cases hseq
    exact h.producer (h.logged.number hstage t env bid ask hgood.1 hgood.2) (by rw [hstage]; rfl)
  case case3 q hstage =>
    exact h.producer (h.logged.locate hstage) (by rw [hstage]; rfl)
  case case5 q hstage =>
    refine ⟨h.logged.push hstage, h.unregistered, fun hp hdrop => ?_⟩
    obtain ⟨g, hg⟩ := h.following hp hdrop
    exact ⟨g, hg.push hstage _⟩
  case case7 q hstage => exact h.handOut hstage
  case case9 hphase =>
    obtain ⟨hch, hreceived, hends⟩ := h.unregistered hphase
    exact ⟨h.logged.congr rfl rfl rfl, fun hp => absurd hp (by simp), fun _ _ =>
      following_register h.logged hch hreceived hends⟩
  case case11 o hphase _ =>
    exact h.subscriber (by simp [hphase]) (h.logged.congr rfl rfl rfl) (by simp) rfl
      fun g hg => ⟨g, hg.enumerate h.logged hsub hgood hphase o⟩
  case case12 hzero => exact absurd hfrom hzero
  case case14 hphase =>
    exact h.subscriber (by simp [hphase]) (h.logged.congr rfl rfl rfl) (by simp) rfl
      fun g hg => ⟨g, hg.live hphase⟩
  case case15 key keys hphase =>
    obtain ⟨hlogged, hp', hdropped⟩ := replayKey_logged h.logged req.fromSeq key keys
    exact h.subscriber (by simp [hphase]) hlogged hp' hdropped
      fun g hg => hg.replay h.logged hfrom hphase
  case case17 q ch hch hphase =>
    exact h.subscriber (by simp [hphase]) (h.logged.congr rfl rfl rfl) (by simp [hphase]) rfl
      fun g hg => ⟨_, hg.receive hphase hch⟩

lemma drain (req : AlgoSubscribeRequest) : ∀ (ch : List (AlgoQuote R)) (s : State R), s.ch = ch →
    s.phase = .live → ∃ s', Leads (step req) (Good req) s (replicate ch.length .receive) s' ∧
      s'.ch = [] ∧ s'.phase = .live ∧ s'.stage = s.stage ∧ s'.emitted = s.emitted ∧
      s'.dropped = s.dropped
  | [], s, hch, hphase => ⟨s, .nil s, hch, hphase, rfl, rfl, rfl⟩
  | q :: ch, s, hch, hphase => by
    obtain ⟨s', hleads, hch', hphase', hstage, hemitted, hdropped⟩ := drain req ch
      { s with
        ch := ch
        received := if skipped s.replayEndSeq q then s.received else s.received ++ [q] } rfl hphase
    have hstep : step req s .receive = some { s with
        ch := ch
        received := if skipped s.replayEndSeq q then s.received else s.received ++ [q] } := by
      simp only [step, hphase, hch]
    exact ⟨s', hleads.cons trivial hstep, hch', hphase', hstage, hemitted, hdropped⟩

/-- **What a client is promised**: only quotes that its filter accepts; of each stream those after
`from_seq`, in order, none left out, and all of them once the channel is empty. -/
structure Delivered (req : AlgoSubscribeRequest) (s : State R) : Prop where
  accepted : ∀ q ∈ s.received, req.sub.accepts q.stream = true
  ordered : ∀ key, (got req s key).Pairwise fun q r => q.seq < r.seq
  complete : ∀ key, got req s key <+: wanted req s key
  all : s.phase = .live → s.stage = .idle → ∃ s', run (step req) s
    (List.replicate s.ch.length .receive) = some s' ∧ ∀ key, got req s' key = wanted req s key

/-- **Delivery**, in every run whose steps meet the condition: for a filter with clean names and raw
sources, as long as no quote was dropped. -/
theorem delivered (req : AlgoSubscribeRequest) (hfrom : 0 < req.fromSeq) (hsub : req.sub.Plain)
    (ringSize clientBufferSize : ℤ) (acts : List (Action R)) (s : State R)
    (hgood : Along (step req) (Good req) (start (newAlgoStreamServer ringSize clientBufferSize)) acts)
    (hrun : run (step req) (start (newAlgoStreamServer ringSize clientBufferSize)) acts = some s)
    (hdropped : s.dropped = false) : Delivered req s := by
  have hinv : Inv req s := invariant (step req) (step_inv hfrom hsub)
    (inv_start ringSize clientBufferSize) hgood hrun
  refine ⟨fun q hq => ?_, fun key => ?_, hinv.complete hdropped, fun hlive hstage => ?_⟩
  · by_cases hstart : s.phase = .start
    · rw [(hinv.unregistered hstart).2.1] at hq
      exact absurd hq (by simp)
    · obtain ⟨g, hg⟩ := hinv.following hstart hdropped
      exact accepts_of_received hg hinv.logged hq
  · have hsorted : (wanted req s key).Pairwise fun q r => q.seq < r.seq := by
      have hall := (hinv.logged.numbers key)
      rw [on_append] at hall
      exact (hall.of_append.pairwise.imp fun hlt => Int64.lt_iff_toInt_lt.mpr hlt).filter _
    exact hsorted.sublist (hinv.complete hdropped key).sublist
  · obtain ⟨s', hleads, hch, hlive', hstage', hemitted, hdropped'⟩ := drain req s.ch s rfl hlive
    have hinv' : Inv req s' := invariant (step req) (step_inv hfrom hsub) hinv hleads.2 hleads.1
    refine ⟨s', hleads.1, fun key => ?_⟩
    rw [hinv'.got_eq_wanted (hdropped'.trans hdropped) hlive' (hstage'.trans hstage) hch key,
      wanted, wanted, hemitted]

end

def emit (source tenor : String) : List (Action ℚ) :=
  [.number ⟨0, "USDKRW", 0, 0, 0, 0, [], 0, source⟩ ⟨"USDKRW", 1380, 1382, 0, source, 1, 0, 0, 5, 6⟩
    tenor 1380 1382, .locate, .push, .fanout]

def mapOrder : KeyOrders := ⟨fun _ => .same _, .same _, .same _, .same _⟩

def smallServer : AlgoStreamServer ℚ := newAlgoStreamServer 8 8

def runOf (req : AlgoSubscribeRequest) (acts : List (Action ℚ)) : Option (State ℚ) :=
  run (step req) (start smallServer) acts

instance (req : AlgoSubscribeRequest) (s : State ℚ) : DecidablePred (Good req s)
  | .number _ _ _ _ _ => inferInstanceAs (Decidable (_ ∧ _))
  | .enumerate _ => inferInstanceAs (Decidable (AlgoSub.SpotOnly _ _))
  | .locate | .push | .fanout | .register | .replay | .receive => inferInstanceAs (Decidable True)

def namedRequest : AlgoSubscribeRequest := ⟨["USDKRW"], 1, [], []⟩

def namedActs : List (Action ℚ) :=
  emit "BEST" "SPT" ++ (emit "CROSS" "SPT").take 3 ++ [.register, .fanout, .enumerate mapOrder] ++
    [.replay, .replay] ++ emit "BEST" "SPT" ++ [.receive, .receive]

theorem delivered_named : ∃ s, runOf namedRequest namedActs = some s ∧
    (got namedRequest s "USDKRW").map (·.seq) = [2, 3] ∧ Delivered namedRequest s := by
  have hrun : ((runOf namedRequest namedActs).map fun s =>
      (s.dropped, (got namedRequest s "USDKRW").map (·.seq))) = some (false, [2, 3]) := by
    decide +kernel
  obtain ⟨s, hs, hview⟩ := Option.map_eq_some_iff.mp hrun
  obtain ⟨hdropped, hgot⟩ := Prod.mk.inj hview
  have hplain : namedRequest.sub.Plain := by
    constructor <;> decide +kernel
  exact ⟨s, hs, hgot, delivered namedRequest (by decide) hplain 8 8 namedActs s
    (by decide +kernel) hs hdropped⟩

def spotRequest : AlgoSubscribeRequest := ⟨[], 1, [], []⟩

def spotActs : List (Action ℚ) :=
  emit "BEST" "SPT" ++ emit "BEST" "M01" ++ emit "BEST" "M01" ++ [.register, .enumerate mapOrder] ++
    [.replay, .replay, .replay]

def bestRequest : AlgoSubscribeRequest := ⟨["USDKRW"], 1, ["BEST"], []⟩

def bestActs : List (Action ℚ) :=
  emit "BEST" "SPT" ++ emit "BEST" "SPT" ++ [.register, .enumerate mapOrder, .replay, .replay]

theorem not_delivered :
    (∃ s, runOf spotRequest spotActs = some s ∧ s.dropped = false ∧ ¬ Delivered spotRequest s) ∧
      ∃ s, runOf bestRequest bestActs = some s ∧ s.dropped = false ∧
        ¬ Delivered bestRequest s := by
  constructor
  · have hrun : ((runOf spotRequest spotActs).map fun s =>
        (s.dropped, s.received.all fun q => spotRequest.sub.accepts q.stream)) =
          some (false, false) := by decide +kernel
    obtain ⟨s, hs, hview⟩ := Option.map_eq_some_iff.mp hrun
    obtain ⟨hdropped, hall⟩ := Prod.mk.inj hview
    refine ⟨s, hs, hdropped, fun h => ?_⟩
    rw [all_eq_true.mpr h.accepted] at hall
    exact absurd hall (by simp)
  · have hrun : ((runOf bestRequest bestActs).map fun s =>
        (s.dropped, decide (s.phase = .live ∧ s.stage = .idle ∧ s.ch = []),
          (got bestRequest s "USDKRW").length, (wanted bestRequest s "USDKRW").length)) =
            some (false, true, 0, 1) := by decide +kernel
    obtain ⟨s, hs, hview⟩ := Option.map_eq_some_iff.mp hrun
    simp only [Prod.mk.injEq, decide_eq_true_eq] at hview
    obtain ⟨hdropped, ⟨hlive, hstage, hch⟩, hgot, hwanted⟩ := hview
    refine ⟨s, hs, hdropped, fun h => ?_⟩
    obtain ⟨s', hs', hall⟩ := h.all hlive hstage
    rw [hch] at hs'
    obtain rfl := Option.some.inj hs'
    rw [hall "USDKRW", hwanted] at hgot
    exact absurd hgot (by simp)

end Wtg.Price.AlgoDelivery
