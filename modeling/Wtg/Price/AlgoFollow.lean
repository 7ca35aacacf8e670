import Wtg.Price.AlgoLog

/-! # A subscriber of the algo feed

What the subscriber keeps, from its registration on (`Following`): what it was handed is what was
handed out since then, as far as its filter accepts it, and what it has replayed of a stream is a
copy of the log of the stream as it was at some point since then. -/

namespace Wtg.Price.AlgoFollow

open Lib Price.AlgoKeys Price.Algo Price.AlgoLog List Option

variable {R : Type*}

/-- The streams still to be replayed. -/
def todo : Phase → List String
  | .replaying keys => keys
  | _ => []

def enumerated : Phase → Bool
  | .replaying _ | .live => true
  | _ => false

/-- The log at the registration, what was handed out and taken since, and the replayed copy with
the point of the log each stream was cut at. -/
structure Ghost (R : Type*) where
  old : List (AlgoQuote R)
  fanned : List (AlgoQuote R)
  consumed : List (AlgoQuote R)
  copy : List (AlgoQuote R)
  cut : String → Option ℕ

def after (fromSeq : Int64) (q : AlgoQuote R) : Bool := fromSeq < q.seq

def Ghost.copied (g : Ghost R) (fromSeq : Int64) (log : List (AlgoQuote R)) (key : String) :
    List (AlgoQuote R) :=
  match g.cut key with
  | some b => (on key (log.take b)).filter (after fromSeq)
  | none => []

/-- The invariant of a subscriber that has not lost a quote. -/
structure Following (req : AlgoSubscribeRequest) (s : State R) (g : Ghost R) : Prop where
  split : s.emitted = g.old ++ g.fanned ++ inFlight s.stage
  offered : s.phase ≠ .gap →
    g.fanned.filter (fun q => req.sub.accepts q.stream) = g.consumed ++ s.ch
  received : s.received = g.copy.map AlgoQuote.backfill ++
    g.consumed.filter fun q => !skipped s.replayEndSeq q
  replaying : s.phase ≠ .live → g.consumed = []
  copy : ∀ key, on key g.copy = g.copied req.fromSeq s.emitted key
  cut_le : ∀ key b, g.cut key = some b → g.old.length ≤ b ∧ b ≤ s.emitted.length
  ends : ∀ key, s.replayEndSeq.lookup key = (on key g.copy).getLast?.map (·.seq)
  sound : ∀ st : Stream, st.Plain → (g.cut st.key).isSome ∨ st.key ∈ todo s.phase →
    req.sub.accepts st = true
  nodup : (todo s.phase).Nodup
  fresh : ∀ key ∈ todo s.phase, g.cut key = none
  uncut : s.phase = .registered → ∀ key, g.cut key = none
  covered : enumerated s.phase = true → ∀ q ∈ g.old, req.sub.accepts q.stream = true →
    (g.cut q.key).isSome ∨ q.key ∈ todo s.phase

lemma foldl_replayOne (key : String) (ticks : List (AlgoQuote R)) (s : State R)
    (hsorted : ticks.Pairwise fun q r => q.seq.toInt < r.seq.toInt)
    (hpos : ∀ q ∈ ticks, 0 < q.seq) (hnone : s.replayEndSeq.lookup key = none) :
    ticks.foldl (replayOne key) s =
      { s with
        received := s.received ++ ticks.map AlgoQuote.backfill
        replayEndSeq := ticks.getLast?.elim s.replayEndSeq
          fun q => s.replayEndSeq.insert key q.seq } := by
  induction ticks using reverseRecOn with
  | nil => simp
  | append_singleton ticks q ih =>
    rw [pairwise_append] at hsorted
    have hlast : q ∈ ticks ++ [q] := mem_append_right _ (mem_singleton_self _)
    have ih' := ih hsorted.1 fun r hr => hpos r (mem_append_left _ hr)
    have hbelow : (((ticks.getLast?.elim s.replayEndSeq
        fun q => s.replayEndSeq.insert key q.seq).lookup key).getD 0) < q.seq := by
      rcases hr : ticks.getLast? with _ | r
      · rw [elim_none, hnone]
        exact hpos q hlast
      · rw [elim_some, AList.lookup_insert, getD_some, Int64.lt_iff_toInt_lt]
        exact hsorted.2.2 r (mem_of_getLast? hr) q (mem_singleton_self _)
    have hends : (ticks.getLast?.elim s.replayEndSeq
        fun q => s.replayEndSeq.insert key q.seq).insert key q.seq =
          s.replayEndSeq.insert key q.seq := by
      rcases ticks.getLast? with _ | r
      · rfl
      · exact AList.insert_insert _
    rw [foldl_append, ih', foldl_cons, foldl_nil]
    unfold replayOne
    simp only [AlgoQuote.backfill, if_pos hbelow, hends, map_append, append_assoc,
      getLast?_append, getLast?_singleton, some_or, elim_some,
      map_cons, map_nil]

/-! ## What the steps keep -/

variable {req : AlgoSubscribeRequest} {s s' : State R} {g : Ghost R}

lemma Following.copied_append (h : Following req s g) (q : AlgoQuote R) (key : String) :
    g.copied req.fromSeq (s.emitted ++ [q]) key = g.copied req.fromSeq s.emitted key := by
  unfold Ghost.copied
  rcases hcut : g.cut key with _ | b
  · rfl
  · show (on key ((s.emitted ++ [q]).take b)).filter _ = _
    rw [take_append_of_le_length (h.cut_le key b hcut).2]

variable {q : AlgoQuote R}

lemma Following.push (h : Following req s g) (hstage : s.stage = .located q)
    (server : AlgoStreamServer R) :
    Following req { s with server := server, stage := .pushed q, emitted := s.emitted ++ [q] } g := by
  have hsplit : s.emitted = g.old ++ g.fanned := by
    have hall := h.split
    rw [hstage] at hall
    exact hall.trans (append_nil _)
  refine ⟨?_, h.offered, h.received, h.replaying, fun key => ?_, fun key b hcut => ?_, h.ends,
    h.sound, h.nodup, h.fresh, h.uncut, h.covered⟩
  · show s.emitted ++ [q] = g.old ++ g.fanned ++ [q]
    rw [hsplit]
  · rw [h.copied_append q key]
    exact h.copy key
  · obtain ⟨hold, hle⟩ := h.cut_le key b hcut
    rw [length_append]
    exact ⟨hold, by omega⟩

lemma fanout_eq {sub : AlgoSub} (hdropped : (fanout sub s q).dropped = false) :
    fanout sub s q =
      { s with ch := s.ch ++ if s.phase.subscribed ∧ sub.accepts q.stream then [q] else [] } := by
  unfold Algo.fanout at hdropped ⊢
  split_ifs at hdropped ⊢ with hto hroom
  · rfl
  · rw [append_nil]

lemma Following.fanout (h : Following req s g) (hstage : s.stage = .pushed q)
    (hsub : s.phase ≠ .start) (hdropped : (fanout req.sub s q).dropped = false) :
    Following req { fanout req.sub s q with stage := .idle }
      { g with fanned := g.fanned ++ [q] } := by
  rw [fanout_eq hdropped]
  refine ⟨?_, fun hgap => ?_, h.received, h.replaying, h.copy, h.cut_le, h.ends, h.sound, h.nodup,
    h.fresh, h.uncut, h.covered⟩
  · show s.emitted = g.old ++ (g.fanned ++ [q]) ++ []
    rw [h.split, hstage, inFlight, append_nil, append_assoc]
  · have hsubscribed : s.phase.subscribed = true := by
      rcases hp : s.phase with _ | _ | _ | _ | _
      · exact absurd hp hsub
      · rfl
      · rfl
      · rfl
      · exact absurd hp hgap
    rw [filter_append, h.offered hgap, append_assoc]
    by_cases haccepts : req.sub.accepts q.stream = true <;> simp [haccepts, hsubscribed]

lemma following_register (h : Logged s) (hch : s.ch = []) (hreceived : s.received = [])
    (hends : s.replayEndSeq = ∅) : ∃ g, Following req { s with phase := .registered } g := by
  obtain ⟨fanned, hfanned⟩ := h.fanned
  refine ⟨⟨fanned, [], [], [], fun _ => none⟩, ?_, fun _ => ?_, ?_, fun _ => rfl, fun _ => rfl,
    fun key b hcut => absurd hcut (by simp), fun key => ?_,
    fun st _ hst => absurd hst (by simp [todo]), nodup_nil,
    fun key hkey => absurd hkey (by simp [todo]), fun _ _ => rfl,
    fun henum => absurd henum (by simp [enumerated])⟩
  · show s.emitted = fanned ++ [] ++ inFlight s.stage
    rw [append_nil]
    exact hfanned
  · exact hch.symm
  · exact hreceived
  · show s.replayEndSeq.lookup key = none
    rw [hends]
    rfl

lemma key_eq_baseKey {st : Stream} (hst : st.Plain) (hat : '@' ∉ st.key.toList) :
    st.key = baseKey st.source st.symbol := by
  by_cases hspot : st.tenor = spotTenor
  · rw [Stream.key, streamKeyFor, hspot, withTenor_spot]
  · rw [Stream.key, streamKeyFor, toList_withTenor _ hst.tenor hspot] at hat
    exact absurd (by simp) hat

lemma Following.enumerate (h : Following req s g) (hlog : Logged s) (hsub : req.sub.Plain)
    (hspot : req.sub.SpotOnly s.server.rings.keys) (hphase : s.phase = .registered)
    (o : KeyOrders) :
    Following req
      { s with phase := .replaying (replayKeys req.sub o s.server.rings.keys) } g := by
  have hcut := h.uncut hphase
  refine ⟨h.split, fun _ => h.offered (by rw [hphase]; simp), h.received,
    fun _ => h.replaying (by rw [hphase]; simp), h.copy, h.cut_le, h.ends, fun st hst hkey => ?_,
    replayKeys_nodup hsub hspot s.server.rings.keys_nodup, fun key _ => hcut key,
    fun hp => absurd hp (by simp), fun _ q hq haccepts => .inr ?_⟩
  · rcases hkey with hkey | hkey
    · rw [hcut] at hkey
      exact absurd hkey (by simp)
    · exact ((mem_replayKeys_iff hsub hspot hst).mp hkey).1
  · have hmem : q ∈ s.emitted := by
      rw [h.split]
      exact mem_append_left _ (mem_append_left _ hq)
    have hplain := (hlog.plain q (mem_append_left _ hmem)).1
    have hring : q.key ∈ s.server.rings.keys := AList.mem_keys.mp (hlog.kept q hmem)
    refine (mem_replayKeys_iff hsub hspot hplain).mpr ⟨haccepts, fun hsymbols => ?_⟩
    have hbase := key_eq_baseKey hplain (hspot hsymbols q.key hring)
    rw [← hbase]
    exact hring

lemma Following.live (h : Following req s g) (hphase : s.phase = .replaying []) :
    Following req { s with phase := .live } g := by
  have hsound := h.sound
  have hcovered := h.covered
  rw [hphase] at hsound hcovered
  exact ⟨h.split, fun _ => h.offered (by rw [hphase]; simp), h.received,
    fun hp => absurd rfl hp, h.copy, h.cut_le, h.ends, hsound, nodup_nil,
    fun key hkey => absurd hkey (by simp [todo]), fun hp => absurd hp (by simp), fun _ =>
    hcovered rfl⟩

lemma on_on_filter (key key' : String) (l : List (AlgoQuote R)) (p : AlgoQuote R → Bool) :
    on key' ((on key l).filter p) = if key' = key then (on key l).filter p else [] := by
  unfold on
  by_cases hkey : key' = key
  · subst hkey
    rw [if_pos rfl, filter_eq_self]
    intro q hq
    exact (mem_filter.mp (mem_filter.mp hq).1).2
  · rw [if_neg hkey, filter_eq_nil_iff]
    intro q hq hq'
    have hq₁ := (mem_filter.mp (mem_filter.mp hq).1).2
    exact hkey ((of_decide_eq_true hq').symm.trans (of_decide_eq_true hq₁))

variable {key : String}

lemma Following.unreplayed (h : Following req s g) (hcut : g.cut key = none) :
    on key g.copy = [] ∧ s.replayEndSeq.lookup key = none := by
  have hempty : on key g.copy = [] := by rw [h.copy, Ghost.copied, hcut]
  refine ⟨hempty, ?_⟩
  rw [h.ends, hempty]
  rfl

variable {ticks : List (AlgoQuote R)}

lemma replayKey_eq (hlog : Logged s) (hfrom : 0 < req.fromSeq) (keys : List String)
    (hnone : s.replayEndSeq.lookup key = none) {oldest : Int64}
    (hsnap : snapshot (s.server.ringFor key).2 req.fromSeq = (ticks, oldest, false)) :
    ticks = (on key s.emitted).filter (after req.fromSeq) ∧
      replayKey req.fromSeq s key keys =
        { s with
          server := (s.server.ringFor key).1
          phase := .replaying keys
          received := s.received ++ ticks.map AlgoQuote.backfill
          replayEndSeq := ticks.getLast?.elim s.replayEndSeq
            fun q => s.replayEndSeq.insert key q.seq } := by
  have hnumbers : Consecutive (on key s.emitted) := by
    have hall := hlog.numbers key
    rw [on_append] at hall
    exact hall.of_append
  have hticks : ticks = (on key s.emitted).filter (after req.fromSeq) := by
    have hspec := snapshot_spec (Int64.le_of_lt hfrom) (hlog.rings key) s.server.ringSize_pos hnumbers
    rw [hsnap] at hspec
    exact hspec.2 rfl
  have hsorted : ticks.Pairwise fun q r => q.seq.toInt < r.seq.toInt := by
    rw [hticks]
    exact hnumbers.pairwise.filter _
  have hpos : ∀ q ∈ ticks, 0 < q.seq := by
    intro q hq
    rw [hticks] at hq
    exact Int64.lt_trans hfrom (of_decide_eq_true (mem_filter.mp hq).2)
  refine ⟨hticks, ?_⟩
  rw [replayKey, hsnap]
  simp only
  rw [foldl_replayOne key ticks { s with server := (s.server.ringFor key).1 } hsorted hpos hnone]

lemma on_copy_append {copy ticks l : List (AlgoQuote R)} {p : AlgoQuote R → Bool}
    (hempty : on key copy = []) (hticks : ticks = (on key l).filter p) (key' : String) :
    on key' (copy ++ ticks) = if key' = key then ticks else on key' copy := by
  rw [on_append, hticks, on_on_filter]
  by_cases hkey : key' = key
  · rw [if_pos hkey, if_pos hkey, hkey, hempty, nil_append]
  · rw [if_neg hkey, if_neg hkey, append_nil]

lemma copied_update (g : Ghost R) (key : String) (copy : List (AlgoQuote R)) (fromSeq : Int64)
    (log : List (AlgoQuote R)) (key' : String) :
    ({ g with copy := copy, cut := Function.update g.cut key (some log.length) } :
      Ghost R).copied fromSeq log key' =
      if key' = key then (on key log).filter (after fromSeq) else g.copied fromSeq log key' := by
  unfold Ghost.copied
  by_cases hkey : key' = key
  · subst hkey
    dsimp only
    rw [if_pos rfl, Function.update_self]
    dsimp only
    rw [take_length]
  · dsimp only
    rw [if_neg hkey, Function.update_of_ne hkey]

lemma lookup_ends {ends : GoMap String Int64} (hnone : ends.lookup key = none)
    (ticks : List (AlgoQuote R)) (key' : String) :
    (ticks.getLast?.elim ends fun q => ends.insert key q.seq).lookup key' =
      if key' = key then ticks.getLast?.map (·.seq) else ends.lookup key' := by
  by_cases hkey : key' = key
  · subst hkey
    rw [if_pos rfl]
    rcases ticks.getLast? with _ | q
    · exact hnone
    · exact AList.lookup_insert _
  · rw [if_neg hkey]
    rcases ticks.getLast? with _ | q
    · rfl
    · exact AList.lookup_insert_ne hkey

variable {keys : List String}

lemma Following.replayed (h : Following req s g) (hphase : s.phase = .replaying (key :: keys))
    (server' : AlgoStreamServer R)
    (hticks : ticks = (on key s.emitted).filter (after req.fromSeq)) :
    Following req
      { s with
        server := server'
        phase := .replaying keys
        received := s.received ++ ticks.map AlgoQuote.backfill
        replayEndSeq := ticks.getLast?.elim s.replayEndSeq
          fun q => s.replayEndSeq.insert key q.seq }
      { g with
        copy := g.copy ++ ticks
        cut := Function.update g.cut key (some s.emitted.length) } := by
  have hconsumed := h.replaying (by rw [hphase]; simp)
  have hsound := h.sound
  have hnodup := h.nodup
  have hfresh := h.fresh
  have hcovered := h.covered
  rw [hphase] at hsound hnodup hfresh hcovered
  obtain ⟨hempty, hnone⟩ := h.unreplayed (hfresh key mem_cons_self)
  have hon := on_copy_append hempty hticks
  refine ⟨h.split, fun _ => h.offered (by rw [hphase]; simp), ?_, fun _ => hconsumed,
    fun key' => ?_, fun key' b hb => ?_, fun key' => ?_, fun st hst hkey => ?_,
    (nodup_cons.mp hnodup).2, fun key' hkey' => ?_, fun hp => absurd hp (by simp),
    fun _ q hq haccepts => ?_⟩
  · have hreceived := h.received
    rw [hconsumed] at hreceived ⊢
    rw [hreceived]
    simp
  · rw [hon, copied_update, hticks, h.copy key']
  · have hold : g.old.length ≤ s.emitted.length := by
      rw [h.split, length_append, length_append]
      omega
    dsimp only at hb
    by_cases hkey : key' = key
    · subst hkey
      rw [Function.update_self] at hb
      obtain rfl := some.inj hb
      exact ⟨hold, le_refl _⟩
    · rw [Function.update_of_ne hkey] at hb
      exact h.cut_le key' b hb
  · rw [hon, lookup_ends hnone, h.ends key']
    split_ifs <;> rfl
  · dsimp only at hkey
    by_cases hst' : st.key = key
    · exact hsound st hst (.inr (hst' ▸ mem_cons_self))
    · rw [Function.update_of_ne hst'] at hkey
      exact hsound st hst (hkey.imp_right fun hmem => mem_cons_of_mem _ hmem)
  · have hne : key' ≠ key := fun heq => (nodup_cons.mp hnodup).1 (heq ▸ hkey')
    dsimp only
    rw [Function.update_of_ne hne]
    exact hfresh key' (mem_cons_of_mem _ hkey')
  · dsimp only
    by_cases hq' : q.key = key
    · rw [hq', Function.update_self]
      exact .inl rfl
    · rw [Function.update_of_ne hq']
      exact (hcovered rfl q hq haccepts).imp_right fun hmem =>
        (mem_cons.mp hmem).resolve_left hq'

lemma Following.gap (h : Following req s g) (hphase : s.phase = .replaying keys)
    (server' : AlgoStreamServer R) :
    Following req { s with server := server', phase := .gap } g := by
  have hconsumed := h.replaying (by rw [hphase]; simp)
  have hsound := h.sound
  rw [hphase] at hsound
  exact ⟨h.split, fun hp => absurd rfl hp, h.received, fun _ => hconsumed, h.copy, h.cut_le, h.ends,
    fun st hst hkey => hsound st hst (hkey.imp_right fun hmem => absurd hmem (by simp [todo])),
    nodup_nil, fun key hkey => absurd hkey (by simp [todo]), fun hp => absurd hp (by simp),
    fun henum => absurd henum (by simp [enumerated])⟩

/-- **Replaying a stream keeps the invariant.** -/
lemma Following.replay (h : Following req s g) (hlog : Logged s) (hfrom : 0 < req.fromSeq)
    (hphase : s.phase = .replaying (key :: keys)) :
    ∃ g', Following req (replayKey req.fromSeq s key keys) g' := by
  have hfresh := h.fresh
  rw [hphase] at hfresh
  rcases hsnap : snapshot (s.server.ringFor key).2 req.fromSeq with ⟨ticks, oldest, gap⟩
  rcases gap with _ | _
  · obtain ⟨-, hnone⟩ := h.unreplayed (hfresh key mem_cons_self)
    obtain ⟨hticks, hstate⟩ := replayKey_eq hlog hfrom keys hnone hsnap
    rw [hstate]
    exact ⟨_, h.replayed hphase _ hticks⟩
  · rw [replayKey, hsnap]
    exact ⟨g, h.gap hphase _⟩

lemma Following.receive (h : Following req s g) (hphase : s.phase = .live)
    {ch : List (AlgoQuote R)} (hch : s.ch = q :: ch) :
    Following req
      { s with
        ch := ch
        received := if skipped s.replayEndSeq q then s.received else s.received ++ [q] }
      { g with consumed := g.consumed ++ [q] } := by
  refine ⟨h.split, fun hgap => ?_, ?_, fun hp => absurd hphase hp, h.copy, h.cut_le, h.ends,
    h.sound, h.nodup, h.fresh, h.uncut, h.covered⟩
  · rw [h.offered hgap, hch]
    simp
  · show (if skipped s.replayEndSeq q then s.received else s.received ++ [q]) =
      g.copy.map AlgoQuote.backfill ++
        (g.consumed ++ [q]).filter fun q => !skipped s.replayEndSeq q
    rcases hskip : skipped s.replayEndSeq q with _ | _
    · simp [h.received, hskip]
    · simp [h.received, hskip]

end Wtg.Price.AlgoFollow
