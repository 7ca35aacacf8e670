import Wtg.Price.BestSound
import Wtg.Price.LockRules

/-! # Is a quote locked on fresh prices?

A lock is priced from the entry of its symbol in `Stats`. Every symbol that was ever quoted has an
entry, also when all its sources have fallen silent; its best bid and ask are then 0. -/

namespace Wtg.Price.LockFresh

open Lib Lib.Program Lib.Protocol Price.Best Price.BestSound Price.Lock List Option
open Price.LockRules

structure Seen where
  best : Option (String → Option (BestSymbolStat ℚ))
  cross : Bool

def watching : Rules LockCall Answer Seen where
  pre _ _ := True
  post g c r g' :=
    match c, r with
    | .stats, best => g' = { g with best := some best }
    | .latestCross _, some snap => g' = { g with cross := g.cross || !snap.isStale }
    | _, _ => g' = g

def FromSnapshot (g : Seen) (pair : String) (rawBid rawAsk : ℚ) : Prop :=
  ∃ best stat, g.best = some best ∧ best (symbolOf pair) = some stat ∧
    rawBid = stat.bestBid ∧ rawAsk = stat.bestAsk

def remembered : LockCall → Bool
  | .stats | .latestCross _ => true
  | _ => false

lemma watching_ignores {c : LockCall} (hc : remembered c = false) : watching.Ignores c := by
  refine fun g => ⟨trivial, fun r g' h => ?_⟩
  cases c <;> first | exact h | exact absurd hc (by simp [remembered])

variable {g : Seen}

lemma watching_call {α : Type} {c : LockCall} (hc : remembered c = false)
    {f : Answer c → Issuer α} {Q : Seen → α → Prop}
    (hf : ∀ r, Follows watching g (f r) Q) : Follows watching g (Prog.perform c >>= f) Q :=
  follows_ignored (watching_ignores hc) hf

lemma issueForward_watching (deps : ForwardLockDeps) (profile : QuoteId.Registry.Profile)
    (cq : Pricing.Engine.CustomerQuote ℚ) (now : Pricing.BusinessDays.Time) (g : Seen) :
    Follows watching g (issueForward deps profile cq now) fun g' _ => g' = g := by
  unfold issueForward
  split
  · split
    · exact watching_call rfl fun id => watching_call rfl fun seq => watching_call rfl fun _ => rfl
    · rfl
  · rfl

lemma forwardLock_watching (lib : GoLib) (fuel : ℕ) (deps : ForwardLockDeps)
    (r : Request ForwardLockRequest) (g : Seen) :
    Follows watching g (forwardLock lib fuel deps r) fun g' reply =>
      ∀ out, reply = .ok out → FromSnapshot g' out.pair out.rawBid out.rawAsk := by
  refine follows_forwardLock trivial (fun _ _ hr out h => absurd h (hr.ne_ok out)) ?_
  intro req profile best g₁ spot hg₁ hspot
  obtain rfl : g₁ = { g with best := some best } := hg₁
  refine follows_lockForward (watching_ignores rfl) (watching_ignores rfl)
    (fun _ hr out h => absurd h (hr.ne_ok out)) fun leg now tbl => ?_
  refine follows_mono (fun g' issued hg' out h => ?_) (issueForward_watching deps profile leg.cq now _)
  obtain rfl := Reply.ok.inj h
  rw [hg']
  exact ⟨best, spot, rfl, hspot, rfl, rfl⟩

lemma putSwapAtomic_watching (near far : QuoteId.Registry.Record) (sw : QuoteId.Registry.SwapRecord)
    (g : Seen) : Follows watching g (putSwapAtomic near far sw) fun g' _ => g' = g := by
  refine watching_call rfl fun putNear => ?_
  rcases putNear with err | _
  · rfl
  refine watching_call rfl fun putFar => ?_
  rcases putFar with err | _
  · exact watching_call rfl fun _ => rfl
  refine watching_call rfl fun putSwap => ?_
  rcases putSwap with err | _
  · exact watching_call rfl fun _ => watching_call rfl fun _ => rfl
  · rfl

def RawOf (out : SwapLockResponse) (rawBid rawAsk : ℚ) : Prop :=
  out.near.rawBid = rawBid ∧ out.near.rawAsk = rawAsk ∧ out.far.rawBid = rawBid ∧
    out.far.rawAsk = rawAsk

lemma issueSwap_watching (issuer : String) (req : SwapLockRequest)
    (profile : QuoteId.Registry.Profile) (near far : PricedLeg) (rawBid rawAsk : ℚ)
    (now : Pricing.BusinessDays.Time) (validUntil : ℤ) (tbl : Pricing.Table.PricingTable ℚ)
    (g : Seen) :
    Follows watching g
      (issueSwap issuer req profile near far rawBid rawAsk now validUntil tbl) fun g' reply =>
        g' = g ∧ ∀ out, reply = .ok out → out.pair = req.pair ∧ RawOf out rawBid rawAsk := by
  refine watching_call rfl fun nearID => watching_call rfl fun nearSeq => ?_
  refine watching_call rfl fun farID => watching_call rfl fun farSeq => ?_
  refine watching_call rfl fun swapNext => ?_
  refine follows_bind.mpr (follows_mono (fun g' failed hg' => ?_)
    (putSwapAtomic_watching _ _ _ g))
  subst hg'
  rcases failed with _ | text
  · refine ⟨rfl, fun out h => ?_⟩
    obtain rfl := Reply.ok.inj h
    exact ⟨rfl, rfl, rfl, rfl, rfl⟩
  · exact ⟨rfl, fun out h => absurd h (by simp)⟩

lemma lookupSpotRawForSwap_watching (deps : SwapLockDeps)
    (best : String → Option (BestSymbolStat ℚ)) (pair : String)
    (hg : g.best = some best) :
    Follows watching g (lookupSpotRawForSwap deps best pair) fun g' raw =>
      ∀ rawBid rawAsk, raw = some (rawBid, rawAsk) →
        g'.cross = true ∨ FromSnapshot g' pair rawBid rawAsk := by
  unfold lookupSpotRawForSwap
  split
  · rename_i stat hstat
    refine fun rawBid rawAsk h => .inr ?_
    obtain ⟨rfl, rfl⟩ := Prod.mk.inj (some.inj h)
    exact ⟨best, stat, hg, hstat, rfl, rfl⟩
  · split
    · refine follows_perform.mpr ⟨trivial, fun snap g' hg' => ?_⟩
      rcases snap with _ | c
      · exact fun _ _ h => absurd h (by simp)
      · intro rawBid rawAsk h
        obtain rfl : g' = { g with cross := g.cross || !c.isStale } := hg'
        rcases hstale : c.isStale with _ | _
        · exact .inl (by simp)
        · rw [hstale] at h
          exact absurd h (by simp)
    · exact fun _ _ h => absurd h (by simp)

lemma swapLock_watching (lib : GoLib) (fuel : ℕ) (deps : SwapLockDeps)
    (r : Request SwapLockRequest) (g : Seen) :
    Follows watching g (swapLock lib fuel deps r) fun g' reply =>
      ∀ out, reply = .ok out → g'.cross = true ∨ ∃ rawBid rawAsk, RawOf out rawBid rawAsk ∧
        FromSnapshot g' out.pair rawBid rawAsk := by
  refine follows_swapLock trivial (fun _ _ hr out h => absurd h (hr.ne_ok out)) ?_
  intro req profile best g₁ hg₁
  obtain rfl : g₁ = { g with best := some best } := hg₁
  refine follows_mono (fun g₂ raw hraw rawBid rawAsk heq => ?_)
    (lookupSpotRawForSwap_watching deps best req.pair rfl)
  refine follows_lockSwap (watching_ignores rfl) (watching_ignores rfl)
    (fun _ hr out h => absurd h (hr.ne_ok out)) fun issuer near far now validUntil tbl => ?_
  refine follows_mono (fun g' reply h out hout => ?_)
    (issueSwap_watching issuer req profile near far rawBid rawAsk now validUntil tbl g₂)
  obtain ⟨rfl, h⟩ := h
  obtain ⟨hpair, hrawOf⟩ := h out hout
  rcases hraw rawBid rawAsk heq with hcross | hsnap
  · exact .inl hcross
  · exact .inr ⟨rawBid, rawAsk, hrawOf, by rw [hpair]; exact hsnap⟩

/-- The calls of a handler with their answers, the states they found and left. -/
abbrev Trace := List (Event LockCall Answer Server Outside)

def snapshot (e : Outside) (s : Server) : Event LockCall Answer Server Outside :=
  ⟨e, s, .stats, (lockObject e s .stats).2, (lockObject e s .stats).1⟩

def askCross (e : Outside) (s : Server) (pair : String) : Event LockCall Answer Server Outside :=
  ⟨e, s, .latestCross pair, (lockObject e s (.latestCross pair)).2,
    (lockObject e s (.latestCross pair)).1⟩

def GivenLiveCross (tr : Trace) : Prop :=
  ∃ e s pair snap, askCross e s pair ∈ tr ∧ s.latestCross e.time pair = some snap ∧
    snap.isStale = false

/-- A quote was locked: the calls of the handler, the pair, and the raw prices of the quote. -/
inductive Locks (lib : GoLib) (fuel : ℕ) : Trace → String → ℚ → ℚ → Prop
  | forward {deps : ForwardLockDeps} {r : Request ForwardLockRequest} {tr : Trace}
      {out : ForwardLockResponse} (h : Runs lockObject (forwardLock lib fuel deps r) tr (.ok out)) :
      Locks lib fuel tr out.pair out.rawBid out.rawAsk
  | near {deps : SwapLockDeps} {r : Request SwapLockRequest} {tr : Trace}
      {out : SwapLockResponse} (h : Runs lockObject (swapLock lib fuel deps r) tr (.ok out)) :
      Locks lib fuel tr out.pair out.near.rawBid out.near.rawAsk
  | far {deps : SwapLockDeps} {r : Request SwapLockRequest} {tr : Trace}
      {out : SwapLockResponse} (h : Runs lockObject (swapLock lib fuel deps r) tr (.ok out)) :
      Locks lib fuel tr out.pair out.far.rawBid out.far.rawAsk

structure Tied (g : Seen) (tr : Trace) : Prop where
  best : ∀ best, g.best = some best →
    ∃ e s, snapshot e s ∈ tr ∧ best = s.best.stats e.time.nanos e.order
  cross : g.cross = true → GivenLiveCross tr

lemma Tied.append {tr tr' : Trace} (h : Tied g tr) : Tied g (tr ++ tr') where
  best := fun best hbest => by
    obtain ⟨e, s, hmem, h⟩ := h.best best hbest
    exact ⟨e, s, mem_append_left _ hmem, h⟩
  cross := fun hcross => by
    obtain ⟨e, s, pair, snap, hmem, h⟩ := h.cross hcross
    exact ⟨e, s, pair, snap, mem_append_left _ hmem, h⟩

lemma tied_answer (g : Seen) (before : Trace) (e : Outside) (s : Server) (c : LockCall)
    (h : Tied g before) : ∃ g', watching.post g c (lockObject e s c).2 g' ∧
      Tied g' (before ++ [⟨e, s, c, (lockObject e s c).2, (lockObject e s c).1⟩]) := by
  cases c with
  | stats =>
    refine ⟨{ g with best := some (s.best.stats e.time.nanos e.order) }, rfl, ?_, h.append.cross⟩
    intro best hbest
    obtain rfl := some.inj hbest
    exact ⟨e, s, mem_append_right _ (mem_singleton_self _), rfl⟩
  | latestCross pair =>
    rcases hsnap : s.latestCross e.time pair with _ | snap
    · refine ⟨g, ?_, h.append⟩
      show watching.post g (.latestCross pair) (s.latestCross e.time pair) g
      rw [hsnap]
      rfl
    · refine ⟨{ g with cross := g.cross || !snap.isStale }, ?_, h.append.best, fun hcross => ?_⟩
      · show watching.post g (.latestCross pair) (s.latestCross e.time pair) _
        rw [hsnap]
        rfl
      · rcases hstale : snap.isStale with _ | _
        · exact ⟨e, s, pair, snap, mem_append_right _ (mem_singleton_self _), hsnap,
            hstale⟩
        · have hg : g.cross = true := by simpa [hstale] using hcross
          exact h.append.cross hg
  | load | now | next | nextSequence | put _ | putSwap _ | delete _ => exact ⟨g, rfl, h.append⟩

variable {rawBid rawAsk : ℚ}

lemma locks_from_snapshot {lib : GoLib} {fuel : ℕ} {tr : Trace} {pair : String}
    (h : Locks lib fuel tr pair rawBid rawAsk) (hcross : ¬ GivenLiveCross tr) :
    ∃ e s stat, snapshot e s ∈ tr ∧ s.best.stats e.time.nanos e.order (symbolOf pair) = some stat ∧
      rawBid = stat.bestBid ∧ rawAsk = stat.bestAsk := by
  have hnone : Tied ⟨none, false⟩ [] := ⟨fun _ h => absurd h (by simp), fun h => absurd h (by simp)⟩
  have hobj : ∀ g before e s c, Tied g before → watching.pre g c → _ := fun g before e s c h _ =>
    tied_answer g before e s c h
  have hseen : ∃ g, Tied g tr ∧ (g.cross = true ∨ FromSnapshot g pair rawBid rawAsk) := by
    rcases h with h | h | h
    · obtain ⟨g, htied, hq⟩ := follows_runs hobj h hnone (forwardLock_watching lib fuel _ _ _)
      exact ⟨g, htied, .inr (hq _ rfl)⟩
    · obtain ⟨g, htied, hq⟩ := follows_runs hobj h hnone (swapLock_watching lib fuel _ _ _)
      refine ⟨g, htied, (hq _ rfl).imp_right ?_⟩
      rintro ⟨bid, ask, ⟨rfl, rfl, -, -⟩, hsnap⟩
      exact hsnap
    · obtain ⟨g, htied, hq⟩ := follows_runs hobj h hnone (swapLock_watching lib fuel _ _ _)
      refine ⟨g, htied, (hq _ rfl).imp_right ?_⟩
      rintro ⟨bid, ask, ⟨-, -, rfl, rfl⟩, hsnap⟩
      exact hsnap
  obtain ⟨g, htied, hg⟩ := hseen
  rcases hg with hg | ⟨best, stat, hbest, hstat, hbid, hask⟩
  · exact absurd (htied.cross hg) hcross
  · obtain ⟨e, s, hmem, rfl⟩ := htied.best best hbest
    exact ⟨e, s, stat, hmem, hstat, hbid, hask⟩

/-- A quote of a source for the symbol, received no longer than `MaxStaleness` ago. -/
def Fresh (b : BestConsumer ℚ) (now : ℤ) (symbol : String) (p : SourceQuote ℚ) : Prop :=
  (∃ source, (b.bySource symbol).lookup source = some p) ∧ now - p.ts ≤ b.maxStaleness

/-- Both prices were shown by fresh sources, and they are prices. -/
structure FromFresh (b : BestConsumer ℚ) (now : ℤ) (symbol : String) (rawBid rawAsk : ℚ) :
    Prop where
  bid : ∃ p, Fresh b now symbol p ∧ p.bid = rawBid
  ask : ∃ p, Fresh b now symbol p ∧ p.ask = rawAsk
  pos : 0 < rawBid
  le : rawBid ≤ rawAsk

variable {b : BestConsumer ℚ}

lemma mem_active_iff (hlimit : 0 ≤ b.maxStaleness) (now : ℤ)
    (order : RangeOrder (SourceQuote ℚ)) (symbol : String) (p : SourceQuote ℚ) :
    p ∈ (order.list ((b.bySource symbol).entries.map Sigma.snd)).filter
        (·.active b.maxStaleness now) ↔ Fresh b now symbol p := by
  rw [mem_filter, GoMap.mem_range_values, Fresh]
  refine and_congr_right fun _ => ?_
  rw [SourceQuote.active, Bool.not_eq_true', decide_eq_false_iff_not]
  omega

lemma stats_fromFresh_iff (hlimit : 0 ≤ b.maxStaleness) {now : ℤ}
    {order : RangeOrder (SourceQuote ℚ)} {symbol : String} {stat : BestSymbolStat ℚ}
    (h : b.stats now order symbol = some stat) :
    FromFresh b now symbol stat.bestBid stat.bestAsk ↔ ∃ p, Fresh b now symbol p := by
  refine ⟨fun hfresh => hfresh.bid.imp fun _ hp => hp.1, fun hsome => ?_⟩
  obtain ⟨bySource, hlookup, rfl⟩ := Option.map_eq_some_iff.mp h
  have hby : b.bySource symbol = bySource := by rw [BestConsumer.bySource, hlookup, Option.getD]
  have hmem := mem_active_iff hlimit now order symbol
  rw [hby] at hmem
  set sqs := order.list (bySource.entries.map Sigma.snd)
  rcases recompute_cases b.maxStaleness now sqs with
    ⟨hnil, -⟩ | ⟨-, -, hcross, hbest⟩ | ⟨-, -, -, n, hbest⟩
  · obtain ⟨p, hp⟩ := hsome
    rw [← hmem, hnil] at hp
    exact absurd hp (by simp)
  · obtain ⟨p, hp, hbid, -⟩ := hbest.bid_mem
    obtain ⟨q, hq, hask, -⟩ := hbest.ask_mem
    refine ⟨⟨p, (hmem p).mp hp, hbid⟩, ⟨q, (hmem q).mp hq, hask⟩, ?_, ?_⟩
    · show 0 < (recompute b.maxStaleness now sqs).bid
      rw [← hbid]
      exact p.pos
    · show (recompute b.maxStaleness now sqs).bid ≤ (recompute b.maxStaleness now sqs).ask
      rw [← hbid, ← hask]
      exact not_lt.mp fun hlt => hcross ⟨p, hp, q, hq, hlt⟩
  · have hn := (hmem n).mp hbest.mem
    refine ⟨⟨n, hn, hbest.bid.symm⟩, ⟨n, hn, hbest.ask.symm⟩, ?_, ?_⟩
    · show 0 < (recompute b.maxStaleness now sqs).bid
      rw [hbest.bid]
      exact n.pos
    · show (recompute b.maxStaleness now sqs).bid ≤ (recompute b.maxStaleness now sqs).ask
      rw [hbest.bid, hbest.ask]
      exact n.le

/-- **When a lock is priced from fresh sources**: with a staleness limit, exactly when the symbol
has a fresh source in the snapshot that the lock was priced from. -/
theorem fresh_iff (lib : GoLib) (fuel : ℕ) {tr : Trace} {pair : String} {rawBid rawAsk : ℚ}
    (h : Locks lib fuel tr pair rawBid rawAsk) (hcross : ¬ GivenLiveCross tr) :
    ∃ e s, snapshot e s ∈ tr ∧
      (s.best.stats e.time.nanos e.order (symbolOf pair)).map
        (fun stat => (stat.bestBid, stat.bestAsk)) = some (rawBid, rawAsk) ∧
      (0 ≤ s.best.maxStaleness →
        (FromFresh s.best e.time.nanos (symbolOf pair) rawBid rawAsk ↔
          ∃ p, Fresh s.best e.time.nanos (symbolOf pair) p)) := by
  obtain ⟨e, s, stat, hmem, hstat, rfl, rfl⟩ := locks_from_snapshot h hcross
  refine ⟨e, s, hmem, by rw [hstat]; rfl, fun hlimit => ?_⟩
  exact stats_fromFresh_iff hlimit hstat

def quietServer : Server where
  best :=
    { maxStaleness := 30 * 1000000000
      cache := AList.singleton "USDKRW"
        (AList.singleton "SMB" ⟨1380, 1382, 5, 6, 0, by decide, by decide⟩)
      dedup := noDedup
      lastEmitted := ∅
      lastTrade := ∅ }
  crossStaleness := 0
  lastEmits := ∅
  table := some ⟨1, ∅, ∅, ∅, [], ∅, none⟩
  gen := QuoteId.Ids.newGenerator "A"
  puts := []

def spotRequest : Request ForwardLockRequest :=
  ⟨"POST", .ok ⟨"USD/KRW", "SPOT", "", "WEB.SEOUL.VIP", "", "BUY"⟩⟩

def quietLock (now : ℤ) : Option (Trace × Reply ForwardLockResponse) :=
  exec lockObject (forwardLock bareLib 1 ⟨false, true, some "A", true, 0⟩ spotRequest)
    (List.replicate 6 ⟨⟨now, 0⟩, .same _, .ok ()⟩) quietServer

def crossPair : LockCall → Option String
  | .latestCross pair => some pair
  | _ => none

def shown : Trace × Reply ForwardLockResponse → Option (List String × String × ℚ × ℚ)
  | (tr, .ok out) =>
    some (tr.filterMap fun ev => crossPair ev.call, out.quoteID, out.rawBid, out.rawAsk)
  | _ => none

lemma not_givenLiveCross {tr : Trace} (h : tr.filterMap (fun ev => crossPair ev.call) = []) :
    ¬ GivenLiveCross tr := by
  rintro ⟨e, s, pair, snap, hmem, -⟩
  have hpair : pair ∈ tr.filterMap fun ev => crossPair ev.call :=
    mem_filterMap.mpr ⟨askCross e s pair, hmem, rfl⟩
  rw [h] at hpair
  exact absurd hpair (by simp)

lemma exists_of_shown {now : ℤ} {id : String}
    (h : (quietLock now).bind shown = some ([], id, rawBid, rawAsk)) :
    ∃ tr out, quietLock now = some (tr, .ok out) ∧ ¬ GivenLiveCross tr ∧ out.quoteID = id ∧
      out.rawBid = rawBid ∧ out.rawAsk = rawAsk := by
  obtain ⟨⟨tr, reply⟩, hexec, hshown⟩ := bind_eq_some_iff.mp h
  rcases reply with _ | _ | out | _
  · exact absurd hshown (by simp [shown])
  · exact absurd hshown (by simp [shown])
  · have hvalues := some.inj hshown
    simp only [Prod.mk.injEq] at hvalues
    exact ⟨tr, out, hexec, not_givenLiveCross hvalues.1, hvalues.2⟩
  · exact absurd hshown (by simp [shown])

theorem fresh_iff_quiet : ∃ tr out, quietLock 1000000000 = some (tr, .ok out) ∧
    ∃ e s, snapshot e s ∈ tr ∧
      (s.best.stats e.time.nanos e.order (symbolOf out.pair)).map
        (fun stat => (stat.bestBid, stat.bestAsk)) = some (out.rawBid, out.rawAsk) ∧
      (0 ≤ s.best.maxStaleness →
        (FromFresh s.best e.time.nanos (symbolOf out.pair) out.rawBid out.rawAsk ↔
          ∃ p, Fresh s.best e.time.nanos (symbolOf out.pair) p)) := by
  obtain ⟨tr, out, hexec, hcross, -⟩ := exists_of_shown
    (show (quietLock 1000000000).bind shown = some ([], "A-rs-1", 1380, 1382) by decide +kernel)
  exact ⟨tr, out, hexec, fresh_iff bareLib 1 (.forward (runs_of_exec _ _ hexec)) hcross⟩

theorem not_fromFresh_quiet : ∃ tr out, quietLock (60 * 1000000000) = some (tr, .ok out) ∧
    ¬ GivenLiveCross tr ∧ out.quoteID = "A-1aao-1" ∧
      ¬ FromFresh quietServer.best (60 * 1000000000) "USDKRW" out.rawBid out.rawAsk := by
  have hrun : (quietLock (60 * 1000000000)).bind shown = some ([], "A-1aao-1", 0, 0) := by
    decide +kernel
  obtain ⟨tr, out, hexec, hcross, hid, hbid, -⟩ := exists_of_shown hrun
  refine ⟨tr, out, hexec, hcross, hid, fun hfresh => ?_⟩
  have hpos := hfresh.pos
  rw [hbid] at hpos
  exact absurd hpos (by decide)

end Wtg.Price.LockFresh
