import Wtg.Price.BestSound

/-! # How far dedup lets the best quote drift

The dedup filter drops a best quote that is the one last emitted or within `tick size * multiplier`
of it. Over every run the record of a symbol stays that near to its best quote (`drift_bounded`). -/

namespace Wtg.Price.BestDrift

open Lib Lib.Runs Quote.Envelope Price.Best Price.BestSound AList

/-- A run that is watched: the best quote last computed for each symbol, the prices last sent, and
whether a quote that passed the filter was lost. -/
structure Watch where
  b : BestConsumer ℚ
  best : String → Option (BestQuote ℚ)
  sent : String → Option (ℚ × ℚ)
  lost : Bool

def Watch.onTick (wire : Wire ℚ) (w : Watch) (i : Input ℚ) : Watch :=
  match accept wire i.tick with
  | none => { w with b := (w.b.onTick wire i).1 }
  | some env =>
    let symbol := i.tick.symbol
    let best := w.b.recomputed i env
    { b := (w.b.onTick wire i).1
      best := Function.update w.best symbol (some best)
      sent := match (w.b.onTick wire i).2 with
        | some e => Function.update w.sent symbol (some (e.env.bid, e.env.ask))
        | none => w.sent
      lost := w.lost || (!w.b.shouldDedup symbol best.bid best.ask &&
        (w.b.onTick wire i).2.isNone) }

def watch (wire : Wire ℚ) (maxStaleness : ℤ) (dedup : DedupOptions ℚ) (is : List (Input ℚ)) :
    Watch :=
  is.foldl (Watch.onTick wire)
    ⟨newBestConsumer maxStaleness dedup, fun _ => none, fun _ => none, false⟩

def threshold (b : BestConsumer ℚ) (symbol : String) : ℚ :=
  b.tickSizeFor symbol * b.dedup.tickSizeMultiplier

/-- The record is the best quote, or less than `t` away from it on both sides. -/
def Near (t : ℚ) (e : LastEmit ℚ) (best : BestQuote ℚ) : Prop :=
  (0 < t → |e.bid - best.bid| < t ∧ |e.ask - best.ask| < t) ∧
    (t ≤ 0 → e.bid = best.bid ∧ e.ask = best.ask)

variable {best : BestQuote ℚ}

lemma Near.of_eq {t : ℚ} {e : LastEmit ℚ} (hbid : e.bid = best.bid)
    (hask : e.ask = best.ask) : Near t e best := by
  refine ⟨fun ht => ?_, fun _ => ⟨hbid, hask⟩⟩
  rw [hbid, hask, sub_self, sub_self, abs_zero]
  exact ⟨ht, ht⟩

lemma absDiff_eq (a b : ℚ) : absDiff a b = |a - b| := by
  unfold absDiff
  split_ifs with h
  · exact (abs_of_pos (sub_pos.mpr h)).symm
  · rw [abs_sub_comm, abs_of_nonneg (sub_nonneg.mpr (not_lt.mp h))]

lemma near_of_shouldDedup {b : BestConsumer ℚ} {symbol : String}
    (h : b.shouldDedup symbol best.bid best.ask = true) :
    ∃ e, b.lastEmitted.lookup symbol = some e ∧ Near (threshold b symbol) e best := by
  unfold BestConsumer.shouldDedup at h
  split at h
  · cases h
  rcases hprev : b.lastEmitted.lookup symbol with _ | prev
  · simp [hprev] at h
  refine ⟨prev, rfl, ?_⟩
  simp only [hprev] at h
  split_ifs at h with _ hsame
  · exact Near.of_eq hsame.1 hsame.2
  · simp only [decide_eq_true_eq, absDiff_eq] at h
    obtain ⟨-, hbid, hask⟩ := h
    exact ⟨fun _ => ⟨hbid, hask⟩, fun ht => absurd (hbid.trans_le ht) (abs_nonneg _).not_gt⟩

structure Inv (w : Watch) : Prop where
  near : ∀ symbol best, w.best symbol = some best →
    ∃ e, w.b.lastEmitted.lookup symbol = some e ∧ Near (threshold w.b symbol) e best
  sent : w.lost = false → ∀ symbol e, w.b.lastEmitted.lookup symbol = some e →
    w.sent symbol = some (e.bid, e.ask)

variable {wire : Wire ℚ} (b : BestConsumer ℚ)

lemma threshold_onTick (i : Input ℚ) : threshold (b.onTick wire i).1 = threshold b := by
  unfold BestConsumer.onTick
  rcases accept wire i.tick with _ | env
  · rfl
  · rfl

variable {env : ValidEnvelope ℚ}

lemma lastEmitted_onTick {i : Input ℚ}
    (hacc : accept wire i.tick = some env) :
    (b.onTick wire i).1.lastEmitted =
      if b.shouldDedup i.tick.symbol (b.recomputed i env).bid (b.recomputed i env).ask then
        b.lastEmitted
      else b.lastEmitted.insert i.tick.symbol
        ⟨(b.recomputed i env).bid, (b.recomputed i env).ask, true⟩ := by
  rw [BestConsumer.onTick, hacc]
  rfl

lemma emission_onTick {i : Input ℚ} {e : Emission ℚ}
    (hacc : accept wire i.tick = some env) (h : (b.onTick wire i).2 = some e) :
    ¬ b.shouldDedup i.tick.symbol (b.recomputed i env).bid (b.recomputed i env).ask ∧
      e.env.bid = (b.recomputed i env).bid ∧ e.env.ask = (b.recomputed i env).ask := by
  rw [BestConsumer.onTick, hacc] at h
  change (if _ ∨ _ then none else emission wire i.tick i.clock (b.recomputed i env) _) = _ at h
  split at h
  · cases h
  · rename_i hskip
    have hbest := env_of_emission h
    exact ⟨fun hs => hskip (.inl hs), (congrArg BestQuote.bid hbest).symm,
      (congrArg BestQuote.ask hbest).symm⟩

lemma Inv.onTick {w : Watch} (h : Inv w) (i : Input ℚ) : Inv (w.onTick wire i) := by
  unfold Watch.onTick
  rcases hacc : accept wire i.tick with _ | env
  · have hb : (w.b.onTick wire i).1 = w.b := by rw [BestConsumer.onTick, hacc]
    rw [hb]
    exact h
  have hlast := lastEmitted_onTick w.b hacc
  have hother : ∀ symbol ≠ i.tick.symbol, (w.b.onTick wire i).1.lastEmitted.lookup symbol =
      w.b.lastEmitted.lookup symbol := by
    intro symbol hne
    rw [hlast]
    split_ifs
    · rfl
    · exact lookup_insert_ne hne
  refine ⟨fun symbol best hbest => ?_, fun hlost symbol e he => ?_⟩
  · simp only [threshold_onTick]
    by_cases hsymbol : symbol = i.tick.symbol
    · subst hsymbol
      obtain rfl : w.b.recomputed i env = best := by simpa using hbest
      rw [hlast]
      split_ifs with hskip
      · exact near_of_shouldDedup hskip
      · exact ⟨_, lookup_insert _, Near.of_eq rfl rfl⟩
    · simp only [hother symbol hsymbol]
      exact h.near symbol best (by simpa [hsymbol] using hbest)
  · simp only [Bool.or_eq_false_iff] at hlost
    obtain ⟨hlost, hnone⟩ := hlost
    rcases hemit : (w.b.onTick wire i).2 with _ | em
    · -- nothing was sent, so the quote was dropped and the record is the old one
      rw [hlast, if_pos (by simpa [hemit] using hnone)] at he
      exact h.sent hlost symbol e he
    · obtain ⟨hskip, hbid, hask⟩ := emission_onTick w.b hacc hemit
      by_cases hsymbol : symbol = i.tick.symbol
      · subst hsymbol
        rw [hlast, if_neg hskip, lookup_insert] at he
        obtain rfl := Option.some.inj he
        simp [hbid, hask]
      · rw [hother symbol hsymbol] at he
        simpa [hsymbol] using h.sent hlost symbol e he

lemma inv_watch (wire : Wire ℚ) (maxStaleness : ℤ) (dedup : DedupOptions ℚ)
    (is : List (Input ℚ)) : Inv (watch wire maxStaleness dedup is) := by
  induction is using List.reverseRecOn with
  | nil => exact ⟨fun _ _ h => (nomatch h), fun _ _ _ h => (nomatch h)⟩
  | append_singleton is i ih =>
    rw [watch, List.foldl_append]
    exact ih.onTick i

lemma watch_b (wire : Wire ℚ) (maxStaleness : ℤ) (dedup : DedupOptions ℚ) (is : List (Input ℚ)) :
    (watch wire maxStaleness dedup is).b = after wire maxStaleness dedup is := by
  induction is using List.reverseRecOn with
  | nil => rfl
  | append_singleton is i ih =>
    have hstep : ∀ w : Watch, (w.onTick wire i).b = (w.b.onTick wire i).1 := by
      intro w
      unfold Watch.onTick
      rcases accept wire i.tick with _ | env
      · rfl
      · rfl
    rw [watch, List.foldl_append, after, final_append]
    exact (hstep _).trans (congrArg (fun b => (b.onTick wire i).1) ih)

/-- **Dedup drift is bounded.** The record of a symbol is its best quote, or less than the threshold
away; with no tick lost the record is what was sent on last. -/
theorem drift_bounded (wire : Wire ℚ) (maxStaleness : ℤ) (dedup : DedupOptions ℚ)
    (is : List (Input ℚ)) (symbol : String) (best : BestQuote ℚ)
    (hbest : (watch wire maxStaleness dedup is).best symbol = some best) :
    ∃ e, (after wire maxStaleness dedup is).lastEmitted.lookup symbol = some e ∧
      Near (threshold (after wire maxStaleness dedup is) symbol) e best ∧
      ((watch wire maxStaleness dedup is).lost = false →
        (watch wire maxStaleness dedup is).sent symbol = some (e.bid, e.ask)) := by
  have hinv := inv_watch wire maxStaleness dedup is
  obtain ⟨e, he, hnear⟩ := hinv.near symbol best hbest
  refine ⟨e, ?_, ?_, fun hlost => hinv.sent hlost symbol e he⟩
  · rwa [← watch_b]
  · rwa [← watch_b]

/-- A body of one byte is a quote that many half cents above 1380. -/
def centWire : Wire ℚ where
  trimSpace := id
  unmarshal
    | n :: _ => .ok ⟨"USDKRW", 1380 + n.toNat / 200, 1382 + n.toNat / 200, 0, "SMB", 1, 0, 0, 5, 6⟩
    | [] => .error "unexpected end of JSON input"
  marshal _ := .ok []

def oneTick : DedupOptions ℚ := ⟨true, 1, ∅⟩

def moves (cents : List UInt8) : List (Input ℚ) :=
  cents.map fun n => ⟨⟨0, "USDKRW", 0, 0, 0, 0, [n], 1, "SMB"⟩, ⟨1, 1, 1, 1⟩, .same _⟩

theorem drift_bounded_moves :
    (watch centWire 0 oneTick (moves [1, 2])).sent "USDKRW" = some (1380.005, 1382.005) ∧
    (watch centWire 0 oneTick (moves [1, 2, 5])).sent "USDKRW" = some (1380.025, 1382.025) ∧
    (watch centWire 0 oneTick (moves [1, 2, 5, 6])).best "USDKRW" =
      some ⟨1380.03, 1382.03, 5, 6, 1⟩ ∧
    threshold (after centWire 0 oneTick (moves [1, 2, 5, 6])) "USDKRW" = 0.01 ∧
    ∃ e, (after centWire 0 oneTick (moves [1, 2, 5, 6])).lastEmitted.lookup "USDKRW" = some e ∧
      Near (threshold (after centWire 0 oneTick (moves [1, 2, 5, 6])) "USDKRW") e
        ⟨1380.03, 1382.03, 5, 6, 1⟩ ∧
      (watch centWire 0 oneTick (moves [1, 2, 5, 6])).sent "USDKRW" = some (e.bid, e.ask) := by
  have hbest : (watch centWire 0 oneTick (moves [1, 2, 5, 6])).best "USDKRW" =
      some ⟨1380.03, 1382.03, 5, 6, 1⟩ := by decide +kernel
  obtain ⟨e, he, hnear, hsent⟩ := drift_bounded centWire 0 oneTick (moves [1, 2, 5, 6]) _ _ hbest
  exact ⟨by decide +kernel, by decide +kernel, hbest, by decide +kernel, e, he, hnear,
    hsent (by decide +kernel)⟩

def shortTick : Input ℚ := ⟨⟨0, "EURO", 0, 0, 0, 0, [1], 1, "SMB"⟩, ⟨1, 1, 1, 1⟩, .same _⟩

theorem drift_not_below_threshold :
    (watch sampleWire 0 oneTick [shortTick]).best "EURO" = some ⟨1380, 1382, 5, 6, 1⟩ ∧
      ((after sampleWire 0 oneTick [shortTick]).lastEmitted.lookup "EURO").map
        (fun e => (e.bid, e.ask)) = some (1380, 1382) ∧
      ¬ |(1380 : ℚ) - 1380| < threshold (after sampleWire 0 oneTick [shortTick]) "EURO" := by
  decide +kernel

end Wtg.Price.BestDrift
