import Wtg.Lib.Windows
import Wtg.Price.BarAggregator

/-! # Bars are exact summaries

What the aggregator is for is said by `Windows`: the ticks of each pair and timeframe in groups, one
after the other. -/

namespace Wtg.Price.BarExact

open Lib Pricing.Engine Quote.Bars Price.BarAggregator List Option Windows

variable {R : Type*} [LinearOrder R]

/-- The bars of the aggregator are the summaries of the groups, key by key. -/
structure Summarised (a : Aggregator R) (w : Windows BarKey (Quote R)) : Prop where
  closed : List.Forall₂ (fun b g => BarKey.mk b.pair b.tf = g.1 ∧ Summary b g.2) a.closed w.closed
  opened : ∀ {key b}, a.bars.lookup key = some b →
    BarKey.mk b.pair b.tf = key ∧ Summary b (w.current key)
  idle : ∀ {key}, a.bars.lookup key = none → w.current key = []

lemma summarised_new : Summarised (newAggregator : Aggregator R) (empty _ _) where
  closed := .nil
  opened := by
    intro key b h
    exact absurd h (by simp [newAggregator])
  idle := fun _ => rfl

variable {w : Windows BarKey (Quote R)} {a : Aggregator R}

lemma Summarised.put (h : Summarised a w) {key : BarKey} {b : Bar R} {q : Quote R}
    (hkey : BarKey.mk b.pair b.tf = key) (hb : Summary b (w.current key ++ [q])) :
    Summarised (put a key b) (w.absorb key q) where
  closed := h.closed
  opened := by
    intro j c hc
    rcases put_lookup_cases hc with ⟨rfl, rfl⟩ | ⟨hj, hc⟩
    · rw [absorb_current_self]
      exact ⟨hkey, hb⟩
    · rw [absorb_current_of_ne w q hj]
      exact h.opened hc
  idle := by
    intro j hc
    by_cases hj : j = key
    · subst hj
      exact absurd hc (by simp)
    · rw [put_lookup_of_ne a b hj] at hc
      rw [absorb_current_of_ne w q hj]
      exact h.idle hc

lemma Summarised.shut (h : Summarised a w) {key : BarKey} {b : Bar R}
    (hb : a.bars.lookup key = some b) :
    Summarised (shut a key b) (w.roll key) where
  closed := by
    obtain ⟨hkey, hsum⟩ := h.opened hb
    exact rel_append h.closed (.cons ⟨hkey, hsum.close⟩ .nil)
  opened := by
    intro j c hc
    obtain ⟨hj, hc⟩ := shut_lookup_some hc
    rw [roll_current_of_ne w hj]
    exact h.opened hc
  idle := by
    intro j hc
    by_cases hj : j = key
    · subst hj
      exact roll_current_self w j
    · rw [shut_lookup_of_ne a b hj] at hc
      rw [roll_current_of_ne w hj]
      exact h.idle hc

lemma Summarised.putNew (h : Summarised a w) {tf : Timeframe} {q : Quote R}
    (hnone : a.bars.lookup ⟨q.pair, tf⟩ = none) :
    Summarised (BarAggregator.put a ⟨q.pair, tf⟩ (newBar tf q)) (w.absorb ⟨q.pair, tf⟩ q) := by
  refine h.put rfl ?_
  rw [h.idle hnone]
  exact summary_newBar tf q

lemma summarised_applyTo (h : Summarised a w) (tf : Timeframe) (q : Quote R) :
    ∃ w', Summarised (applyTo a tf q) w' ∧
      ∀ j, w'.stream j = w.stream j ++ if j = ⟨q.pair, tf⟩ then [q] else [] := by
  rcases applyTo_cases a tf q with ⟨hnone, heq⟩ | ⟨cur, hcur, hin, heq⟩ | ⟨cur, hcur, -, heq⟩
  · rw [heq]
    exact ⟨_, h.putNew hnone, w.stream_absorb _ q⟩
  · obtain ⟨hkey, hsum⟩ := h.opened hcur
    have hpair : q.pair = cur.pair := (congrArg BarKey.pair hkey).symm
    rw [heq]
    exact ⟨_, h.put hkey (hsum.update hpair hin), w.stream_absorb _ q⟩
  · -- the group of the bar before is handed over, then the tick opens the next
    have hshut := h.shut hcur
    have hnone := shut_lookup_self a ⟨q.pair, tf⟩ cur
    rw [heq]
    refine ⟨_, hshut.putNew hnone, ?_⟩
    intro j
    rw [stream_absorb, stream_roll]

lemma summarised_applyAll (q : Quote R) :
    ∀ (tfs : List Timeframe) {a : Aggregator R} {w : Windows BarKey (Quote R)}, tfs.Nodup →
      Summarised a w → ∃ w', Summarised (applyAll a tfs q) w' ∧
        ∀ j, w'.stream j = w.stream j ++ if j.pair = q.pair ∧ j.tf ∈ tfs then [q] else []
  | [], a, w, _, h => ⟨w, h, by simp⟩
  | tf :: tfs, a, w, hnodup, h => by
    obtain ⟨hnew, hrest⟩ := nodup_cons.mp hnodup
    obtain ⟨w₁, h₁, hs₁⟩ := summarised_applyTo h tf q
    obtain ⟨w₂, h₂, hs₂⟩ := summarised_applyAll q tfs hrest h₁
    refine ⟨w₂, h₂, ?_⟩
    rintro ⟨p, t⟩
    rw [hs₂, hs₁, append_assoc]
    congr 1
    by_cases ht : t = tf
    · subst ht
      simp [hnew]
    · simp [ht]

lemma summarised_sweep (h : Summarised a w) (now : ℤ)
    (order : RangeOrder (Sigma fun _ : BarKey => Bar R)) :
    ∃ w', Summarised (sweep a now order) w' ∧ ∀ j, w'.stream j = w.stream j := by
  refine sweep_induct (fun a' => ∃ w', Summarised a' w' ∧ ∀ j, w'.stream j = w.stream j)
    ?_ order ⟨w, h, fun _ => rfl⟩
  rintro a' key b ⟨w', h', hs⟩ hb -
  refine ⟨w'.roll key, h'.shut hb, ?_⟩
  intro j
  rw [stream_roll, hs]

lemma mem_allTimeframes (tf : Timeframe) : tf ∈ allTimeframes := by
  cases tf <;> decide

variable [Zero R] (decoder : Option (CookerBodyDecoder R))

/-- **Bars are exact summaries**: after any calls every bar summarises a group, and the groups of a
pair and timeframe are its accepted ticks, one after the other. -/
theorem summarised_run (inputs : List (Input R)) :
    ∃ w, Summarised (run decoder inputs) w ∧
      ∀ key, w.stream key =
        (accepted decoder inputs).filter fun q => decide (q.pair = key.pair) := by
  induction inputs using reverseRecOn with
  | nil => exact ⟨_, summarised_new, fun _ => rfl⟩
  | append_singleton inputs i ih =>
    obtain ⟨w, h, hs⟩ := ih
    rw [run_append, accepted_append]
    rcases step_cases decoder (run decoder inputs) i with
      ⟨q, hq, hstep⟩ | ⟨hq, hstep | ⟨now, order, -, hstep⟩⟩
    · obtain ⟨w', h', hs'⟩ := summarised_applyAll q allTimeframes (by decide) h
      rw [hstep, hq, toList_some]
      refine ⟨w', h', ?_⟩
      intro key
      rw [hs', hs, filter_append]
      simp [mem_allTimeframes, filter_cons, eq_comm]
    · rw [hstep, hq, toList_none, append_nil]
      exact ⟨w, h, hs⟩
    · obtain ⟨w', h', hs'⟩ := summarised_sweep h now order
      rw [hstep, hq, toList_none, append_nil]
      exact ⟨w', h', fun key => (hs' key).trans (hs key)⟩

end Wtg.Price.BarExact
