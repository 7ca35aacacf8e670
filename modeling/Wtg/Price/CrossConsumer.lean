import Wtg.Lib.Transition
import Wtg.Price.Best
import Wtg.Pricing.CrossRate

/-! # Crosses from the quotes of their legs

`CrossRateConsumer` of `internal/price/crossrate_consumer.go`. -/

namespace Wtg.Price.CrossConsumer

open Lib Lib.Transition Quote.Envelope Price.Best Pricing.CrossRate List AList

structure PairMaster where
  lookupBySymbol : String → Option String
  reverseSymbol : String → Option String

structure SymbolMap where
  lookup : String → Option (String × Bool)
  reverse : String → Option String

/-- The two tables of a consumer, as they are at the time of a call. -/
structure Tables where
  pairs : Option PairMaster
  symbols : Option SymbolMap

def Tables.lookupPair (w : Tables) (sym : String) : Option String :=
  match w.pairs.bind (·.lookupBySymbol sym), w.symbols with
  | some pair, _ => some pair
  | none, some symbols =>
    match symbols.lookup sym with
    | some (pair, true) => some pair
    | _ => none
  | none, none => if w.pairs.isNone then some sym else none

def Tables.reverseSymbol (w : Tables) (pair : String) : String :=
  match w.pairs.bind (·.reverseSymbol pair), w.symbols.bind (·.reverse pair) with
  | some s, _ => s
  | none, some s => s
  | none, none => String.ofList (pair.toList.filter (· ≠ '/'))

structure Windows where
  debounceWindow : ℤ
  maxStaleness : ℤ
  pos : 0 < debounceWindow

/-- `NewCrossRateConsumer`: what is not positive is replaced by a default. -/
def newWindows (debounceWindow maxStaleness : ℤ) : Windows where
  debounceWindow := if debounceWindow ≤ 0 then 10000000 else debounceWindow
  maxStaleness := if maxStaleness ≤ 0 then 30000000000 else maxStaleness
  pos := by
    split_ifs with h
    · decide
    · exact not_le.mp h

variable {K : Type*}

structure Formula (K : Type*) extends CrossFormula K where
  legA : String
  legB : String

/-- `legState`. -/
structure Leg (K : Type*) extends CrossInput K where
  ts : ℤ

/-- What a cross was computed from, and the tick that was sent. -/
structure Emission (K : Type*) where
  cross : String
  formula : Formula K
  a : Leg K
  b : Leg K
  result : CrossResult K
  tick : Tick

/-- `pending`: the crosses that the tick of the current call is still to be offered to; `sent`: what
went downstream. -/
structure State (K : Type*) where
  formulas : List (String × Formula K)
  legCache : GoMap String (Leg K)
  debounce : GoMap String ℤ
  lastEmits : GoMap String (CrossResult K × ℤ)
  pending : List (Tick × String)
  sent : List (Emission K)

def State.start : State K := ⟨[], ∅, ∅, ∅, [], []⟩

/-- The map `leg2cross`; the formulas are in the order in which Go goes through them. -/
def leg2cross (formulas : List (String × Formula K)) (pair : String) : List String :=
  formulas.flatMap fun (cross, f) =>
    (if f.legA = pair then [cross] else []) ++ if f.legB = pair then [cross] else []

inductive Action (K : Type*)
  | replaceFormulas (formulas : List (String × Formula K))
  | onTick (w : Tables) (t : Tick) (ts : ℤ)
  | offer (w : Tables) (since now : ℤ)

variable [Field K] [LinearOrder K] (wire : Wire K) (c : Windows)

def quoteOf (w : Tables) (t : Tick) : Option (String × ValidEnvelope K) :=
  if t.symbol = "" ∨ t.source = sourceCross then none
  else
    match w.lookupPair t.symbol, decodeJSONEnvelope wire t.body with
    | some pair, .ok env => some (pair, env)
    | _, _ => none

def crossTick (w : Tables) (src : Tick) (cross : String) (res : CrossResult K) (now : ℤ) : Tick :=
  let sym := w.reverseSymbol cross
  let body := wire.marshal ⟨sym, res.bid, res.ask, now, sourceCross, 0, 0, 0, 0, 0⟩
  ⟨src.marketID, sym, src.seqNum, 0, 0, 0, body.toOption.getD [], now, sourceCross⟩

def maybeEmitCross (s : State K) (w : Tables) (src : Tick) (cross : String) (since now : ℤ) :
    Option (Emission K) :=
  if (s.debounce.lookup cross).any fun last => since - last < c.debounceWindow then none
  else
    match s.formulas.lookup cross with
    | none => none
    | some f =>
      match s.legCache.lookup f.legA, s.legCache.lookup f.legB with
      | some a, some b =>
        if now - a.ts > c.maxStaleness ∨ now - b.ts > c.maxStaleness then none
        else
          match computeCross f.toCrossFormula a.toCrossInput b.toCrossInput with
          | .error _ => none
          | .ok res => some ⟨cross, f, a, b, res, crossTick wire w src cross res now⟩
      | _, _ => none

def step (s : State K) : Action K → Option (State K)
  | .replaceFormulas formulas => if s.pending = [] then some { s with formulas } else none
  | .onTick w t ts =>
    if s.pending ≠ [] then none
    else
      match quoteOf wire w t with
      | none => some s
      | some (pair, env) => some { s with
          legCache := s.legCache.insert pair ⟨⟨env.bid, env.ask⟩, ts⟩
          pending := (leg2cross s.formulas pair).map (t, ·) }
  | .offer w since now =>
    match s.pending with
    | [] => none
    | (src, cross) :: pending =>
      if now < since then none
      else
        match maybeEmitCross wire c s w src cross since now with
        | none => some { s with pending }
        | some e => some { s with
            debounce := s.debounce.insert cross now
            lastEmits := s.lastEmits.insert cross (e.result, now)
            pending
            sent := s.sent ++ [e] }

/-- The result, its time and whether it is stale. -/
def latestCross (s : State K) (pair : String) (now : ℤ) : Option (CrossResult K × ℤ × Bool) :=
  (s.lastEmits.lookup pair).map fun (res, ts) => (res, ts, now - ts > c.maxStaleness)

def Action.formulas : Action K → Option (List (String × Formula K))
  | .replaceFormulas formulas => some formulas
  | _ => none

/-- The quote of a leg that an action brings: of a tick that is not a cross itself. -/
def Action.quote (pair : String) : Action K → Option (Leg K)
  | .onTick w t ts =>
    match quoteOf wire w t with
    | some (p, env) => if p = pair then some ⟨⟨env.bid, env.ask⟩, ts⟩ else none
    | none => none
  | _ => none

/-- The emission, after the actions `past`: its formula is of those put in force last, and its legs
are the last quotes of the two pairs. -/
structure Emission.Sound (past : List (Action K)) (w : Tables) (e : Emission K) : Prop where
  formula : ∃ formulas, LastSaid Action.formulas past formulas ∧
    formulas.lookup e.cross = some e.formula
  legA : LastSaid (Action.quote wire e.formula.legA) past e.a
  legB : LastSaid (Action.quote wire e.formula.legB) past e.b
  computed : computeCross e.formula.toCrossFormula e.a.toCrossInput e.b.toCrossInput = .ok e.result
  freshA : e.tick.received - e.a.ts ≤ c.maxStaleness
  freshB : e.tick.received - e.b.ts ≤ c.maxStaleness
  tick : ∃ src, e.tick = crossTick wire w src e.cross e.result e.tick.received

structure Inv (past : List (Action K)) (s : State K) : Prop where
  formulas : s.formulas = [] ∨ LastSaid Action.formulas past s.formulas
  legs : ∀ pair leg, s.legCache.lookup pair = some leg → LastSaid (Action.quote wire pair) past leg
  sound : ∀ e ∈ s.sent, ∃ before w since,
    before ++ [.offer w since e.tick.received] <+: past ∧ e.Sound wire c before w
  apart : s.sent.Pairwise fun e e' => e.cross = e'.cross →
    c.debounceWindow ≤ e'.tick.received - e.tick.received
  debounced : ∀ e ∈ s.sent, ∃ last, s.debounce.lookup e.cross = some last ∧ e.tick.received ≤ last
  last : ∀ pair res ts, s.lastEmits.lookup pair = some (res, ts) →
    ∃ e ∈ s.sent, e.cross = pair ∧ e.result = res ∧ e.tick.received = ts

variable {wire c}

lemma inv_start : Inv wire c [] State.start where
  formulas := .inl rfl
  legs := by simp [State.start]
  sound := by simp [State.start]
  apart := .nil
  debounced := by simp [State.start]
  last := by simp [State.start]

variable {past : List (Action K)}

lemma Inv.quiet {s s' : State K} {a : Action K} (h : Inv wire c past s)
    (hformulas : s'.formulas = [] ∨ LastSaid Action.formulas (past ++ [a]) s'.formulas)
    (hlegs : ∀ pair leg, s'.legCache.lookup pair = some leg →
      LastSaid (Action.quote wire pair) (past ++ [a]) leg)
    (hsent : s'.sent = s.sent) (hdebounce : s'.debounce = s.debounce)
    (hlast : s'.lastEmits = s.lastEmits) : Inv wire c (past ++ [a]) s' where
  formulas := hformulas
  legs := hlegs
  sound e he := by
    obtain ⟨before, w, since, hbefore, hsound⟩ := h.sound e (hsent ▸ he)
    exact ⟨before, w, since, hbefore.trans (prefix_append _ _), hsound⟩
  apart := hsent ▸ h.apart
  debounced := by
    rw [hsent, hdebounce]
    exact h.debounced
  last := by
    rw [hsent, hlast]
    exact h.last

lemma maybeEmitCross_some {s : State K} {w : Tables} {src : Tick} {cross : String}
    {since now : ℤ} {e : Emission K} (h : maybeEmitCross wire c s w src cross since now = some e) :
    (∀ last, s.debounce.lookup cross = some last → c.debounceWindow ≤ since - last) ∧
      s.formulas.lookup cross = some e.formula ∧
      s.legCache.lookup e.formula.legA = some e.a ∧ s.legCache.lookup e.formula.legB = some e.b ∧
      now - e.a.ts ≤ c.maxStaleness ∧ now - e.b.ts ≤ c.maxStaleness ∧
      computeCross e.formula.toCrossFormula e.a.toCrossInput e.b.toCrossInput = .ok e.result ∧
      e.cross = cross ∧ e.tick = crossTick wire w src cross e.result now := by
  revert h
  fun_cases maybeEmitCross wire c s w src cross since now <;> rintro ⟨⟩
  case case5 hwindow f hf a b hb ha hstale res hres =>
    rw [not_or, not_lt, not_lt] at hstale
    refine ⟨fun last hlast => ?_, hf, ha, hb, hstale.1, hstale.2, hres, rfl, rfl⟩
    simpa [hlast] using hwindow

lemma Inv.emit {s : State K} {w : Tables} {src : Tick} {cross : String}
    {pending : List (Tick × String)} {since now : ℤ} {e : Emission K} (h : Inv wire c past s)
    (hclock : since ≤ now) (he : maybeEmitCross wire c s w src cross since now = some e) :
    Inv wire c (past ++ [.offer w since now]) { s with
      debounce := s.debounce.insert cross now
      lastEmits := s.lastEmits.insert cross (e.result, now)
      pending
      sent := s.sent ++ [e] } := by
  obtain ⟨hwindow, hformula, ha, hb, hfreshA, hfreshB, hres, hcross, htick⟩ :=
    maybeEmitCross_some he
  have hnow : e.tick.received = now := by rw [htick]; rfl
  have hformulas : LastSaid Action.formulas past s.formulas := by
    refine h.formulas.resolve_left fun hnil => ?_
    rw [hnil] at hformula
    cases hformula
  have hsound : e.Sound wire c past w := by
    subst hnow
    exact ⟨⟨_, hformulas, hcross ▸ hformula⟩, h.legs _ _ ha, h.legs _ _ hb, hres, hfreshA, hfreshB,
      src, hcross ▸ htick⟩
  have hapart : ∀ e' ∈ s.sent, e'.cross = cross →
      c.debounceWindow ≤ now - e'.tick.received := by
    intro e' he' hsame
    obtain ⟨last, hlast, hle⟩ := h.debounced e' he'
    have := hwindow last (hsame ▸ hlast)
    omega
  have hpos := c.pos
  constructor
  · exact .inr (hformulas.append_none rfl)
  · exact fun pair leg hleg => (h.legs pair leg hleg).append_none rfl
  · refine forall_concat (fun e' he' => ?_) ⟨past, w, since, hnow ▸ prefix_rfl, hsound⟩
    obtain ⟨before, w', since', hbefore, hsound'⟩ := h.sound e' he'
    exact ⟨before, w', since', hbefore.trans (prefix_append _ _), hsound'⟩
  · exact pairwise_concat h.apart fun e' he' hsame => hnow ▸ hapart e' he' (hsame.trans hcross)
  · intro e' he'
    by_cases hsame : e'.cross = cross
    · refine ⟨now, by rw [hsame, lookup_insert], ?_⟩
      rcases mem_append.mp he' with he' | he'
      · have := hapart e' he' hsame
        omega
      · rw [mem_singleton.mp he', hnow]
    · rcases mem_append.mp he' with he' | he'
      · obtain ⟨last, hlast, hle⟩ := h.debounced e' he'
        exact ⟨last, (lookup_insert_ne hsame).trans hlast, hle⟩
      · exact absurd (mem_singleton.mp he' ▸ hcross) hsame
  · intro pair res ts hlast
    by_cases hpair : pair = cross
    · subst hpair
      rw [lookup_insert] at hlast
      cases hlast
      exact ⟨e, by simp, hcross, rfl, hnow⟩
    · obtain ⟨e', he', hrest⟩ := h.last pair res ts ((lookup_insert_ne hpair).symm.trans hlast)
      exact ⟨e', mem_append_left _ he', hrest⟩

lemma Inv.step {s s' : State K} {a : Action K} (h : Inv wire c past s)
    (hstep : step wire c s a = some s') : Inv wire c (past ++ [a]) s' := by
  have hkept : a.formulas = none →
      s.formulas = [] ∨ LastSaid Action.formulas (past ++ [a]) s.formulas :=
    fun ha => h.formulas.imp_right (·.append_none ha)
  have hcache : ∀ pair leg, a.quote wire pair = none → s.legCache.lookup pair = some leg →
      LastSaid (Action.quote wire pair) (past ++ [a]) leg :=
    fun pair leg ha hleg => (h.legs pair leg hleg).append_none ha
  revert hstep
  fun_cases CrossConsumer.step wire c s a <;> rintro ⟨⟩
  case case1 formulas hidle =>
    exact h.quiet (.inr (lastSaid_append_some past rfl)) (fun pair leg => hcache pair leg rfl) rfl
      rfl rfl
  case case4 w t ts hidle hquote =>
    exact h.quiet (hkept rfl)
      (fun pair leg => hcache pair leg (by simp only [Action.quote, hquote])) rfl rfl rfl
  case case5 w t ts hidle pair env hquote =>
    refine h.quiet (hkept rfl) (fun pair' leg hleg => ?_) rfl rfl rfl
    by_cases hpair : pair' = pair
    · subst hpair
      rw [lookup_insert] at hleg
      exact lastSaid_append_some past (by simpa only [Action.quote, hquote, if_true] using hleg)
    · refine hcache pair' leg ?_ ((lookup_insert_ne hpair).symm.trans hleg)
      simp only [Action.quote, hquote, if_neg (Ne.symm hpair)]
  case case8 w since now src cross pending hpending hclock hnone =>
    exact h.quiet (hkept rfl) (fun pair leg => hcache pair leg rfl) rfl rfl rfl
  case case9 w since now src cross pending hpending hclock e he =>
    exact h.emit (not_lt.mp hclock) he

lemma exists_tick_of_lastSaid {pair : String} {leg : Leg K}
    (h : LastSaid (Action.quote wire pair) past leg) :
    ∃ w t, .onTick w t leg.ts ∈ past ∧ t.source ≠ sourceCross := by
  obtain ⟨before, a, after, rfl, ha, -⟩ := h
  revert ha
  fun_cases Action.quote wire pair a <;> rintro ⟨⟩
  case case1 w t ts env hquote =>
    refine ⟨w, t, by simp, fun hsource => ?_⟩
    simp [quoteOf, hsource] at hquote

/-- **Published crosses are fresh and debounced.** In every run what is sent downstream is sound,
no leg of it is a cross itself, the emissions of a cross are the debounce window apart, and an
answer of `LatestCross` that is not stale was computed from quotes at most twice the staleness
old. -/
theorem emissions_sound (as : List (Action K)) (s : State K)
    (hrun : run (step wire c) State.start as = some s) :
    (∀ e ∈ s.sent, ∃ past w since,
      past ++ [.offer w since e.tick.received] <+: as ∧ e.Sound wire c past w ∧
      (∃ w t, .onTick w t e.a.ts ∈ past ∧ t.source ≠ sourceCross) ∧
      ∃ w t, .onTick w t e.b.ts ∈ past ∧ t.source ≠ sourceCross) ∧
    (s.sent.Pairwise fun e e' => e.cross = e'.cross →
      c.debounceWindow ≤ e'.tick.received - e.tick.received) ∧
    ∀ pair now res ts, latestCross c s pair now = some (res, ts, false) →
      ∃ e ∈ s.sent, e.cross = pair ∧ e.result = res ∧ e.tick.received = ts ∧
        now - e.a.ts ≤ 2 * c.maxStaleness ∧ now - e.b.ts ≤ 2 * c.maxStaleness := by
  have hinv : Inv wire c as s := history_run (P := Inv wire c) _ inv_start
    (fun past s₁ a s₂ _ ih hstep => ih.step hstep) as s hrun
  refine ⟨fun e he => ?_, hinv.apart, fun pair now res ts h => ?_⟩
  · obtain ⟨past, w, since, hpast, hsound⟩ := hinv.sound e he
    exact ⟨past, w, since, hpast, hsound, exists_tick_of_lastSaid hsound.legA,
      exists_tick_of_lastSaid hsound.legB⟩
  · obtain ⟨⟨res', ts'⟩, hlast, hanswer⟩ := Option.map_eq_some_iff.mp h
    simp only [Prod.mk.injEq, decide_eq_false_iff_not, not_lt] at hanswer
    obtain ⟨rfl, rfl, hstale⟩ := hanswer
    obtain ⟨e, he, hcross, hres, hts⟩ := hinv.last pair res' ts' hlast
    obtain ⟨past, w, since, -, hsound⟩ := hinv.sound e he
    have hA := hsound.freshA
    have hB := hsound.freshB
    exact ⟨e, he, hcross, hres, hts, by omega, by omega⟩

/-- Two ticks of the legs `A` and `B`, every body quoting 2 to 3: the cross is sent once. -/
theorem emissions_sound_two_legs :
    let wire : Wire ℚ := ⟨id, fun _ => .ok ⟨"A", 2, 3, 0, "", 0, 0, 0, 0, 0⟩, fun _ => .ok []⟩
    let w : Tables := ⟨none, none⟩
    let c := newWindows 0 0
    let tick : String → Tick := fun symbol => ⟨1, symbol, 0, 0, 0, 0, [1], 0, "BEST"⟩
    ∃ s, run (step wire c) State.start [.replaceFormulas [("X", ⟨⟨.mul, .mul, 1⟩, "A", "B"⟩)],
        .onTick w (tick "A") 5, .offer w 6 7, .onTick w (tick "B") 8, .offer w 9 10] = some s ∧
      s.sent.length = 1 ∧ ∀ e ∈ s.sent, e.tick.received - e.a.ts ≤ 30000000000 := by
  intro wire w c tick
  have hrun : run (step wire c) State.start
    [.replaceFormulas [("X", ⟨⟨.mul, .mul, 1⟩, "A", "B"⟩)], .onTick w (tick "A") 5, .offer w 6 7,
      .onTick w (tick "B") 8, .offer w 9 10] = some _ := rfl
  refine ⟨_, hrun, rfl, fun e he => ?_⟩
  obtain ⟨past, w', since, -, hsound, -⟩ := (emissions_sound _ _ hrun).1 e he
  exact hsound.freshA

end Wtg.Price.CrossConsumer
