import Wtg.Price.Best
import Wtg.Quote.Bars

/-! # The bar aggregator

`Aggregator` of `internal/price/aggregator.go`: every accepted tick goes into the open bar of its
pair for each timeframe; a tick outside the bucket of the open bar closes it and opens the next one,
and the sweeper closes and forgets the bars whose bucket is over. -/

namespace Wtg.Price.BarAggregator

open Lib Pricing.Engine Quote.Bars List AList
open Price.Best (Tick)

variable {R : Type*}

abbrev CookerBodyDecoder (R : Type*) := List UInt8 → Option (R × R × R × R)

/-- `SymbolMap.Lookup`: the pair and whether it is active; `none` where `found` is false. -/
abbrev Lookup := String → Option (String × Bool)

structure BarKey where
  pair : String
  tf : Timeframe
deriving DecidableEq, Repr

structure Aggregator (R : Type*) where
  bars : GoMap BarKey (Bar R)
  closed : List (Bar R)

def newAggregator : Aggregator R := ⟨∅, []⟩

def accept [Zero R] (decoder : Option (CookerBodyDecoder R)) (symbols : Lookup) (t : Option Tick) :
    Option (Quote R) :=
  match t, decoder with
  | some t, some decoder =>
    match symbols t.symbol with
    | none => none
    | some (pair, active) =>
      if !active then none
      else
        match decoder t.body with
        | none => none
        | some (bid, ask, _, _) => some ⟨pair, bid, ask, ⟨t.received, 0⟩, 0, 0⟩
  | _, _ => none

/-! ## Ticks -/

section

variable [LinearOrder R]

def applyTo (a : Aggregator R) (tf : Timeframe) (q : Quote R) : Aggregator R :=
  let key : BarKey := ⟨q.pair, tf⟩
  match a.bars.lookup key with
  | none => { a with bars := a.bars.insert key (newBar tf q) }
  | some cur =>
    if cur.contains q.ts.nanos then { a with bars := a.bars.insert key (cur.update q) }
    else
      -- a new bucket: the bar before it is closed
      { bars := a.bars.insert key (newBar tf q), closed := a.closed ++ [cur.close] }

def applyAll (a : Aggregator R) (tfs : List Timeframe) (q : Quote R) : Aggregator R :=
  tfs.foldl (fun a tf => applyTo a tf q) a

def onTick [Zero R] (decoder : Option (CookerBodyDecoder R)) (a : Aggregator R) (symbols : Lookup)
    (t : Option Tick) : Aggregator R :=
  match accept decoder symbols t with
  | none => a
  | some q => applyAll a allTimeframes q

end

def sweepEntry (now : ℤ) (a : Aggregator R) (e : Sigma fun _ : BarKey => Bar R) : Aggregator R :=
  let stop := e.2.openedAt + e.2.tf.duration
  if ¬ now < stop then { bars := a.bars.erase e.1, closed := a.closed ++ [e.2.close] } else a

def sweep (a : Aggregator R) (now : ℤ) (order : RangeOrder (Sigma fun _ : BarKey => Bar R)) :
    Aggregator R :=
  (order.list a.bars.entries).foldl (sweepEntry now) a

inductive Input (R : Type*)
  | onTick (symbols : Lookup) (t : Option Tick)
  | sweep (now : ℤ) (order : RangeOrder (Sigma fun _ : BarKey => Bar R))

variable [Zero R] (decoder : Option (CookerBodyDecoder R))

def quoteOf : Input R → Option (Quote R)
  | .onTick symbols t => accept decoder symbols t
  | .sweep _ _ => none

def accepted (inputs : List (Input R)) : List (Quote R) := inputs.filterMap (quoteOf decoder)

variable (inputs : List (Input R))

lemma accepted_append (i : Input R) :
    accepted decoder (inputs ++ [i]) = accepted decoder inputs ++ (quoteOf decoder i).toList := by
  rcases hq : quoteOf decoder i with _ | q
  · simp [accepted, hq]
  · simp [accepted, hq]

variable [LinearOrder R]

def step (a : Aggregator R) : Input R → Aggregator R
  | .onTick symbols t => onTick decoder a symbols t
  | .sweep now order => sweep a now order

def run (inputs : List (Input R)) : Aggregator R := inputs.foldl (step decoder) newAggregator

lemma run_append (i : Input R) :
    run decoder (inputs ++ [i]) = step decoder (run decoder inputs) i := by
  simp [run]

lemma step_cases (a : Aggregator R) (i : Input R) :
    (∃ q, quoteOf decoder i = some q ∧ step decoder a i = applyAll a allTimeframes q) ∨
    (quoteOf decoder i = none ∧ (step decoder a i = a ∨
      ∃ now order, i = .sweep now order ∧ step decoder a i = sweep a now order)) := by
  rcases i with ⟨symbols, t⟩ | ⟨now, order⟩
  · rcases hq : accept decoder symbols t with _ | q
    · exact .inr ⟨hq, .inl (by simp [step, onTick, hq])⟩
    · exact .inl ⟨q, hq, by simp [step, onTick, hq]⟩
  · exact .inr ⟨rfl, .inr ⟨now, order, rfl, rfl⟩⟩

/-! ## Three moves

Whatever an aggregator does is made of three moves: a bar is put in the place of an absent one, an
open bar takes up a quote, an open bar is shut. -/

/-! ## Opening and closing a bar -/

section

omit [Zero R] [LinearOrder R]

def put (a : Aggregator R) (key : BarKey) (b : Bar R) : Aggregator R :=
  { a with bars := a.bars.insert key b }

def shut (a : Aggregator R) (key : BarKey) (b : Bar R) : Aggregator R where
  bars := a.bars.erase key
  closed := a.closed ++ [b.close]

variable (a : Aggregator R) (key : BarKey) (b : Bar R)

@[simp] lemma shut_closed :
    (shut a key b).closed = a.closed ++ [b.close] := rfl

@[simp] lemma put_lookup_self :
    (put a key b).bars.lookup key = some b := lookup_insert _

@[simp] lemma shut_lookup_self :
    (shut a key b).bars.lookup key = none := lookup_erase _ _

variable {key j : BarKey}

lemma put_lookup_of_ne (h : j ≠ key) :
    (put a key b).bars.lookup j = a.bars.lookup j := lookup_insert_ne h

lemma shut_lookup_of_ne (h : j ≠ key) :
    (shut a key b).bars.lookup j = a.bars.lookup j := lookup_erase_ne h

lemma put_lookup_cases {a : Aggregator R} {b c : Bar R}
    (h : (put a key b).bars.lookup j = some c) :
    (j = key ∧ c = b) ∨ (j ≠ key ∧ a.bars.lookup j = some c) := by
  by_cases hj : j = key
  · subst hj
    rw [put_lookup_self, Option.some.injEq] at h
    exact .inl ⟨rfl, h.symm⟩
  · rw [put_lookup_of_ne a b hj] at h
    exact .inr ⟨hj, h⟩

lemma shut_lookup_some {a : Aggregator R} {b c : Bar R}
    (h : (shut a key b).bars.lookup j = some c) : j ≠ key ∧ a.bars.lookup j = some c := by
  have hj : j ≠ key := by
    rintro rfl
    simp at h
  rw [shut_lookup_of_ne a b hj] at h
  exact ⟨hj, h⟩

lemma put_shut (b c : Bar R) :
    put (shut a key b) key c = { bars := a.bars.insert key c, closed := a.closed ++ [b.close] } := by
  have hbars : (a.bars.erase key).insert key c = a.bars.insert key c := by
    have hgone : kerase key (kerase key a.bars.entries) = kerase key a.bars.entries :=
      kerase_of_notMem_keys (notMem_keys_kerase key a.bars.nodupKeys)
    refine ext ?_
    rw [entries_insert, entries_insert]
    exact congrArg (Sigma.mk key c :: ·) hgone
  simp only [put, shut, hbars]

end

omit [Zero R] in
lemma applyTo_cases (a : Aggregator R) (tf : Timeframe) (q : Quote R) :
    (a.bars.lookup ⟨q.pair, tf⟩ = none ∧ applyTo a tf q = put a ⟨q.pair, tf⟩ (newBar tf q)) ∨
    (∃ cur, a.bars.lookup ⟨q.pair, tf⟩ = some cur ∧ cur.contains q.ts.nanos = true ∧
      applyTo a tf q = put a ⟨q.pair, tf⟩ (cur.update q)) ∨
    (∃ cur, a.bars.lookup ⟨q.pair, tf⟩ = some cur ∧ cur.contains q.ts.nanos = false ∧
      applyTo a tf q = put (shut a ⟨q.pair, tf⟩ cur) ⟨q.pair, tf⟩ (newBar tf q)) := by
  rcases hcur : a.bars.lookup ⟨q.pair, tf⟩ with _ | cur
  · exact .inl ⟨hcur, by simp only [applyTo, hcur, put]⟩
  · rcases hin : cur.contains q.ts.nanos with _ | _
    · refine .inr (.inr ⟨cur, hcur, hin, ?_⟩)
      rw [put_shut]
      simp [applyTo, hcur, hin]
    · refine .inr (.inl ⟨cur, hcur, hin, ?_⟩)
      simp [applyTo, hcur, hin, put]

omit [Zero R] in
lemma applyTo_lookup_of_ne (a : Aggregator R) {tf : Timeframe} {q : Quote R} {j : BarKey}
    (h : j ≠ ⟨q.pair, tf⟩) : (applyTo a tf q).bars.lookup j = a.bars.lookup j := by
  rcases applyTo_cases a tf q with ⟨-, heq⟩ | ⟨cur, -, -, heq⟩ | ⟨cur, -, -, heq⟩
  · rw [heq, put_lookup_of_ne _ _ h]
  · rw [heq, put_lookup_of_ne _ _ h]
  · rw [heq, put_lookup_of_ne _ _ h, shut_lookup_of_ne _ _ h]

/-! ## Sweeps -/

omit [Zero R] [LinearOrder R]

variable {now : ℤ}

lemma foldl_sweepEntry_induct (P : Aggregator R → Prop)
    (hshut : ∀ a key b, P a → a.bars.lookup key = some b → b.openedAt + b.tf.duration ≤ now →
      P (shut a key b)) :
    ∀ (es : List (Sigma fun _ : BarKey => Bar R)) (a : Aggregator R), es.NodupKeys →
      (∀ e ∈ es, a.bars.lookup e.1 = some e.2) → P a → P (es.foldl (sweepEntry now) a)
  | [], _, _, _, h => h
  | ⟨key, b⟩ :: es, a, hnodup, hopen, h => by
    obtain ⟨hkey, hrest⟩ := nodupKeys_cons.mp hnodup
    rw [foldl_cons]
    by_cases hover : now < b.openedAt + b.tf.duration
    · have hsame : sweepEntry now a ⟨key, b⟩ = a := by simp [sweepEntry, hover]
      rw [hsame]
      exact foldl_sweepEntry_induct P hshut es a hrest
        (fun e he => hopen e (mem_cons_of_mem _ he)) h
    · have hsame : sweepEntry now a ⟨key, b⟩ = shut a key b := by simp [sweepEntry, hover, shut]
      rw [hsame]
      refine foldl_sweepEntry_induct P hshut es _ hrest ?_ ?_
      · -- the entries to come are of other keys
        intro e he
        have hmem : e.1 ∈ es.keys := mem_keys_of_mem he
        have hne : e.1 ≠ key := fun heq => hkey (heq ▸ hmem)
        rw [shut_lookup_of_ne a b hne]
        exact hopen e (mem_cons_of_mem _ he)
      · exact hshut a key b h (hopen _ mem_cons_self) (not_lt.mp hover)

lemma sweep_induct (P : Aggregator R → Prop)
    (hshut : ∀ a key b, P a → a.bars.lookup key = some b → b.openedAt + b.tf.duration ≤ now →
      P (shut a key b)) (order : RangeOrder (Sigma fun _ : BarKey => Bar R)) {a : Aggregator R}
    (h : P a) : P (sweep a now order) := by
  have hperm := order.perm a.bars.entries
  refine foldl_sweepEntry_induct P hshut _ a ((perm_nodupKeys hperm).mpr a.bars.nodupKeys) ?_ h
  intro e he
  exact mem_lookup_iff.mpr (hperm.mem_iff.mp he)

lemma foldl_sweepEntry_bars (now : ℤ) :
    ∀ (es : List (Sigma fun _ : BarKey => Bar R)) (a : Aggregator R),
      (es.foldl (sweepEntry now) a).bars =
        GoMap.eraseWhere (fun _ b => decide (¬ now < b.openedAt + b.tf.duration)) es a.bars
  | [], _ => rfl
  | e :: es, a => by
    rw [foldl_cons, foldl_sweepEntry_bars now es]
    simp only [GoMap.eraseWhere, foldl_cons]
    by_cases hover : now < e.2.openedAt + e.2.tf.duration
    · simp [sweepEntry, hover]
    · simp [sweepEntry, hover]

lemma lt_of_lookup_sweep {order : RangeOrder (Sigma fun _ : BarKey => Bar R)}
    {a : Aggregator R} {key : BarKey} {b : Bar R}
    (h : (sweep a now order).bars.lookup key = some b) : now < b.openedAt + b.tf.duration := by
  have hperm := order.perm a.bars.entries
  have hany := GoMap.any_entries
    (fun _ b => decide (¬ now < b.openedAt + b.tf.duration)) key a.bars
  rw [sweep, foldl_sweepEntry_bars, GoMap.lookup_eraseWhere, hperm.any_eq, hany] at h
  by_contra hover
  split at h
  · exact absurd h (by simp)
  · rename_i hkept
    rw [h] at hkept
    exact hkept (by simpa using hover)

end Wtg.Price.BarAggregator
