import Wtg.Price.Algo

/-! # The log of the algo feed

What the producer keeps, at every point of `emitQuote`: the quotes of each stream are numbered 1, 2,
and so on, as far as its counter says, and they are in its ring (`Logged`). -/

namespace Wtg.Price.AlgoLog

open Lib Quote.Envelope Price.Best Price.AlgoKeys Price.Algo List Option AList AlgoStreamServer

variable {R : Type*}

def on (key : String) (l : List (AlgoQuote R)) : List (AlgoQuote R) := l.filter (·.key = key)

lemma on_append (key : String) (l l' : List (AlgoQuote R)) :
    on key (l ++ l') = on key l ++ on key l' := filter_append ..

def Consecutive (l : List (AlgoQuote R)) : Prop :=
  ∀ (i : ℕ) (h : i < l.length), l[i].seq.toInt = i + 1

variable {q : AlgoQuote R} {l : List (AlgoQuote R)}

lemma Consecutive.append (h : Consecutive l) (hq : q.seq.toInt = l.length + 1) :
    Consecutive (l ++ [q]) := by
  intro i hi
  rw [length_append, length_singleton] at hi
  by_cases hlt : i < l.length
  · rw [getElem_append_left hlt]
    exact h i hlt
  · have heq : i = l.length := by omega
    subst heq
    simpa using hq

lemma Consecutive.of_append {l l' : List (AlgoQuote R)} (h : Consecutive (l ++ l')) :
    Consecutive l := by
  intro i hi
  have hget := h i (by rw [length_append]; omega)
  rwa [getElem_append_left hi] at hget

lemma Consecutive.pairwise (h : Consecutive l) :
    l.Pairwise fun q r => q.seq.toInt < r.seq.toInt := by
  rw [pairwise_iff_getElem]
  intro i j hi hj hij
  rw [h i hi, h j hj]
  omega

/-! ## Snapshots of a ring -/

section

variable {fromSeq : Int64} (hfrom : 0 ≤ fromSeq)

include hfrom

lemma add_one_lt_iff {seq : Int64} (hseq : 1 ≤ seq.toInt) :
    fromSeq + 1 < seq ↔ fromSeq.toInt + 1 < seq.toInt ∨ fromSeq.toInt + 1 = 2 ^ 63 := by
  have hpos : 0 ≤ fromSeq.toInt := Int64.le_iff_toInt_le.mp hfrom
  have hmax := fromSeq.toInt_lt
  have hseqmax := seq.toInt_lt
  have hone : (1 : Int64).toInt = 1 := rfl
  rw [Int64.lt_iff_toInt_lt, Int64.toInt_add, hone]
  by_cases hwrap : fromSeq.toInt + 1 = 2 ^ 63
  · have hbmod : Int.bmod (2 ^ 63) (2 ^ 64) = -2 ^ 63 := by decide
    rw [hwrap, hbmod]
    omega
  · rw [Int.bmod_eq_of_le (by omega) (by omega)]
    omega

lemma exists_take_iff (hl : Consecutive l) {k : ℕ} (hk : k ≤ l.length) :
    (∃ q ∈ l.take k, fromSeq < q.seq) ↔ fromSeq.toInt < k := by
  have hpos : 0 ≤ fromSeq.toInt := Int64.le_iff_toInt_le.mp hfrom
  simp only [Int64.lt_iff_toInt_lt]
  constructor
  · rintro ⟨q, hq, hlt⟩
    obtain ⟨i, hi, rfl⟩ := mem_take_iff_getElem.mp hq
    have hseq := hl i (by omega)
    omega
  · intro hlt
    have hget : k - 1 < l.length := by omega
    have hseq := hl (k - 1) hget
    exact ⟨l[k - 1], mem_take_iff_getElem.mpr ⟨k - 1, by omega, rfl⟩, by omega⟩

variable {r : AlgoRing R} {n : ℕ} (hr : r.Holds n l) (hn : 0 < n) (hl : Consecutive l)

include hr hn hl

/-- **A snapshot** of the ring that has the last `n` of the quotes `l`: there is a gap just when a
quote after `fromSeq` was overwritten, but for the largest `fromSeq`, and without one the quotes
after `fromSeq` are all there. -/
lemma snapshot_spec :
    ((snapshot r fromSeq).2.2 = true ↔
      (∃ q ∈ l.take (l.length - n), fromSeq < q.seq) ∨ l ≠ [] ∧ fromSeq.toInt + 1 = 2 ^ 63) ∧
    ((snapshot r fromSeq).2.2 = false →
      (snapshot r fromSeq).1 = l.filter fun q => fromSeq < q.seq) := by
  have hcontents := hr.contents
  have htake : (∃ q ∈ l.take (l.length - n), fromSeq < q.seq) ↔ _ :=
    exists_take_iff hfrom hl (Nat.sub_le ..)
  unfold snapshot
  rcases hlist : r.contents with _ | ⟨first, rest⟩
  · have hnil : l = [] := by
      rw [hlist, eq_comm, drop_eq_nil_iff] at hcontents
      exact length_eq_zero_iff.mp (by omega)
    simp [hnil]
  · rw [hlist] at hcontents
    have hlt : l.length - n < l.length := by
      have hlen := congrArg length hcontents
      rw [length_drop, length_cons] at hlen
      omega
    have hfirst : first.seq.toInt = (l.length - n : ℕ) + 1 := by
      have hhead : l[l.length - n]? = some first := by
        rw [← head?_drop, ← hcontents, head?_cons]
      rw [getElem?_eq_getElem hlt] at hhead
      rw [← some.inj hhead]
      exact hl _ hlt
    have hgap : fromSeq + 1 < first.seq ↔ _ := add_one_lt_iff hfrom (by omega)
    have hne : l ≠ [] := ne_nil_of_length_pos (by omega)
    dsimp only
    split_ifs with h
    · rw [htake]
      exact ⟨iff_of_true rfl ((hgap.mp h).imp (by omega) fun hmax => ⟨hne, hmax⟩), nofun⟩
    · have hnone : ¬ ∃ q ∈ l.take (l.length - n), fromSeq < q.seq := by
        rw [htake]
        intro hlow
        exact h (hgap.mpr (.inl (by omega)))
      refine ⟨iff_of_false nofun ?_, fun _ => ?_⟩
      · rintro (hlow | ⟨-, hmax⟩)
        · exact hnone hlow
        · exact h (hgap.mpr (.inr hmax))
      · have hold : (l.take (l.length - n)).filter (fun q => decide (fromSeq < q.seq)) = [] := by
          rw [filter_eq_nil_iff]
          exact fun q hq hlow => hnone ⟨q, hq, of_decide_eq_true hlow⟩
        have hall := congrArg (filter fun q => fromSeq < q.seq) (take_append_drop (l.length - n) l)
        rw [filter_append, hold, nil_append, ← hcontents] at hall
        exact hall

end

/-- The snapshot reports a gap just when a tick after `fromSeq` was overwritten in a ring of `n`
slots, and otherwise has the ticks after `fromSeq` in order. -/
def Reported (n : ℕ) (l : List (AlgoQuote R)) (fromSeq : Int64) : Prop :=
  ((snapshot (l.foldl .push (.empty n)) fromSeq).2.2 = true ↔
    ∃ q ∈ l.take (l.length - n), fromSeq < q.seq) ∧
  ((snapshot (l.foldl .push (.empty n)) fromSeq).2.2 = false →
    (snapshot (l.foldl .push (.empty n)) fromSeq).1 = l.filter fun q => fromSeq < q.seq)

/-- **A snapshot after any pushes** is as it should be, but for the largest `fromSeq` if anything
was pushed. -/
theorem snapshot_pushed_iff {n : ℕ} (hn : 0 < n) (hl : Consecutive l) {fromSeq : Int64}
    (hfrom : 0 ≤ fromSeq) : Reported n l fromSeq ↔ l = [] ∨ fromSeq ≠ Int64.maxValue := by
  obtain ⟨hgap, hticks⟩ := snapshot_spec hfrom (RingBuffer.holds_pushes hn l) hn hl
  have hlast : fromSeq.toInt + 1 = 2 ^ 63 ↔ fromSeq = Int64.maxValue := by
    have hmax : Int64.maxValue.toInt = 2 ^ 63 - 1 := by decide
    rw [← Int64.toInt_inj, hmax]
    omega
  rw [hlast] at hgap
  constructor
  · rintro ⟨hiff, -⟩
    by_contra! hbad
    obtain ⟨q, -, hlt⟩ := hiff.mp (hgap.mpr (.inr hbad))
    rw [hbad.2] at hlt
    exact absurd hlt (Int64.not_lt.mpr (Int64.le_maxValue q.seq))
  · intro hok
    refine ⟨hgap.trans (or_iff_left ?_), hticks⟩
    rintro ⟨hne, hmax⟩
    exact hok.elim hne fun h => h hmax

def tick (seq : Int64) : AlgoQuote ℤ := ⟨"A", 1, 1, seq, 0, 0, false, 0, 0, 1, "BEST", "SPT", 0, 0⟩

theorem snapshot_pushed_iff_two : Reported 1 [tick 1, tick 2] 0 ∧ Reported 1 [tick 1, tick 2] 1 ∧
    snapshot ([tick 1, tick 2].foldl .push (.empty 1)) 0 = ([], 2, true) ∧
    snapshot ([tick 1, tick 2].foldl .push (.empty 1)) 1 = ([tick 2], 2, false) := by
  have hl : Consecutive [tick 1, tick 2] := by unfold Consecutive; decide
  exact ⟨(snapshot_pushed_iff one_pos hl (by decide)).mpr (.inr (by decide)),
    (snapshot_pushed_iff one_pos hl (by decide)).mpr (.inr (by decide)), by decide, by decide⟩

/-- Behind the last number there is a gap, though nothing was overwritten. -/
theorem gap_at_end :
    snapshot ([tick 1].foldl .push (.empty 1)) Int64.maxValue = ([], 1, true) := by
  decide

/-! ## The rings of a server -/

section

variable (s : AlgoStreamServer R) (key : String)

lemma ringFor_seqGens : (s.ringFor key).1.seqGens = s.seqGens := by
  unfold ringFor
  split <;> rfl

lemma ringFor_ringSize : (s.ringFor key).1.ringSize = s.ringSize := by
  unfold ringFor
  split <;> rfl

variable (key' : String)

lemma ringFor_eq : (s.ringFor key').2 = (s.rings.lookup key').getD (.empty s.ringSize) := by
  unfold ringFor
  split
  · rename_i ring h
    rw [h, getD_some]
  · rename_i h
    rw [h, getD_none]

lemma lookup_ringFor : (s.ringFor key).1.rings.lookup key' =
    if key' = key then some (s.ringFor key).2 else s.rings.lookup key' := by
  by_cases hkey : key' = key
  · subst hkey
    rw [if_pos rfl, ringFor]
    split
    · assumption
    · exact lookup_insert _
  · rw [if_neg hkey, ringFor]
    split
    · rfl
    · exact lookup_insert_ne hkey

lemma ringFor_ringFor : ((s.ringFor key).1.ringFor key').2 = (s.ringFor key').2 := by
  rw [ringFor_eq, ringFor_eq, ringFor_ringSize, lookup_ringFor]
  by_cases hkey : key' = key
  · subst hkey
    rw [if_pos rfl, getD_some, ringFor_eq]
  · rw [if_neg hkey]

lemma ringFor_push (q : AlgoQuote R) (key' : String) : ((s.push key q).ringFor key').2 =
    if key' = key then (s.ringFor key).2.push q else (s.ringFor key').2 := by
  rw [ringFor_eq]
  show ((s.rings.insert key ((s.ringFor key).2.push q)).lookup key').getD (.empty s.ringSize) = _
  by_cases hkey : key' = key
  · subst hkey
    rw [if_pos rfl, lookup_insert, getD_some]
  · rw [if_neg hkey, lookup_insert_ne hkey, ringFor_eq]

lemma mem_ringFor {key' : String} (h : key' ∈ s.rings) : key' ∈ (s.ringFor key).1.rings := by
  rw [← lookup_isSome] at h ⊢
  rw [lookup_ringFor]
  split
  · rfl
  · exact h

end

def waiting : Stage R → List (AlgoQuote R)
  | .numbered q | .located q => [q]
  | _ => []

def inFlight : Stage R → List (AlgoQuote R)
  | .pushed q => [q]
  | _ => []

structure Logged (s : State R) : Prop where
  plain : ∀ q ∈ s.emitted ++ waiting s.stage, q.stream.Plain ∧ q.isBackfill = false
  numbers : ∀ key, Consecutive (on key (s.emitted ++ waiting s.stage))
  counter : ∀ key, ((s.server.seqGens.lookup key).getD 0).toNat =
    (on key (s.emitted ++ waiting s.stage)).length
  rings : ∀ key, (s.server.ringFor key).2.Holds s.server.ringSize (on key s.emitted)
  kept : ∀ q ∈ s.emitted, q.key ∈ s.server.rings
  fanned : ∃ fanned, s.emitted = fanned ++ inFlight s.stage

lemma logged_start (server : AlgoStreamServer R) (hnew : server.seqGens = ∅ ∧ server.rings = ∅) :
    Logged (start server) := by
  refine ⟨fun q hq => absurd hq (by simp [start, waiting]), fun key i hi => ?_, fun key => ?_,
    fun key => ?_, fun q hq => absurd hq (by simp [start]), [], rfl⟩
  · exact absurd hi (by simp [start, waiting, on])
  · show ((server.seqGens.lookup key).getD 0).toNat = 0
    rw [hnew.1]
    rfl
  · show (server.ringFor key).2.Holds server.ringSize []
    rw [ringFor_eq, hnew.2]
    exact RingBuffer.holds_empty server.ringSize_pos

lemma Logged.congr {s s' : State R} (h : Logged s) (hserver : s'.server = s.server)
    (hstage : s'.stage = s.stage) (hemitted : s'.emitted = s.emitted) : Logged s' := by
  refine ⟨?_, ?_, ?_, ?_, ?_, ?_⟩
  · rw [hstage, hemitted]; exact h.plain
  · rw [hstage, hemitted]; exact h.numbers
  · rw [hserver, hstage, hemitted]; exact h.counter
  · rw [hserver, hemitted]; exact h.rings
  · rw [hserver, hemitted]; exact h.kept
  · rw [hstage, hemitted]; exact h.fanned

variable {s : State R}

lemma Logged.ringFor (h : Logged s) (key : String) :
    Logged { s with server := (s.server.ringFor key).1 } := by
  refine ⟨h.plain, h.numbers, fun key' => ?_, fun key' => ?_, fun q hq => ?_, h.fanned⟩
  · rw [ringFor_seqGens]
    exact h.counter key'
  · rw [ringFor_ringFor, ringFor_ringSize]
    exact h.rings key'
  · exact mem_ringFor _ _ (h.kept q hq)

lemma on_append_of_eq {key : String} (l : List (AlgoQuote R)) (h : q.key = key) :
    on key (l ++ [q]) = on key l ++ [q] := by
  simp [on, h]

lemma on_append_of_ne {key : String} (l : List (AlgoQuote R)) (h : q.key ≠ key) :
    on key (l ++ [q]) = on key l := by
  simp [on, h]

lemma Logged.push (h : Logged s) (hstage : s.stage = .located q) :
    Logged { s with
      server := s.server.push q.key q
      stage := .pushed q
      emitted := s.emitted ++ [q] } := by
  have hwaiting : s.emitted ++ waiting s.stage = s.emitted ++ [q] ++ [] := by
    rw [hstage, append_nil]
    rfl
  refine ⟨hwaiting ▸ h.plain, hwaiting ▸ h.numbers, hwaiting ▸ h.counter, fun key => ?_,
    forall_concat (fun r hr => ?_) ?_, s.emitted, rfl⟩
  · show ((s.server.push q.key q).ringFor key).2.Holds s.server.ringSize (on key (s.emitted ++ [q]))
    rw [ringFor_push]
    by_cases hk : key = q.key
    · subst hk
      rw [if_pos rfl, on_append_of_eq _ rfl]
      exact (h.rings q.key).push s.server.ringSize_pos q
    · rw [if_neg hk, on_append_of_ne _ (Ne.symm hk)]
      exact h.rings key
  · exact mem_insert _ |>.mpr (.inr (h.kept r hr))
  · exact mem_insert _ |>.mpr (.inl rfl)

lemma Logged.locate (h : Logged s) (hstage : s.stage = .numbered q) :
    Logged { s with server := (s.server.ringFor q.key).1, stage := .located q } := by
  have h' := h.ringFor q.key
  have hplain := h'.plain
  have hnumbers := h'.numbers
  have hcounter := h'.counter
  have hfanned := h'.fanned
  rw [hstage] at hplain hnumbers hcounter hfanned
  exact ⟨hplain, hnumbers, hcounter, h'.rings, h'.kept, hfanned⟩

lemma Logged.handOut (h : Logged s) (hstage : s.stage = .pushed q) :
    Logged { s with stage := .idle } := by
  have hplain := h.plain
  have hnumbers := h.numbers
  have hcounter := h.counter
  rw [hstage] at hplain hnumbers hcounter
  exact ⟨hplain, hnumbers, hcounter, h.rings, h.kept, s.emitted, (append_nil _).symm⟩

lemma toInt_toInt64 {n : UInt64} (h : n.toNat < 2 ^ 63) : n.toInt64.toInt = n.toNat := by
  have hhalf : 2 * n.toBitVec.toNat < 2 ^ 64 := by
    have hnat : n.toBitVec.toNat = n.toNat := rfl
    omega
  exact BitVec.toInt_eq_toNat_of_lt hhalf

/-! ## Numbering a quote -/

variable [Add R] [Div R] [OfNat R 2]

lemma Logged.number (h : Logged s) (hstage : s.stage = .idle) (t : Tick)
    (env : JSONEnvelope R) {tenor : String} (bid ask : R)
    (hplain : (⟨t.source, t.symbol, tenor⟩ : Stream).Plain)
    (hbound : ((s.server.seqGens.lookup (streamKeyFor t.source t.symbol tenor)).getD 0).toNat + 1 <
      2 ^ 63) :
    Logged { s with
      server := (s.server.nextSeq (streamKeyFor t.source t.symbol tenor)).1
      stage := .numbered (algoQuote t env tenor bid ask
        (s.server.nextSeq (streamKeyFor t.source t.symbol tenor)).2) } := by
  have hwaiting : waiting s.stage = [] := by rw [hstage]; rfl
  have hlog := h.numbers
  have hcount := h.counter
  rw [hwaiting, append_nil] at hlog hcount
  set key := streamKeyFor t.source t.symbol tenor
  set q := algoQuote t env tenor bid ask (s.server.nextSeq key).2 with hq
  have hkey : q.key = key := rfl
  have hnext : ((s.server.seqGens.lookup key).getD 0 + 1).toNat = (on key s.emitted).length + 1 := by
    rw [UInt64.toNat_add, hcount key]
    have hone : (1 : UInt64).toNat = 1 := rfl
    rw [hcount key] at hbound
    omega
  have hseq : q.seq.toInt = (on key s.emitted).length + 1 := by
    have hlt : ((s.server.seqGens.lookup key).getD 0 + 1).toNat < 2 ^ 63 := by
      rw [hnext, ← hcount key]
      exact hbound
    show ((s.server.seqGens.lookup key).getD 0 + 1).toInt64.toInt = _
    rw [toInt_toInt64 hlt, hnext]
    push_cast
    rfl
  refine ⟨forall_concat (fun r hr => h.plain r (mem_append_left _ hr)) ⟨hplain, rfl⟩,
    fun key' => ?_, fun key' => ?_, fun key' => ?_, h.kept, s.emitted, ?_⟩
  · show Consecutive (on key' (s.emitted ++ [q]))
    by_cases hk : key = key'
    · subst hk
      rw [on_append_of_eq _ hkey]
      exact (hlog key).append hseq
    · rw [on_append_of_ne _ (by rw [hkey]; exact hk)]
      exact hlog key'
  · show (((s.server.seqGens.insert key _).lookup key').getD 0).toNat =
      (on key' (s.emitted ++ [q])).length
    by_cases hk : key = key'
    · subst hk
      rw [on_append_of_eq _ hkey, lookup_insert, getD_some, hnext]
      simp
    · rw [on_append_of_ne _ (by rw [hkey]; exact hk), lookup_insert_ne (Ne.symm hk)]
      exact hcount key'
  · have hrings := h.rings key'
    rw [ringFor_eq] at hrings ⊢
    exact hrings
  · exact (append_nil _).symm

end Wtg.Price.AlgoLog
