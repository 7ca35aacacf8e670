import Mathlib.Algebra.Group.Nat.Defs
import Wtg.Lib.GoMap
import Wtg.Lib.Records
import Wtg.Lib.Runs

/-! # Duplicate ticks of dual relays

`tickDedup` of `internal/price/tick_dedup.go`: two forwarders relay the same feed, so each `(source,
seq)` may arrive twice. -/

namespace Wtg.Price.Dedup

open Lib List Option AList

def tickResetGap : UInt64 := (1 : UInt64) <<< (16 : UInt64)

structure TickDedup where
  hwm : GoMap String UInt64

def newTickDedup : TickDedup := ⟨∅⟩

def seen (d : TickDedup) (src : String) (seq : UInt64) : TickDedup × Bool :=
  if src = "" ∨ seq = 0 then (d, false)
  else
    match d.hwm.lookup src with
    | none => (⟨d.hwm.insert src seq⟩, false)
    | some h =>
      if seq > h then (⟨d.hwm.insert src seq⟩, false)
      -- a duplicate, unless it is so far back that the feed must have restarted
      else if h - seq ≥ tickResetGap then (⟨d.hwm.insert src seq⟩, false)
      else (d, true)

abbrev Delivery := String × UInt64

def step (d : TickDedup) (x : Delivery) : TickDedup × Bool := seen d x.1 x.2

def delivered (src : String) (xs : List Delivery) : List UInt64 :=
  (xs.filter fun x => decide (x.1 = src)).map Prod.snd

def passed (d : TickDedup) (src : String) (xs : List Delivery) : List UInt64 :=
  delivered src (((Runs.log step d xs).filter fun e => !e.2).map Prod.fst)

/-- **Within the gap**: no number is `2 ^ 16` or more below one delivered before it. -/
def WithinGap (seqs : List UInt64) : Prop :=
  seqs.Pairwise fun h seq => h.toNat < seq.toNat + 2 ^ 16

instance (seqs : List UInt64) : Decidable (WithinGap seqs) :=
  inferInstanceAs (Decidable (List.Pairwise _ _))

lemma lookup_seen_of_ne (d : TickDedup) {src other : String} (seq : UInt64) (h : src ≠ other) :
    (seen d other seq).1.hwm.lookup src = d.hwm.lookup src := by
  have hinsert : (d.hwm.insert other seq).lookup src = d.hwm.lookup src :=
    lookup_insert_ne h
  unfold seen
  split
  · rfl
  · split
    · exact hinsert
    · split
      · exact hinsert
      · split
        · exact hinsert
        · rfl

variable {seq : UInt64}

lemma seen_of_isRecord {d : TickDedup} {src : String} (hsrc : src ≠ "") (hseq : seq ≠ 0)
    (h : isRecord (d.hwm.lookup src) seq = true) :
    seen d src seq = (⟨d.hwm.insert src seq⟩, false) := by
  have hguard : ¬ (src = "" ∨ seq = 0) := not_or.mpr ⟨hsrc, hseq⟩
  rw [seen, if_neg hguard]
  rcases hmark : d.hwm.lookup src with _ | mark
  · rfl
  · rw [hmark, isRecord, decide_eq_true_eq] at h
    exact if_pos h

lemma seen_of_not_isRecord {d : TickDedup} {src : String} {seq mark : UInt64} (hsrc : src ≠ "")
    (hseq : seq ≠ 0) (hmark : d.hwm.lookup src = some mark) (h : ¬ mark < seq)
    (hgap : mark.toNat < seq.toNat + 2 ^ 16) : seen d src seq = (d, true) := by
  have hguard : ¬ (src = "" ∨ seq = 0) := not_or.mpr ⟨hsrc, hseq⟩
  have hle : seq ≤ mark := UInt64.not_lt.mp h
  have hback : ¬ mark - seq ≥ tickResetGap := by
    have hsub := UInt64.toNat_sub_of_le mark seq hle
    have hreset : tickResetGap.toNat = 2 ^ 16 := by decide
    rw [ge_iff_le, UInt64.le_iff_toNat_le, hsub, hreset]
    omega
  simp only [seen, if_neg hguard, hmark]
  rw [if_neg h, if_neg hback]

lemma delivered_cons (src other : String) (seq : UInt64) (xs : List Delivery) :
    delivered src ((other, seq) :: xs) =
      if other = src then seq :: delivered src xs else delivered src xs := by
  by_cases h : other = src
  · simp [delivered, h]
  · simp [delivered, h]

lemma passed_cons (d : TickDedup) (src other : String) (seq : UInt64) (xs : List Delivery) :
    passed d src ((other, seq) :: xs) =
      if other = src ∧ (seen d other seq).2 = false then seq :: passed (seen d other seq).1 src xs
      else passed (seen d other seq).1 src xs := by
  have hlog : Runs.log step d ((other, seq) :: xs) =
      ((other, seq), (seen d other seq).2) :: Runs.log step (seen d other seq).1 xs := rfl
  rcases hdrop : (seen d other seq).2 with _ | _
  · rw [passed, hlog, hdrop, filter_cons_of_pos (by rfl), map_cons, delivered_cons]
    simp [passed]
  · rw [passed, hlog, hdrop, filter_cons_of_neg (by simp)]
    simp [passed]

lemma passed_eq_records {src : String} (hsrc : src ≠ "") :
    ∀ (xs : List Delivery) (d : TickDedup), (∀ seq ∈ delivered src xs, seq ≠ 0) →
      (∀ mark, d.hwm.lookup src = some mark →
        ∀ seq ∈ delivered src xs, mark.toNat < seq.toNat + 2 ^ 16) →
      WithinGap (delivered src xs) →
      passed d src xs = records (d.hwm.lookup src) (delivered src xs)
  | [], _, _, _, _ => rfl
  | (other, seq) :: xs, d, hpos, hmark, hgap => by
    rw [passed_cons]
    rw [delivered_cons] at hpos hmark hgap ⊢
    by_cases hother : other = src
    · subst hother
      rw [if_pos (rfl : other = other)] at hpos hmark hgap ⊢
      have hseq := hpos seq mem_cons_self
      obtain ⟨hnext, hrest⟩ := pairwise_cons.mp hgap
      have hpos' := fun n hn => hpos n (mem_cons_of_mem seq hn)
      rw [records]
      by_cases hrec : isRecord (d.hwm.lookup other) seq = true
      · -- the number is the mark of what follows
        have hlookup : (d.hwm.insert other seq).lookup other = some seq := lookup_insert _
        rw [seen_of_isRecord hsrc hseq hrec, if_pos hrec, if_pos ⟨rfl, rfl⟩]
        rw [passed_eq_records hsrc xs _ hpos' ?_ hrest, hlookup]
        intro mark hm
        rw [hlookup, some.injEq] at hm
        subst hm
        exact hnext
      · rcases hlookup : d.hwm.lookup other with _ | mark
        · exact absurd (by rw [hlookup]; rfl) hrec
        · have hgap' := hmark mark hlookup seq mem_cons_self
          have hnot : ¬ mark < seq := by simpa [hlookup, isRecord] using hrec
          rw [hlookup] at hrec
          rw [seen_of_not_isRecord hsrc hseq hlookup hnot hgap', if_neg hrec, if_neg (by simp),
            ← hlookup]
          exact passed_eq_records hsrc xs d hpos'
            (fun m hm n hn => hmark m hm n (mem_cons_of_mem seq hn)) hrest
    · have hlookup := lookup_seen_of_ne d seq (Ne.symm hother)
      rw [if_neg hother] at hpos hmark hgap ⊢
      rw [if_neg (fun h => hother h.1), ← hlookup]
      exact passed_eq_records hsrc xs _ hpos (by rw [hlookup]; exact hmark) hgap

/-- **No duplicate passes**: the passed numbers of a named source increase strictly, if they are at
least 1 and none is `2 ^ 16` or more below an earlier one. -/
theorem passed_strictly_increasing (src : String) (hsrc : src ≠ "") (xs : List Delivery)
    (hpos : ∀ seq ∈ delivered src xs, 1 ≤ seq) (hgap : WithinGap (delivered src xs)) :
    (passed newTickDedup src xs).Pairwise (· < ·) ∧ (passed newTickDedup src xs).Nodup := by
  have hne : ∀ seq ∈ delivered src xs, seq ≠ 0 := by
    rintro seq hseq rfl
    exact absurd (hpos 0 hseq) (by decide)
  have hnew : newTickDedup.hwm.lookup src = none := rfl
  have hmark : ∀ mark, newTickDedup.hwm.lookup src = some mark →
      ∀ seq ∈ delivered src xs, mark.toNat < seq.toNat + 2 ^ 16 := by
    intro mark h
    exact absurd (hnew.symm.trans h) (by simp)
  have hsorted : (passed newTickDedup src xs).Pairwise (· < ·) := by
    rw [passed_eq_records hsrc xs _ hne hmark hgap]
    exact records_pairwise _ _
  exact ⟨hsorted, hsorted.imp fun h => UInt64.ne_of_lt h⟩

def twoRelays : List Delivery :=
  [("SMB", 1), ("SMB", 2), ("KMB", 70000), ("SMB", 1), ("SMB", 3), ("KMB", 1), ("SMB", 2), ("SMB", 3)]

theorem twoRelays_strictly_increasing :
    (passed newTickDedup "SMB" twoRelays).Pairwise (· < ·) ∧
      (passed newTickDedup "SMB" twoRelays).Nodup := by
  have hall : (delivered "SMB" twoRelays).all (fun seq => decide (1 ≤ seq)) = true := by decide
  have hpos : ∀ seq ∈ delivered "SMB" twoRelays, 1 ≤ seq := by simpa using hall
  exact passed_strictly_increasing "SMB" (by decide) twoRelays hpos (by decide)

theorem passed_twice_without_source :
    (∀ seq ∈ delivered "" [("", 1), ("", 1)], 1 ≤ seq) ∧
      WithinGap (delivered "" [("", 1), ("", 1)]) ∧
      ¬ (passed newTickDedup "" [("", 1), ("", 1)]).Nodup := by
  refine ⟨?_, by decide, by decide⟩
  have hall : (delivered "" [("", 1), ("", 1)]).all (fun seq => decide (1 ≤ seq)) = true := by decide
  simpa using hall

/-! ## A restart of the feed

The numbers start again from 1 while the mark is that of the old epoch. The restart is taken if the
mark is above `2 ^ 16`; below that, 1 is a duplicate for `seen`, and so is every number up to the
mark. -/

def newEpoch (n : ℕ) : List UInt64 := (List.range n).map fun i => UInt64.ofNat (i + 1)

lemma toNat_newEpoch {n i : ℕ} (hn : n < 2 ^ 64) (hi : i < n) :
    (UInt64.ofNat (i + 1)).toNat = i + 1 := UInt64.toNat_ofNat_of_lt' (by simp [UInt64.size]; omega)

variable {n : ℕ}

lemma pos_of_mem_newEpoch (hn : n < 2 ^ 64) (h : seq ∈ newEpoch n) : 1 ≤ seq.toNat := by
  obtain ⟨i, hi, rfl⟩ := mem_map.mp h
  rw [toNat_newEpoch hn (mem_range.mp hi)]
  omega

lemma newEpoch_pairwise (hn : n < 2 ^ 64) : (newEpoch n).Pairwise (· < ·) := by
  refine pairwise_map.mpr ((pairwise_lt_range (n := n)).imp_of_mem ?_)
  intro i j hi hj hij
  rw [UInt64.lt_iff_toNat_lt, toNat_newEpoch hn (mem_range.mp hi),
    toNat_newEpoch hn (mem_range.mp hj)]
  omega

lemma newEpoch_eq_cons (hn : 0 < n) : ∃ rest, newEpoch n = 1 :: rest := by
  obtain ⟨m, rfl⟩ := Nat.exists_eq_succ_of_ne_zero hn.ne'
  exact ⟨_, by rw [newEpoch, range_succ_eq_map, map_cons]; rfl⟩

lemma withinGap_of_pairwise {seqs : List UInt64} (h : seqs.Pairwise (· < ·)) :
    WithinGap seqs := by
  refine h.imp ?_
  intro a b hab
  have := UInt64.lt_iff_toNat_lt.mp hab
  omega

lemma seen_of_restart {d : TickDedup} {src : String} {seq mark : UInt64} (hsrc : src ≠ "")
    (hseq : seq ≠ 0) (hmark : d.hwm.lookup src = some mark)
    (hgap : seq.toNat + 2 ^ 16 ≤ mark.toNat) :
    seen d src seq = (⟨d.hwm.insert src seq⟩, false) := by
  have hguard : ¬ (src = "" ∨ seq = 0) := not_or.mpr ⟨hsrc, hseq⟩
  have hle : seq ≤ mark := UInt64.le_iff_toNat_le.mpr (by omega)
  have hback : mark - seq ≥ tickResetGap := by
    have hreset : tickResetGap.toNat = 2 ^ 16 := by decide
    rw [ge_iff_le, UInt64.le_iff_toNat_le, UInt64.toNat_sub_of_le mark seq hle, hreset]
    omega
  simp only [seen, if_neg hguard, hmark]
  rw [if_neg (UInt64.not_lt.mpr hle), if_pos hback]

/-- **Marks are numbers of ticks**: a mark is not 0 and its source has a name. -/
def Marked (d : TickDedup) : Prop :=
  ∀ src mark, d.hwm.lookup src = some mark → src ≠ "" ∧ mark ≠ 0

lemma Marked.insert {d : TickDedup} (h : Marked d) {src : String} (hsrc : src ≠ "")
    (hseq : seq ≠ 0) : Marked ⟨d.hwm.insert src seq⟩ := by
  intro other mark hmark
  by_cases ho : other = src
  · subst ho
    obtain rfl : seq = mark := by simpa using hmark
    exact ⟨hsrc, hseq⟩
  · exact h other mark (by rwa [lookup_insert_ne ho] at hmark)

lemma Marked.seen {d : TickDedup} (h : Marked d) (src : String) (seq : UInt64) :
    Marked (Dedup.seen d src seq).1 := by
  unfold Dedup.seen
  split
  · exact h
  · rename_i hguard
    obtain ⟨hsrc, hseq⟩ := not_or.mp hguard
    split
    · exact h.insert hsrc hseq
    · split
      · exact h.insert hsrc hseq
      · split
        · exact h.insert hsrc hseq
        · exact h

lemma Marked.final {d : TickDedup} (h : Marked d) :
    ∀ history : List Delivery, Marked (Runs.final step d history)
  | [] => h
  | x :: history => Marked.final (h.seen x.1 x.2) history

lemma marked_newTickDedup : Marked newTickDedup := by
  intro src mark h
  exact absurd h (by simp [newTickDedup])

lemma passed_of_unnamed : ∀ (xs : List Delivery) (d : TickDedup), passed d "" xs = delivered "" xs
  | [], _ => rfl
  | (other, seq) :: xs, d => by
    rw [passed_cons, delivered_cons]
    by_cases hother : other = ""
    · subst hother
      have hseen : Dedup.seen d "" seq = (d, false) := if_pos (.inl rfl)
      rw [hseen, if_pos ⟨rfl, rfl⟩, if_pos rfl, passed_of_unnamed xs d]
    · rw [if_neg fun h => hother h.1, if_neg hother, passed_of_unnamed xs _]

lemma passed_newEpoch {src : String} (hsrc : src ≠ "") (hn : n < 2 ^ 64) :
    ∀ (xs : List Delivery) (d : TickDedup), delivered src xs = newEpoch n →
      (∀ mark, d.hwm.lookup src = some mark → 2 ^ 16 < mark.toNat) →
      passed d src xs = delivered src xs
  | [], _, _, _ => rfl
  | (other, seq) :: xs, d, hxs, hmark => by
    rw [passed_cons]
    rw [delivered_cons] at hxs ⊢
    by_cases hother : other = src
    · subst hother
      rw [if_pos (rfl : other = other)] at hxs ⊢
      have hsorted : (seq :: delivered other xs).Pairwise (· < ·) := hxs ▸ newEpoch_pairwise hn
      obtain ⟨habove, hrest⟩ := pairwise_cons.mp hsorted
      have hpos : ∀ m ∈ seq :: delivered other xs, m ≠ 0 := by
        rintro m hm rfl
        have := pos_of_mem_newEpoch hn (hxs ▸ hm)
        simp at this
      have hseq : seq = 1 := by
        have hlen : 0 < n := by
          rcases Nat.eq_zero_or_pos n with rfl | h
          · simp [newEpoch] at hxs
          · exact h
        obtain ⟨rest, hcons⟩ := newEpoch_eq_cons hlen
        exact (cons.inj (hxs.trans hcons)).1
      -- 1 passes, as the first tick of its source or as a restart, and is the mark
      have hseen : Dedup.seen d other seq = (⟨d.hwm.insert other seq⟩, false) := by
        have hne := hpos seq mem_cons_self
        rcases hlookup : d.hwm.lookup other with _ | mark
        · exact seen_of_isRecord hsrc hne (by rw [hlookup]; rfl)
        · have := hmark mark hlookup
          refine seen_of_restart hsrc hne hlookup ?_
          rw [hseq]
          show 1 + 2 ^ 16 ≤ mark.toNat
          omega
      have hlookup : (d.hwm.insert other seq).lookup other = some seq := lookup_insert _
      have hpass := passed_eq_records hsrc xs ⟨d.hwm.insert other seq⟩
        (fun m hm => hpos m (mem_cons_of_mem _ hm))
        (by
          intro mark hm m hmem
          obtain rfl : seq = mark := by rw [hlookup] at hm; exact some.inj hm
          have := UInt64.lt_iff_toNat_lt.mp (habove m hmem)
          omega)
        (withinGap_of_pairwise hrest)
      rw [hseen, if_pos ⟨rfl, rfl⟩, hpass, hlookup,
        records_of_pairwise (some seq) _ hrest fun m hm => decide_eq_true (habove m hm)]
    · have hlookup := lookup_seen_of_ne d seq (Ne.symm hother)
      rw [if_neg hother] at hxs ⊢
      rw [if_neg fun h => hother h.1]
      exact passed_newEpoch hsrc hn xs _ hxs (by rw [hlookup]; exact hmark)

lemma one_notMem_passed {src : String} (hsrc : src ≠ "") (hn : n < 2 ^ 64) {xs : List Delivery}
    {d : TickDedup} (hxs : delivered src xs = newEpoch n) {mark : UInt64}
    (hmark : d.hwm.lookup src = some mark) (hne : mark ≠ 0) (hle : mark.toNat ≤ 2 ^ 16) :
    1 ∉ passed d src xs := by
  have hpos : ∀ seq ∈ delivered src xs, 1 ≤ seq.toNat :=
    fun seq hseq => pos_of_mem_newEpoch hn (hxs ▸ hseq)
  have hpass := passed_eq_records hsrc xs d
    (by rintro seq hseq rfl; simpa using hpos 0 hseq)
    (by
      intro m hm seq hseq
      obtain rfl : mark = m := by rw [hmark] at hm; exact some.inj hm
      have := hpos seq hseq
      omega)
    (hxs ▸ withinGap_of_pairwise (newEpoch_pairwise hn))
  intro hmem
  rw [hpass, hmark] at hmem
  have habove := isRecord_of_mem_records _ _ _ hmem
  have hlt : mark < 1 := by simpa [isRecord] using habove
  have hzero : mark.toNat < 1 := UInt64.lt_iff_toNat_lt.mp hlt
  exact hne (UInt64.toNat_inj.mp (by simpa using hzero))

/-- **Restarts of a feed.** 1, 2, …, `n` all pass exactly if the history left no mark for the source
or one above `2 ^ 16`. -/
theorem restart_passes_iff (history xs : List Delivery) (src : String) (n : ℕ) (hpos : 0 < n)
    (hn : n < 2 ^ 64) (hxs : delivered src xs = newEpoch n) :
    passed (Runs.final step newTickDedup history) src xs = delivered src xs ↔
      ∀ mark, (Runs.final step newTickDedup history).hwm.lookup src = some mark →
        2 ^ 16 < mark.toNat := by
  have hmarked := marked_newTickDedup.final history
  by_cases hsrc : src = ""
  · subst hsrc
    refine iff_of_true (passed_of_unnamed xs _) ?_
    intro mark hmark
    exact absurd rfl (hmarked "" mark hmark).1
  · refine ⟨?_, passed_newEpoch hsrc hn xs _ hxs⟩
    intro hall mark hmark
    by_contra hle
    obtain ⟨rest, hcons⟩ := newEpoch_eq_cons hpos
    have hlost := one_notMem_passed hsrc hn hxs hmark (hmarked src mark hmark).2 (not_lt.mp hle)
    rw [hall, hxs, hcons] at hlost
    exact hlost mem_cons_self

theorem restart_passes_after_seventy_thousand :
    passed (Runs.final step newTickDedup [("SMB", 70000)]) "SMB"
        [("SMB", 1), ("KMB", 5), ("SMB", 2)] =
      delivered "SMB" [("SMB", 1), ("KMB", 5), ("SMB", 2)] := by
  refine (restart_passes_iff [("SMB", 70000)] _ "SMB" 2 (by decide) (by decide) (by decide)).mpr ?_
  intro mark hmark
  obtain rfl : 70000 = mark := some.inj hmark
  decide

theorem restart_lost_after_three :
    delivered "SMB" [("SMB", 1), ("SMB", 2), ("SMB", 3), ("SMB", 4)] = newEpoch 4 ∧
      passed (Runs.final step newTickDedup [("SMB", 1), ("SMB", 2), ("SMB", 3)]) "SMB"
        [("SMB", 1), ("SMB", 2), ("SMB", 3), ("SMB", 4)] = [4] := by decide

end Wtg.Price.Dedup
