import Wtg.Price.LockRules

/-! # Does the sequence of a record match its id?

An issuer takes an id with `Next` and then asks `NextSequence` for the number in it. The two are
separate calls on the generator that all issuers share. -/

namespace Wtg.Price.LockSequence

open Lib Lib.Program Lib.Protocol Price.Lock Price.LockRules List Lib.Transition
open QuoteId.Registry
open QuoteId.Ids Pricing.Engine

def embedded (id : QuoteID) : List Char := (id.toList.reverse.takeWhile (· ≠ '-')).reverse

lemma embedded_quoteID (name : String) (ms : ℤ) (seq : UInt64) :
    embedded (quoteID name ms seq) = formatUint seq.toNat := by
  have hdigits : ∀ c ∈ (formatUint seq.toNat).reverse, decide (c ≠ '-') = true := by
    intro c hc
    have hne : c ≠ '-' := fun h => hyphen_not_mem _ (h ▸ mem_reverse.mp hc)
    exact decide_eq_true hne
  rw [embedded, toList_quoteID, reverse_append, reverse_cons, append_assoc,
    takeWhile_append_of_pos hdigits]
  simp

def Carries (rec : Record) : Prop := embedded rec.quoteID = formatUint rec.sequence

instance : DecidablePred Carries := fun _ => inferInstanceAs (Decidable (_ = _))

/-! ## Many locks at once -/

section

variable {ι : Type}

/-- What the issuers share, with the thread that took the last id and the number of ids taken. -/
structure Shared (ι : Type) where
  server : Server
  last : Option ι
  issued : ℕ

def sharedObject : Object LockCall Answer (Shared ι) (ι × Outside) := fun x s c =>
  ({ server := (lockObject x.2 s.server c).1
     last := match c with
       | .next => some x.1
       | _ => s.last
     issued := match c with
       | .next => s.issued + 1
       | _ => s.issued },
    (lockObject x.2 s.server c).2)

inductive Job
  | attach (issuer : String) (validity : ℤ) (cq : CustomerQuote ℚ) (prof : Profile)
  | forward (deps : ForwardLockDeps) (r : Request ForwardLockRequest)
  | swap (deps : SwapLockDeps) (r : Request SwapLockRequest)

def Job.calls (lib : GoLib) (fuel : ℕ) : Job → Issuer Unit
  | .attach issuer validity cq prof => attachQuoteID issuer validity cq prof >>= fun _ => .ret ()
  | .forward deps r => forwardLock lib fuel deps r >>= fun _ => .ret ()
  | .swap deps r => swapLock lib fuel deps r >>= fun _ => .ret ()

def start (lib : GoLib) (fuel : ℕ) (jobs : ι → Job) (server : Server) :
    Pool LockCall Answer (Shared ι) ι Unit :=
  ⟨⟨server, none, 0⟩, fun i => (jobs i).calls lib fuel⟩

/-- `NextSequence` is called by the thread that took the last id. -/
def Undisturbed (s : Shared ι) (i : ι) (c : LockCall) : Prop :=
  match c with
  | .nextSequence => s.last = some i
  | _ => True

end

structure Ticket where
  id : QuoteID
  number : ℕ

structure Held where
  taken : Option Ticket
  ready : List (Ticket × UInt64)

def issuing : Rules LockCall Answer Held where
  pre g c :=
    match c with
    | .nextSequence => ∃ t, g.taken = some t
    | .put rec => ∃ t seq rest, g.ready = (t, seq) :: rest ∧ rec.quoteID = t.id ∧
        rec.sequence = seq.toNat
    | _ => True
  post g c r g' :=
    match c, r with
    | .next, id => ∃ n, g' = ⟨some ⟨id, n⟩, g.ready⟩
    | .nextSequence, seq => ∃ t, g.taken = some t ∧ g' = ⟨none, g.ready ++ [((t, seq) : Ticket × UInt64)]⟩
    | .put _, _ => g' = ⟨g.taken, g.ready.tail⟩
    | _, _ => g' = g

/-! ## Calls and what they leave alone -/

section

variable {α : Type} {Q : Held → α → Prop}

lemma follows_next {f : QuoteID → Issuer α} {g : Held}
    (hf : ∀ id n, Follows issuing ⟨some ⟨id, n⟩, g.ready⟩ (f id) Q) :
    Follows issuing g (Call.next >>= f) Q := by
  refine follows_perform.mpr ⟨trivial, fun id g' hg' => ?_⟩
  obtain ⟨n, rfl⟩ := hg'
  exact hf id n

variable {ready : List (Ticket × UInt64)}

lemma follows_nextSequence {f : UInt64 → Issuer α} {t : Ticket}
    (hf : ∀ seq, Follows issuing ⟨none, ready ++ [(t, seq)]⟩ (f seq) Q) :
    Follows issuing ⟨some t, ready⟩ (Call.nextSequence >>= f) Q := by
  refine follows_perform.mpr ⟨⟨t, rfl⟩, fun seq g' hg' => ?_⟩
  obtain ⟨t', ht, rfl⟩ := hg'
  obtain rfl := Option.some.inj ht
  exact hf seq

lemma follows_put {rec : Record} {f : Except QuoteId.Interface.RegErr Unit → Issuer α}
    {t : Ticket} {seq : UInt64} {taken : Option Ticket} (hid : rec.quoteID = t.id)
    (hseq : rec.sequence = seq.toNat) (hf : ∀ r, Follows issuing ⟨taken, ready⟩ (f r) Q) :
    Follows issuing ⟨taken, (t, seq) :: ready⟩ (Call.put rec >>= f) Q := by
  refine follows_perform.mpr ⟨⟨t, seq, ready, rfl, hid, hseq⟩, fun r g' hg' => ?_⟩
  obtain rfl : g' = ⟨taken, ready⟩ := hg'
  exact hf r

def unrelated : LockCall → Bool
  | .next | .nextSequence | .put _ => false
  | _ => true

lemma issuing_ignores {c : LockCall} (hc : unrelated c = true) : issuing.Ignores c := by
  refine fun g => ⟨?_, fun r g' h => ?_⟩
  · cases c <;> trivial
  · cases c <;> first | exact h | exact absurd hc (by simp [unrelated])

lemma follows_unrelated {c : LockCall} (hc : unrelated c = true) {f : Answer c → Issuer α}
    {g : Held} (hf : ∀ r, Follows issuing g (f r) Q) :
    Follows issuing g (Prog.perform c >>= f) Q := follows_ignored (issuing_ignores hc) hf

end

lemma attachQuoteID_issuing (issuer : String) (validity : ℤ) (cq : CustomerQuote ℚ)
    (prof : Profile) :
    Follows issuing ⟨none, []⟩ (attachQuoteID issuer validity cq prof) fun _ _ => True :=
  follows_next fun _ _ => follows_nextSequence fun _ => follows_put rfl rfl fun _ => True.intro

lemma issueForward_issuing (deps : ForwardLockDeps) (profile : Profile) (cq : CustomerQuote ℚ)
    (now : Pricing.BusinessDays.Time) :
    Follows issuing ⟨none, []⟩ (issueForward deps profile cq now) fun _ _ => True := by
  unfold issueForward
  split
  · split
    · exact follows_next fun _ _ => follows_nextSequence fun _ =>
        follows_put rfl rfl fun _ => True.intro
    · exact True.intro
  · exact True.intro

variable (lib : GoLib) (fuel : ℕ)

lemma forwardLock_issuing (deps : ForwardLockDeps) (r : Request ForwardLockRequest) :
    Follows issuing ⟨none, []⟩ (forwardLock lib fuel deps r) fun _ _ => True := by
  refine follows_forwardLock trivial (fun _ _ _ => True.intro) ?_
  intro req profile best g' spot hg' _
  obtain rfl : g' = ⟨none, []⟩ := hg'
  refine follows_lockForward (issuing_ignores rfl) (issuing_ignores rfl) (fun _ _ => True.intro) ?_
  intro leg now tbl
  exact follows_mono (fun _ _ _ => True.intro) (issueForward_issuing deps profile leg.cq now)

lemma putSwapAtomic_issuing {near far : Record} {nearSeq farSeq : UInt64} {nearT farT : Ticket}
    {taken : Option Ticket} (sw : SwapRecord) (hnear : near.quoteID = nearT.id)
    (hnearSeq : near.sequence = nearSeq.toNat) (hfar : far.quoteID = farT.id)
    (hfarSeq : far.sequence = farSeq.toNat) :
    Follows issuing ⟨taken, [(nearT, nearSeq), (farT, farSeq)]⟩ (putSwapAtomic near far sw)
      fun _ _ => True := by
  refine follows_put hnear hnearSeq fun putNear => ?_
  rcases putNear with err | _
  · exact True.intro
  refine follows_put hfar hfarSeq fun putFar => ?_
  rcases putFar with err | _
  · exact follows_unrelated rfl fun _ => True.intro
  refine follows_unrelated rfl fun putSwap => ?_
  rcases putSwap with err | _
  · exact follows_unrelated rfl fun _ => follows_unrelated rfl fun _ => True.intro
  · exact True.intro

lemma issueSwap_issuing (issuer : String) (req : SwapLockRequest) (profile : Profile)
    (near far : PricedLeg) (rawBid rawAsk : ℚ) (now : Pricing.BusinessDays.Time) (validUntil : ℤ)
    (tbl : Pricing.Table.PricingTable ℚ) :
    Follows issuing ⟨none, []⟩
      (issueSwap issuer req profile near far rawBid rawAsk now validUntil tbl)
        fun _ _ => True := by
  refine follows_next fun nearID n => follows_nextSequence fun nearSeq => ?_
  refine follows_next fun farID m => follows_nextSequence fun farSeq => ?_
  -- the id of the swap is taken and its number never asked for
  refine follows_next fun swapNext _ => ?_
  refine follows_bind.mpr (follows_mono (fun g' failed _ => ?_)
    (putSwapAtomic_issuing _ rfl rfl rfl rfl))
  rcases failed with _ | text
  · exact True.intro
  · exact True.intro

lemma lookupSpotRawForSwap_issuing (deps : SwapLockDeps)
    (best : String → Option (Best.BestSymbolStat ℚ)) (pair : String) (g : Held) :
    Follows issuing g (lookupSpotRawForSwap deps best pair) fun g' _ => g' = g := by
  unfold lookupSpotRawForSwap
  split
  · rfl
  · split
    · refine follows_unrelated rfl fun snap => ?_
      rcases snap with _ | c
      · rfl
      · rfl
    · rfl

lemma swapLock_issuing (deps : SwapLockDeps) (r : Request SwapLockRequest) :
    Follows issuing ⟨none, []⟩ (swapLock lib fuel deps r) fun _ _ => True := by
  refine follows_swapLock trivial (fun _ _ _ => True.intro) ?_
  intro req profile best g' hg'
  obtain rfl : g' = ⟨none, []⟩ := hg'
  refine follows_mono (fun g'' raw hsame rawBid rawAsk _ => ?_)
    (lookupSpotRawForSwap_issuing deps best req.pair _)
  subst hsame
  exact follows_lockSwap (issuing_ignores rfl) (issuing_ignores rfl) (fun _ _ => True.intro)
    fun issuer near far now validUntil tbl =>
      issueSwap_issuing issuer req profile near far rawBid rawAsk now validUntil tbl

lemma calls_issuing (job : Job) :
    Follows issuing ⟨none, []⟩ (job.calls lib fuel) fun _ _ => True := by
  rcases job with ⟨issuer, validity, cq, prof⟩ | ⟨deps, r⟩ | ⟨deps, r⟩
  · exact follows_bind.mpr (follows_mono (fun _ _ _ => True.intro)
      (attachQuoteID_issuing issuer validity cq prof))
  · exact follows_bind.mpr (follows_mono (fun _ _ _ => True.intro)
      (forwardLock_issuing lib fuel deps r))
  · exact follows_bind.mpr (follows_mono (fun _ _ _ => True.intro)
      (swapLock_issuing lib fuel deps r))

/-! ## The invariant -/

section

variable {ι : Type} {first : UInt64}

def Held.numbers (g : Held) : List ℕ :=
  g.ready.map (fun r => r.1.number) ++ g.taken.toList.map Ticket.number

def seqOf (first : UInt64) (n : ℕ) : UInt64 := first + UInt64.ofNat n

lemma seqOf_succ (first : UInt64) (n : ℕ) : seqOf first (n + 1) = seqOf first n + 1 := by
  simp [seqOf, UInt64.ofNat_add, UInt64.add_assoc]

def Numbered (first : UInt64) (id : QuoteID) (n : ℕ) : Prop :=
  ∃ name ms, id = quoteID name ms (seqOf first n)

def Filed (first : UInt64) (rec : Record) (n : ℕ) : Prop :=
  Numbered first rec.quoteID n ∧ rec.sequence = (seqOf first n).toNat

lemma Filed.carries {rec : Record} {n : ℕ} (h : Filed first rec n) : Carries rec := by
  obtain ⟨⟨name, ms, hid⟩, hseq⟩ := h
  rw [Carries, hid, hseq, embedded_quoteID]

structure Issuing (first : UInt64) (s : Shared ι) (G : ι → Held) : Prop where
  counter : s.server.gen.seq = seqOf first s.issued
  le : ∀ i, ∀ n ∈ (G i).numbers, n ≤ s.issued
  taken : ∀ i t, (G i).taken = some t →
    Numbered first t.id t.number ∧ (s.last = some i → t.number = s.issued)
  ready : ∀ i, ∀ r ∈ (G i).ready, Numbered first r.1.id r.1.number ∧ r.2 = seqOf first r.1.number
  puts : ∃ used, Exclusive (Held.numbers ∘ G) used ∧ (∀ n ∈ used, n ≤ s.issued) ∧
    List.Forall₂ (Filed first) s.server.puts used

lemma issuing_start (jobs : ι → Job) {server : Server} (hempty : server.puts = []) :
    Issuing server.gen.seq (start lib fuel jobs server).shared fun _ => ⟨none, []⟩ := by
  refine ⟨?_, fun i n hn => absurd hn (by simp [Held.numbers]), fun i t ht => absurd ht (by simp),
    fun i r hr => absurd hr (by simp), [], ⟨?_, ?_, nodup_nil, ?_⟩, by simp, ?_⟩
  · simp [start, seqOf]
  · intro i
    simp [Held.numbers]
  · intro i j n hn
    exact absurd hn (by simp [Held.numbers])
  · intro i n hn
    exact absurd hn (by simp [Held.numbers])
  · show List.Forall₂ _ server.puts []
    rw [hempty]
    exact .nil

variable [DecidableEq ι] {s : Shared ι} {G : ι → Held}

section

variable (h : Issuing first s G)
include h

lemma Issuing.update {s' : Shared ι} {g : Held} (i : ι)
    (hcounter : s'.server.gen.seq = seqOf first s'.issued) (hissued : s.issued ≤ s'.issued)
    (hlast : ∀ j ≠ i, s'.last = some j → s.last = some j ∧ s'.issued = s.issued)
    (hle : ∀ n ∈ g.numbers, n ≤ s'.issued)
    (htaken : ∀ t, g.taken = some t →
      Numbered first t.id t.number ∧ (s'.last = some i → t.number = s'.issued))
    (hready : ∀ r ∈ g.ready, Numbered first r.1.id r.1.number ∧ r.2 = seqOf first r.1.number)
    (hputs : ∃ used, Exclusive (Function.update (Held.numbers ∘ G) i g.numbers) used ∧
      (∀ n ∈ used, n ≤ s'.issued) ∧ List.Forall₂ (Filed first) s'.server.puts used) :
    Issuing first s' (Function.update G i g) := by
  rw [← Function.comp_update] at hputs
  refine ⟨hcounter, ?_, ?_, ?_, hputs⟩
  · exact (Function.forall_update_iff G fun _ g => ∀ n ∈ g.numbers, n ≤ s'.issued).mpr
      ⟨hle, fun j _ n hn => (h.le j n hn).trans hissued⟩
  · refine (Function.forall_update_iff G fun j g => ∀ t, g.taken = some t → Numbered first t.id
      t.number ∧ (s'.last = some j → t.number = s'.issued)).mpr ⟨htaken, fun j hj t ht => ?_⟩
    refine ⟨(h.taken j t ht).1, fun hl => ?_⟩
    obtain ⟨hl, hsame⟩ := hlast j hj hl
    rw [hsame]
    exact (h.taken j t ht).2 hl
  · exact (Function.forall_update_iff G fun _ g => ∀ r ∈ g.ready, Numbered first r.1.id r.1.number ∧
      r.2 = seqOf first r.1.number).mpr ⟨hready, fun j _ => h.ready j⟩

lemma Issuing.next (i : ι) (e : Outside) :
    ∃ g', issuing.post (G i) .next (sharedObject (i, e) s .next).2 g' ∧
      Issuing first (sharedObject (i, e) s .next).1 (Function.update G i g') := by
  set id := (sharedObject (i, e) s .next).2 with hid
  refine ⟨⟨some ⟨id, s.issued + 1⟩, (G i).ready⟩, ⟨s.issued + 1, rfl⟩, ?_⟩
  have hseq : s.server.gen.seq + 1 = seqOf first (s.issued + 1) := by rw [h.counter, seqOf_succ]
  have hready : ∀ n ∈ (G i).ready.map (fun r => r.1.number), n ≤ s.issued := fun n hn =>
    h.le i n (mem_append_left _ hn)
  obtain ⟨used, hexcl, hused, hfiled⟩ := h.puts
  refine h.update i hseq (Nat.le_succ _) (fun j hj hl => absurd (Option.some.inj hl).symm hj)
    (forall_concat (fun n hn => Nat.le_succ_of_le (hready n hn)) le_rfl) (fun t ht => ?_)
    (h.ready i) ⟨used, ?_, fun n hn => Nat.le_succ_of_le (hused n hn), hfiled⟩
  · obtain rfl := Option.some.inj ht
    refine ⟨⟨s.server.gen.instance, unixMilli e.time, ?_⟩, fun _ => rfl⟩
    rw [← hseq]
    rfl
  · -- an id that was taken before and not read is dropped
    have hkeep := hexcl.keep (i := i) (sublist_append_left
      ((G i).ready.map fun r => r.1.number) ((G i).taken.toList.map Ticket.number))
    have hnew : ∀ j, s.issued + 1 ∉ Function.update (Held.numbers ∘ G) i
        ((G i).ready.map fun r => r.1.number) j := by
      intro j hj
      by_cases hji : j = i
      · subst hji
        rw [Function.update_self] at hj
        have hle := hready _ hj
        omega
      · rw [Function.update_of_ne hji] at hj
        have hle := h.le j _ hj
        omega
    have hunused : s.issued + 1 ∉ used := by
      intro hmem
      have hle := hused _ hmem
      omega
    have hgive := hkeep.give i hnew hunused
    rwa [Function.update_self, Function.update_idem] at hgive

lemma Issuing.nextSequence (i : ι) (e : Outside) (hlast : s.last = some i)
    (hpre : issuing.pre (G i) .nextSequence) :
    ∃ g', issuing.post (G i) .nextSequence (sharedObject (i, e) s .nextSequence).2 g' ∧
      Issuing first (sharedObject (i, e) s .nextSequence).1 (Function.update G i g') := by
  obtain ⟨t, ht⟩ := hpre
  obtain ⟨hnum, htop⟩ := h.taken i t ht
  have hseq : s.server.gen.seq = seqOf first t.number := by rw [htop hlast, h.counter]
  refine ⟨⟨none, (G i).ready ++ [(t, s.server.gen.seq)]⟩, ⟨t, ht, rfl⟩, ?_⟩
  -- the ticket moves to the end of those that are ready, so the numbers stay as they are
  have hsame : Held.numbers ⟨none, (G i).ready ++ [(t, s.server.gen.seq)]⟩ = (G i).numbers := by
    simp [Held.numbers, ht]
  obtain ⟨used, hexcl, hused, hfiled⟩ := h.puts
  refine h.update i h.counter le_rfl (fun _ _ hl => ⟨hl, rfl⟩) (by rw [hsame]; exact h.le i)
    (fun t ht => absurd ht (by simp)) (forall_concat (h.ready i) ⟨hnum, hseq⟩)
    ⟨used, ?_, hused, hfiled⟩
  · rw [hsame]
    exact (Function.update_eq_self i (Held.numbers ∘ G)).symm ▸ hexcl

lemma Issuing.put (i : ι) (e : Outside) (rec : Record) (hpre : issuing.pre (G i) (.put rec)) :
    ∃ g', issuing.post (G i) (.put rec) (sharedObject (i, e) s (.put rec)).2 g' ∧
      Issuing first (sharedObject (i, e) s (.put rec)).1 (Function.update G i g') := by
  obtain ⟨t, seq, rest, hcons, hid, hrecSeq⟩ := hpre
  refine ⟨⟨(G i).taken, (G i).ready.tail⟩, rfl, ?_⟩
  have hmem : (t, seq) ∈ (G i).ready := by rw [hcons]; exact mem_cons_self
  obtain ⟨hnum, hseq⟩ := h.ready i _ hmem
  have hnumbers : (G i).numbers =
      t.number :: Held.numbers ⟨(G i).taken, (G i).ready.tail⟩ := by
    simp [Held.numbers, hcons]
  obtain ⟨used, hexcl, hused, hfiled⟩ := h.puts
  refine h.update i h.counter le_rfl (fun _ _ hl => ⟨hl, rfl⟩)
    (fun n hn => h.le i n (by rw [hnumbers]; exact mem_cons_of_mem _ hn)) (h.taken i)
    (fun r hr => h.ready i r (mem_of_mem_tail hr))
    ⟨used ++ [t.number], hexcl.use hnumbers, forall_concat hused ?_, ?_⟩
  · exact h.le i _ (by rw [hnumbers]; exact mem_cons_self)
  · have hrec : Filed first rec t.number := by
      refine ⟨?_, hrecSeq.trans (congrArg UInt64.toNat hseq)⟩
      rw [hid]
      exact hnum
    exact rel_append hfiled (.cons hrec .nil)

lemma Issuing.call (x : ι × Outside) (c : LockCall) (hgood : Undisturbed s x.1 c)
    (hpre : issuing.pre (G x.1) c) :
    ∃ g', issuing.post (G x.1) c (sharedObject x s c).2 g' ∧
      Issuing first (sharedObject x s c).1 (Function.update G x.1 g') := by
  have hsame : Function.update G x.1 (G x.1) = G := Function.update_eq_self x.1 G
  cases c with
  | next => exact h.next x.1 x.2
  | nextSequence => exact h.nextSequence x.1 x.2 hgood hpre
  | put rec => exact h.put x.1 x.2 rec hpre
  | stats | latestCross _ | load | now | putSwap _ | delete _ =>
    refine ⟨G x.1, rfl, ?_⟩
    rw [hsame]
    exact ⟨h.counter, h.le, h.taken, h.ready, h.puts⟩

end

lemma seqOf_inj {n m : ℕ} (hn : n < 2 ^ 64) (hm : m < 2 ^ 64)
    (h : (seqOf first n).toNat = (seqOf first m).toNat) : n = m := by
  have hadd : seqOf first n = seqOf first m := UInt64.toNat_inj.mp h
  have hof : UInt64.ofNat n = UInt64.ofNat m := (UInt64.add_right_inj first).mp hadd
  have hnat := congrArg UInt64.toNat hof
  rwa [UInt64.toNat_ofNat_of_lt' hn, UInt64.toNat_ofNat_of_lt' hm] at hnat

/-- **Undisturbed issuers file records that carry the numbers of their ids**, and with fewer than
`2 ^ 64` ids no number twice. -/
theorem sequence_of_undisturbed (lib : GoLib) (fuel : ℕ) (jobs : ι → Job) (server : Server)
    (hempty : server.puts = []) (xs : List (ι × Outside))
    (p' : Pool LockCall Answer (Shared ι) ι Unit)
    (hgood : Transition.Along (turn sharedObject) (Calling Undisturbed)
      (start lib fuel jobs server) xs)
    (hrun : Transition.run (turn sharedObject) (start lib fuel jobs server) xs = some p') :
    (∀ rec ∈ p'.shared.server.puts, Carries rec) ∧
      (p'.shared.issued < 2 ^ 64 → (p'.shared.server.puts.map Record.sequence).Nodup) := by
  obtain ⟨G, hinv, -⟩ := pool_invariant (P := issuing) sharedObject
    (Issuing server.gen.seq) (fun s G x c h hgood hpre => h.call x c hgood hpre)
    (issuing_start lib fuel jobs hempty) (fun i => calls_issuing lib fuel (jobs i)) hgood hrun
  obtain ⟨used, hexcl, hused, hfiled⟩ := hinv.puts
  constructor
  · exact ((forall₂_and_left _ _).mp (hfiled.imp fun _ _ h => ⟨h.carries, h⟩)).1
  · intro hbound
    have hmap : p'.shared.server.puts.map Record.sequence =
        used.map fun n => (seqOf server.gen.seq n).toNat := by
      rw [← forall₂_eq_eq_eq, forall₂_map_left_iff, forall₂_map_right_iff]
      exact hfiled.imp fun _ _ h => h.2
    rw [hmap]
    refine hexcl.used_nodup.map_on fun n hn m hm h => ?_
    have hnb := hused n hn
    have hmb := hused m hm
    exact seqOf_inj (by omega) (by omega) h

end

def newServer : Server where
  best := ⟨0, ∅, ⟨false, 0, ∅⟩, ∅, ∅⟩
  crossStaleness := 0
  lastEmits := ∅
  table := none
  gen := newGenerator "A"
  puts := []

def twoQuotes (_ : Bool) : Job :=
  .attach "A" 500000000
    ⟨"USD/KRW", ⟨"WEB", "SEOUL", "VIP"⟩, "SPOT", 1380, 1382, ⟨0, 0⟩, 1380, 1382, 0, 0, 1⟩
    ⟨"WEB", "SEOUL", "VIP"⟩

def turns (order : List Bool) : List (Bool × Outside) :=
  order.map fun i => (i, ⟨⟨0, 0⟩, .same _, .ok ()⟩)

theorem sequence_of_undisturbed_inTurn : ∃ p',
    Transition.run (turn sharedObject) (start bareLib 0 twoQuotes newServer)
      (turns [false, false, false, true, true, true]) = some p' ∧ p'.shared.issued = 2 ∧
      (∀ rec ∈ p'.shared.server.puts, Carries rec) ∧
      (p'.shared.issued < 2 ^ 64 → (p'.shared.server.puts.map Record.sequence).Nodup) := by
  refine ⟨_, rfl, rfl, sequence_of_undisturbed bareLib 0 twoQuotes newServer rfl
    (turns [false, false, false, true, true, true]) _ ?_ rfl⟩
  refine along_cons _ (calling_of_call rfl True.intro) rfl ?_
  refine along_cons _ (calling_of_call rfl rfl) rfl ?_
  refine along_cons _ (calling_of_call rfl True.intro) rfl ?_
  refine along_cons _ (calling_of_call rfl True.intro) rfl ?_
  refine along_cons _ (calling_of_call rfl rfl) rfl ?_
  exact along_cons _ (calling_of_call rfl True.intro) rfl True.intro

theorem not_carries_interleaved : ∃ p',
    Transition.run (turn sharedObject) (start bareLib 0 twoQuotes newServer)
      (turns [false, true, false, true, false, true]) = some p' ∧ p'.shared.issued < 2 ^ 64 ∧
      (∃ rec ∈ p'.shared.server.puts, ¬ Carries rec) ∧
      ¬ (p'.shared.server.puts.map Record.sequence).Nodup := by
  refine ⟨_, rfl, ?_, ?_, ?_⟩
  · decide
  · decide
  · decide

end Wtg.Price.LockSequence
