import Wtg.Price.SwapValidation

/-! # Is the consumption of a swap atomic?

Any number of requests run over one `MemoryRegistry`, each call a step of its own, interleaved with
calls of others on the registry (`System`). -/

namespace Wtg.Price.SwapAtomic

open Lib Lib.Runs Lib.Program QuoteId.Registry QuoteId.Memory Option Function AList
open QuoteId.Interface Price.QuoteValidation Price.SwapValidation

variable {now : ℤ} {m : MemoryRegistry} {near far id : QuoteID} {c : String}

def Free (now : ℤ) (m : MemoryRegistry) (id : QuoteID) : Prop :=
  (∃ rec, m.Valid now id rec) ∧ m.consumed.lookup id = none

def PastGrace (now : ℤ) (m : MemoryRegistry) (id : QuoteID) : Prop :=
  ∃ rec, m.records.lookup id = some rec ∧ m.expired now rec.validUntil = true

/-- A consumption of `id` at `now` would evict a marker. -/
def Stale (now : ℤ) (m : MemoryRegistry) (id : QuoteID) : Prop :=
  PastGrace now m id ∧ m.consumed.lookup id ≠ none

def SameMarkers (m m' : MemoryRegistry) : Prop :=
  ∀ id, m'.consumed.lookup id = m.consumed.lookup id

/-- **Both or neither**: both legs are free and distinct, or neither is free and no marker of theirs
is to be evicted. -/
def Balanced (now : ℤ) (m : MemoryRegistry) (near far : QuoteID) : Prop :=
  (Free now m near ∧ Free now m far ∧ near ≠ far) ∨
    (¬ Free now m near ∧ ¬ Free now m far ∧ ¬ Stale now m near ∧ ¬ Stale now m far)

lemma Free.not_pastGrace (h : Free now m id) : ¬ PastGrace now m id := by
  rintro ⟨rec', hr', he'⟩
  obtain ⟨⟨rec, hr, he, -⟩, -⟩ := h
  obtain rfl := some.inj (hr.symm.trans hr')
  rw [he] at he'; cases he'

variable (now : ℤ) (m : MemoryRegistry) (req : ConsumeRequest)

/-- **What a consumption does** at `now` to the quote `id` and to no other. -/
structure Consumes (now : ℤ) (m : MemoryRegistry) (id : QuoteID) (x : MemoryRegistry × ConsumeResult) :
    Prop where
  ok_iff : x.2.status = .ok ↔ Free now m id
  ne_unknown : x.2.status ≠ .unknown
  same_iff : SameMarkers m x.1 ↔ ¬ Free now m id ∧ ¬ Stale now m id
  elsewhere : x.1.grace = m.grace ∧ ∀ id', id' ≠ id → x.1.records.lookup id' = m.records.lookup id' ∧
    x.1.consumed.lookup id' = m.consumed.lookup id'
  spent : ¬ Free now x.1 id ∧ ¬ PastGrace now x.1 id

lemma Consumes.refused {res : ConsumeResult} (hf : ¬ Free now m id) (hp : ¬ PastGrace now m id)
    (hok : res.status ≠ .ok) (hu : res.status ≠ .unknown) : Consumes now m id (m, res) where
  ok_iff := ⟨fun h => absurd h hok, fun h => absurd h hf⟩
  ne_unknown := hu
  same_iff := ⟨fun _ => ⟨hf, fun hs => hp hs.1⟩, fun _ _ => rfl⟩
  elsewhere := ⟨rfl, fun _ _ => ⟨rfl, rfl⟩⟩
  spent := ⟨hf, hp⟩

lemma consumes_markConsumed : Consumes now m req.quoteID (m.markConsumed now req) := by
  have ho := m.markConsumed_outcome now req
  have helse := ho.elsewhere
  generalize m.markConsumed now req = x at ho helse ⊢
  cases ho with
  | absent hr =>
    refine .refused _ _ ?_ ?_ nofun nofun
    · rintro ⟨⟨rec, h, -⟩, -⟩
      rw [hr] at h; cases h
    · rintro ⟨rec, h, -⟩
      rw [hr] at h; cases h
  | evicted hr he =>
    have hp : PastGrace now m req.quoteID := ⟨_, hr, he⟩
    have hf : ¬ Free now m req.quoteID := fun hf => hf.not_pastGrace hp
    refine ⟨⟨nofun, fun h => absurd h hf⟩, nofun, ⟨fun h => ⟨hf, fun hs => hs.2 ?_⟩, ?_⟩,
      helse, ?_, ?_⟩
    · rw [← h req.quoteID, lookup_erase]
    · rintro ⟨-, hs⟩ id
      by_cases hid : id = req.quoteID
      · subst hid
        rw [lookup_erase]
        by_contra hne
        exact hs ⟨hp, fun h => hne h.symm⟩
      · exact lookup_erase_ne hid
    · rintro ⟨⟨rec, hr, -⟩, -⟩
      rw [lookup_erase] at hr; cases hr
    · rintro ⟨rec, hr, -⟩
      rw [lookup_erase] at hr; cases hr
  | invalid hr he hv =>
    refine .refused _ _ ?_ ?_ nofun nofun
    · rintro ⟨⟨rec, h, -, hv'⟩, -⟩
      obtain rfl := some.inj (h.symm.trans hr)
      rw [hv] at hv'; cases hv'
    · rintro ⟨rec, h, he'⟩
      obtain rfl := some.inj (h.symm.trans hr)
      rw [he] at he'; cases he'
  | taken hr hc =>
    refine .refused _ _ ?_ ?_ nofun nofun
    · rintro ⟨-, h⟩
      rw [hc] at h; cases h
    · rintro ⟨rec, h, he'⟩
      obtain rfl := some.inj (h.symm.trans hr.1)
      rw [hr.2.1] at he'; cases he'
  | free hr hc =>
    have hf : Free now m req.quoteID := ⟨⟨_, hr⟩, hc⟩
    refine ⟨⟨fun _ => hf, fun _ => rfl⟩, nofun, ⟨fun h => ?_, fun h => absurd hf h.1⟩,
      helse, fun hf' => ?_, hf.not_pastGrace⟩
    · have hid := h req.quoteID
      rw [lookup_insert, hc] at hid
      cases hid
    · have hid := hf'.2
      rw [lookup_insert] at hid
      cases hid

variable {now m} {x : MemoryRegistry × ConsumeResult} {id' : QuoteID}

lemma Consumes.free_iff (hx : Consumes now m id x) (h : id' ≠ id) :
    Free now x.1 id' ↔ Free now m id' := by
  obtain ⟨h1, h2⟩ := hx.elsewhere.2 id' h
  unfold Free MemoryRegistry.Valid MemoryRegistry.expired
  rw [h1, h2, hx.elsewhere.1]

lemma Consumes.stale_iff (hx : Consumes now m id x) (h : id' ≠ id) :
    Stale now x.1 id' ↔ Stale now m id' := by
  obtain ⟨h1, h2⟩ := hx.elsewhere.2 id' h
  unfold Stale PastGrace MemoryRegistry.expired
  rw [h1, h2, hx.elsewhere.1]

lemma SameMarkers.trans_iff {m₁ m₂ : MemoryRegistry} (h : SameMarkers m₁ m₂) :
    SameMarkers m m₂ ↔ SameMarkers m m₁ :=
  ⟨fun h' id => (h id).symm.trans (h' id), fun h' id => (h id).trans (h' id)⟩

variable (now m)

lemma mark_legs_iff (near far : QuoteID) (c : String) :
    (¬ ((m.markConsumed now ⟨near, c⟩).2.status = .ok ∧
        ((m.markConsumed now ⟨near, c⟩).1.markConsumed now ⟨far, c⟩).2.status = .ok) →
      SameMarkers m ((m.markConsumed now ⟨near, c⟩).1.markConsumed now ⟨far, c⟩).1) ↔
    Balanced now m near far := by
  have hnear := consumes_markConsumed now m ⟨near, c⟩
  have hfar := consumes_markConsumed now (m.markConsumed now ⟨near, c⟩).1 ⟨far, c⟩
  rw [hnear.ok_iff, hfar.ok_iff]
  unfold Balanced
  by_cases hnf : near = far
  · subst hnf
    have hsame := hfar.same_iff.mpr ⟨hnear.spent.1, fun hs => hnear.spent.2 hs.1⟩
    rw [hsame.trans_iff, hnear.same_iff]
    have := hnear.spent
    tauto
  · have hfn : far ≠ near := fun h => hnf h.symm
    have hF := hnear.free_iff hfn
    have hS := hnear.stale_iff hfn
    have hboth : SameMarkers m ((m.markConsumed now ⟨near, c⟩).1.markConsumed now ⟨far, c⟩).1 ↔
        SameMarkers m (m.markConsumed now ⟨near, c⟩).1 ∧
          SameMarkers (m.markConsumed now ⟨near, c⟩).1
            ((m.markConsumed now ⟨near, c⟩).1.markConsumed now ⟨far, c⟩).1 := by
      refine ⟨fun h => ?_, fun h => h.2.trans_iff.mpr h.1⟩
      have h1 : SameMarkers m (m.markConsumed now ⟨near, c⟩).1 := by
        intro id
        by_cases hid : id = near
        · subst hid
          exact (hfar.elsewhere.2 id hnf).2.symm.trans (h id)
        · exact (hnear.elsewhere.2 id hid).2
      exact ⟨h1, fun id => (h id).trans (h1 id).symm⟩
    rw [hboth, hnear.same_iff, hfar.same_iff]
    simp only [hF, hS]
    -- which of the legs are free
    by_cases hnear : Free now m near <;> by_cases hfar : Free now m far <;>
      simp [hnf, hnear, hfar]

inductive Request
  | validate (engineID quoteID : String)
  | markConsumed (engineID quoteID consumerID : String)
  | batchValidate (engineID : String) (ids : List QuoteID)
  | batchMarkConsumed (engineID : String) (items : List ConsumeRequest)
  | validateSwap (engineID swapID : String)
  | consumeSwap (req : ConsumeSwapRequest)

inductive Response
  | validate (r : Except Status ValidateResponse)
  | markConsumed (r : Except Status MarkConsumedResponse)
  | batchValidate (r : Except Status (List ValidateResponse))
  | batchMarkConsumed (r : Except Status (List MarkConsumedResponse))
  | validateSwap (r : Except Status ValidateSwapResponse)
  | consumeSwap (r : Except Status ConsumeSwapResponse)

def Request.handler (s : QuoteValidationServer) : Request → Handler Response
  | .validate e q => s.validate e q >>= fun a => .ret (.validate a)
  | .markConsumed e q c => s.markConsumed e q c >>= fun a => .ret (.markConsumed a)
  | .batchValidate e ids => s.batchValidate e ids >>= fun a => .ret (.batchValidate a)
  | .batchMarkConsumed e its => s.batchMarkConsumed e its >>= fun a => .ret (.batchMarkConsumed a)
  | .validateSwap e id => SwapValidation.validateSwap s e id >>= fun a => .ret (.validateSwap a)
  | .consumeSwap req => SwapValidation.consumeSwap s req >>= fun a => .ret (.consumeSwap a)

abbrev System (ι : Type) := Pool RegCall Answer MemoryRegistry ι Response

/-- What happens next: request `i` makes its next call, or someone else uses the registry. -/
inductive Input (ι : Type)
  | request (i : ι) (now : ℤ)
  | registry (now : ℤ) (op : Op)

variable {ι : Type} [DecidableEq ι]

def step (p : System ι) : Input ι → System ι × Unit
  | .request i now => (p.step memoryObject i now, ())
  | .registry now op => ({ p with shared := (QuoteId.Memory.step p.shared (now, op)).1 }, ())

def after (s : QuoteValidationServer) (reqs : ι → Request) (m : MemoryRegistry)
    (sched : List (Input ι)) : System ι :=
  final step ⟨m, fun i => (reqs i).handler s⟩ sched

def IsOK (a : Except Status ConsumeSwapResponse) : Prop := ∃ resp, a = .ok resp ∧ resp.swapStatus = .OK

/-- **Atomic consumption** in the run of a schedule: a `ConsumeSwap` that is answered and not with
an OK has left the markers alone in each of its steps. -/
def Atomic (s : QuoteValidationServer) (reqs : ι → Request) (m : MemoryRegistry)
    (sched : List (Input ι)) : Prop :=
  ∀ i req a, reqs i = .consumeSwap req →
    (after s reqs m sched).thread i = .ret (.consumeSwap a) → ¬ IsOK a →
    ∀ pre now post, sched = pre ++ .request i now :: post →
      SameMarkers (after s reqs m pre).shared (after s reqs m (pre ++ [.request i now])).shared

def Marks (p : System ι) (i : ι) (near far : QuoteID) : Prop :=
  ∃ c k, p.thread i = .call (.markConsumedMany [⟨near, c⟩, ⟨far, c⟩]) k

def Left (c : String) (p : Handler Response) : Prop :=
  ∃ o q, Shape c o q ∧ p = q >>= fun a => .ret (.consumeSwap a)

def Reads : RegCall → Prop
  | .now => True
  | .lookupMany _ => True
  | .getSwap _ => True
  | _ => False

lemma sameMarkers_reads {call : RegCall} (h : Reads call) (now : ℤ) (m : MemoryRegistry) :
    SameMarkers m (memoryObject now m call).1 := by
  intro id
  cases call with
  | getSwap swapID =>
    show (m.getSwap now swapID).1.consumed.lookup id = _
    unfold MemoryRegistry.getSwap
    split
    · rfl
    · split_ifs
      · rfl
      · rfl
  | now => rfl
  | lookupMany ids => rfl
  | _ => exact h.elim

lemma Left.cases {p : Handler Response} (h : Left c p) :
    (∃ a, p = .ret (.consumeSwap a)) ∨
    (∃ call k, p = .call call k ∧ Reads call ∧ ∀ r, Left c (k r)) ∨
    (∃ near far, p = .call (.markConsumedMany [⟨near, c⟩, ⟨far, c⟩]) fun ans =>
      .ret (.consumeSwap (markedAnswer ans))) := by
  obtain ⟨o, q, hq, rfl⟩ := h
  cases hq with
  | refuse _ => exact .inl ⟨_, rfl⟩
  | now hk => exact .inr (.inl ⟨_, _, rfl, trivial, fun t => ⟨_, _, hk t, rfl⟩⟩)
  | lookup hk => exact .inr (.inl ⟨_, _, rfl, trivial, fun r => ⟨_, _, hk r, rfl⟩⟩)
  | getSwap hok herr =>
    refine .inr (.inl ⟨_, _, rfl, trivial, fun r => ?_⟩)
    match r with
    | .ok sw => exact ⟨_, _, hok sw, rfl⟩
    | .error e => exact ⟨_, _, herr e, rfl⟩
  | mark => exact .inr (.inr ⟨_, _, rfl⟩)

variable {p : System ι} {i : ι}

def legResults (now : ℤ) (m : MemoryRegistry) (near far : QuoteID) (c : String) :
    ConsumeResult × ConsumeResult :=
  ((m.markConsumed now ⟨near, c⟩).2,
    ((m.markConsumed now ⟨near, c⟩).1.markConsumed now ⟨far, c⟩).2)

lemma Left.step (h : Left c (p.thread i)) (now : ℤ) :
    (∃ near far, Marks p i near far ∧
      (p.step memoryObject i now).shared =
        ((p.shared.markConsumed now ⟨near, c⟩).1.markConsumed now ⟨far, c⟩).1 ∧
      (p.step memoryObject i now).thread i = .ret (.consumeSwap (.ok (markedResponse
        (legResults now p.shared near far c).1 (legResults now p.shared near far c).2)))) ∨
    ((∀ near far, ¬ Marks p i near far) ∧
      SameMarkers p.shared (p.step memoryObject i now).shared ∧
      (Left c ((p.step memoryObject i now).thread i) ∨
        ∃ a, (p.step memoryObject i now).thread i = .ret (.consumeSwap a))) := by
  rcases h.cases with ⟨a, hp⟩ | ⟨call, k, hp, hread, hk⟩ | ⟨near, far, hp⟩
  · right
    rw [Pool.step_ret hp]
    refine ⟨?_, fun _ => rfl, .inr ⟨a, hp⟩⟩
    rintro near far ⟨c', k', hm⟩
    rw [hp] at hm; cases hm
  · right
    rw [Pool.step_call hp]
    refine ⟨?_, sameMarkers_reads hread now p.shared, .inl ?_⟩
    · rintro near far ⟨c', k', hm⟩
      rw [hp] at hm; cases hm
      exact hread
    · show Left c (update p.thread i _ i)
      rw [update_self]
      exact hk _
  · left
    refine ⟨near, far, ⟨c, _, hp⟩, ?_⟩
    rw [Pool.step_call hp]
    refine ⟨rfl, ?_⟩
    show update p.thread i _ i = _
    rw [update_self]
    rfl

lemma thread_final {a : Response} (h : p.thread i = .ret a) (sched : List (Input ι)) :
    (final step p sched).thread i = .ret a := by
  induction sched generalizing p with
  | nil => exact h
  | cons inp sched ih =>
    refine ih ?_
    cases inp with
    | registry now op => exact h
    | request j now =>
      by_cases hj : i = j
      · subst hj
        show (p.step memoryObject i now).thread i = _
        rw [Pool.step_ret h, h]
      · exact (Pool.step_thread_ne hj).trans h

lemma after_append (s : QuoteValidationServer) (reqs : ι → Request) (m : MemoryRegistry)
    (pre post : List (Input ι)) :
    after s reqs m (pre ++ post) = final step (after s reqs m pre) post := final_append ..

lemma left_after {s : QuoteValidationServer} {reqs : ι → Request} {req : ConsumeSwapRequest}
    (hreq : reqs i = .consumeSwap req) (m : MemoryRegistry) (sched : List (Input ι)) :
    Left req.consumerID ((after s reqs m sched).thread i) ∨
      ∃ a, (after s reqs m sched).thread i = .ret (.consumeSwap a) := by
  induction sched using List.reverseRecOn with
  | nil =>
    left
    refine ⟨none, _, shape_consumeSwap s req, ?_⟩
    show (reqs i).handler s = _
    rw [hreq]
    rfl
  | append_singleton sched inp ih =>
    rw [after_append]
    rcases ih with ih | ⟨a, ih⟩
    swap
    · exact .inr ⟨a, thread_final ih _⟩
    cases inp with
    | registry now op => exact .inl ih
    | request j now =>
      by_cases hj : i = j
      · subst hj
        rcases ih.step now with ⟨near, far, -, -, h⟩ | ⟨-, -, h⟩
        · exact .inr ⟨_, h⟩
        · exact h
      · left
        show Left _ (((after s reqs m sched).step memoryObject j now).thread i)
        rwa [Pool.step_thread_ne hj]

lemma isOK_markedResponse (near far : QuoteID) (c : String) :
    IsOK (.ok (markedResponse (legResults now m near far c).1 (legResults now m near far c).2)) ↔
      (m.markConsumed now ⟨near, c⟩).2.status = .ok ∧
        ((m.markConsumed now ⟨near, c⟩).1.markConsumed now ⟨far, c⟩).2.status = .ok := by
  have h1 := (consumes_markConsumed now m ⟨near, c⟩).ne_unknown
  have h2 := (consumes_markConsumed now (m.markConsumed now ⟨near, c⟩).1 ⟨far, c⟩).ne_unknown
  have hok := markedResponse_ok (legResults now m near far c).1 (legResults now m near far c).2
  unfold IsOK
  simp only [Except.ok.injEq, exists_eq_left', hok]
  unfold legResults
  tauto

/-- **When the consumption of a swap is atomic**: every `ConsumeSwap` without an OK leaves the
markers alone exactly if every marking of two legs found them balanced. -/
theorem consumeSwap_atomic_iff (s : QuoteValidationServer) (reqs : ι → Request)
    (m : MemoryRegistry) (sched : List (Input ι)) :
    Atomic s reqs m sched ↔
      ∀ pre i now post, sched = pre ++ .request i now :: post →
        ∀ req near far, reqs i = .consumeSwap req → Marks (after s reqs m pre) i near far →
          Balanced now (after s reqs m pre).shared near far := by
  have hstep : ∀ pre i now, after s reqs m (pre ++ [.request i now]) =
      (after s reqs m pre).step memoryObject i now := fun pre i now => after_append ..
  -- what request `i` has answered after a prefix is what it answers in the end
  have hend : ∀ pre i now post a, sched = pre ++ .request i now :: post →
      ((after s reqs m pre).step memoryObject i now).thread i = .ret a →
      (after s reqs m sched).thread i = .ret a := by
    intro pre i now post a hsched ha
    rw [hsched, List.append_cons, after_append, hstep]
    exact thread_final ha post
  constructor
  · intro hat pre i now post hsched req near far hreq hmarks
    obtain ⟨c, k, hk⟩ := hmarks
    have hleft : Left req.consumerID ((after s reqs m pre).thread i) := by
      refine (left_after hreq m pre).resolve_right ?_
      rintro ⟨a, ha⟩
      rw [ha] at hk; cases hk
    rcases hleft.step now with ⟨near', far', ⟨c', k', hk'⟩, hshared, hans⟩ | ⟨hno, -⟩
    swap
    · exact absurd ⟨c, k, hk⟩ (hno near far)
    rw [hk] at hk'
    cases hk'
    rw [← mark_legs_iff, ← isOK_markedResponse, ← hshared, ← hstep]
    intro hno
    exact hat i req _ hreq (hend pre i now post _ hsched hans) hno pre now post hsched
  · intro hbal i req a hreq hans hno pre now post hsched
    rw [hstep]
    rcases left_after hreq m pre with hleft | ⟨a', ha⟩
    swap
    · rw [Pool.step_ret ha]
      exact fun _ => rfl
    rcases hleft.step now with ⟨near, far, hmarks, hshared, hans'⟩ | ⟨-, hsame, -⟩
    swap
    · exact hsame
    have hb := hbal pre i now post hsched req near far hreq hmarks
    rw [← mark_legs_iff now _ near far req.consumerID, ← isOK_markedResponse, ← hshared] at hb
    have heq := hans.symm.trans (hend pre i now post _ hsched hans')
    cases heq
    exact hb hno

def sampleRegistry : MemoryRegistry :=
  (((newMemoryRegistry 0).put { sampleQuote with quoteID := "n1" }).1.put
    { sampleQuote with quoteID := "f1" }).1.putSwap sampleSwap |>.1

def sampleRequests : Bool → Request
  | false => .consumeSwap ⟨"e1", "s1", "c1"⟩
  | true => .markConsumed "e2" "f1" "c2"

def sampleSchedule : List (Input Bool) :=
  [.request false 1, .request false 1, .request false 1, .request false 1, .request true 1,
    .request false 1]

theorem consumeSwap_race : ¬ Atomic sampleServer sampleRequests sampleRegistry sampleSchedule := by
  intro hat
  have hsame := hat false _ _ rfl (rfl : _ = Prog.ret (Response.consumeSwap (.ok _)))
    (by rintro ⟨resp, ⟨⟩, hok⟩; revert hok; decide)
    [.request false 1, .request false 1, .request false 1, .request false 1, .request true 1] 1 []
    rfl "n1"
  revert hsame
  decide

end Wtg.Price.SwapAtomic
