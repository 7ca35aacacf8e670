import Wtg.Price.QuoteValidation

/-! # Validating and consuming a swap

`ValidateSwap` and `ConsumeSwap` of `internal/price/quote_validation_swap.go`. -/

namespace Wtg.Price.SwapValidation

open Lib Lib.Program QuoteId.Registry QuoteId.Interface List
open Price.QuoteValidation Price.QuoteValidation.QuoteValidationServer

structure ValidateSwapResponse where
  swapStatus : ValidationStatus := .STATUS_UNSPECIFIED
  near : Option ValidateResponse := none
  far : Option ValidateResponse := none
  ordRejReason : ℤ := 0
  rejectText : String := ""
deriving DecidableEq, Repr

structure ConsumeSwapResponse where
  swapStatus : ValidationStatus := .STATUS_UNSPECIFIED
  near : Option MarkConsumedResponse := none
  far : Option MarkConsumedResponse := none
  ordRejReason : ℤ := 0
  rejectText : String := ""
deriving DecidableEq, Repr

structure ConsumeSwapRequest where
  engineID : String
  swapID : String
  consumerID : String
deriving DecidableEq, Repr

def rank : ValidationStatus → ℕ
  | .NOT_FOUND => 4
  | .ALREADY_CONSUMED => 3
  | .EXPIRED => 2
  | .OK => 1
  | .STATUS_UNSPECIFIED => 0

def worstStatus (a b : ValidationStatus) : ValidationStatus := if rank b ≤ rank a then a else b

def preValidateToConsumeShape (v : ValidateResponse) : MarkConsumedResponse :=
  { status := v.status, record := v.record, ordRejReason := v.ordRejReason
    rejectText := v.rejectText }

def swapConsumeResultToProto : ConsumeResult → MarkConsumedResponse :=
  consumeToProto "unknown ConsumeStatus"

def swapReject (alreadyText : String) : ValidationStatus → ℤ × String
  | .OK => (0, "")
  | .EXPIRED => (ordRejReasonExpired, "swap leg expired")
  | .ALREADY_CONSUMED => (ordRejReasonDuplicate, alreadyText)
  | .NOT_FOUND => (ordRejReasonNotFound, "swap leg not found")
  | .STATUS_UNSPECIFIED => (ordRejReasonNotFound, "swap leg not found")

def noSwapIndex : Status := ⟨.unimplemented, "SwapIndex 미주입 — mci-price 가 swap 미활성"⟩

def badLookup (n : ℕ) : Status := ⟨.internal, "lookup len=" ++ toString n ++ " (기대 2)"⟩

def validatedResponse (near far : ValidateResponse) : ValidateSwapResponse :=
  let st := worstStatus near.status far.status
  { swapStatus := st, near := some near, far := some far
    ordRejReason := (swapReject "swap leg already consumed" st).1
    rejectText := (swapReject "swap leg already consumed" st).2 }

def validateSwap (s : QuoteValidationServer) (engineID swapID : String) :
    Handler (Except Status ValidateSwapResponse) := do
  if let some reason ← s.checkEngine engineID permValidate then
    return .error (permissionDenied reason)
  if !s.swapIdx then return .error noSwapIndex
  if swapID = "" then
    return .ok { swapStatus := .NOT_FOUND, ordRejReason := ordRejReasonNotFound
                 rejectText := "swap_id required" }
  match ← Reg.getSwap swapID with
  | .error (.sentinel .swapNotFound) =>
    return .ok { swapStatus := .NOT_FOUND, ordRejReason := ordRejReasonNotFound
                 rejectText := "swap_id not found" }
  | .error err => return .error (internalError "swap index" err)
  | .ok sw =>
    match ← Reg.lookupMany [sw.nearID, sw.farID] with
    | .error err => return .error (internalError "registry" err)
    | .ok [near, far] =>
      return .ok (validatedResponse (← lookupToValidateResponse near) (← lookupToValidateResponse far))
    | .ok results => return .error (badLookup results.length)

def refusedResponse (preNear preFar : ValidateResponse) : ConsumeSwapResponse :=
  let st := worstStatus preNear.status preFar.status
  { swapStatus := st, near := some (preValidateToConsumeShape preNear)
    far := some (preValidateToConsumeShape preFar)
    ordRejReason := (swapReject "swap leg already consumed" st).1
    rejectText := (swapReject "swap leg already consumed" st).2 }

def markedResponse (near far : ConsumeResult) : ConsumeSwapResponse :=
  let nearMC := swapConsumeResultToProto near
  let farMC := swapConsumeResultToProto far
  let st := worstStatus nearMC.status farMC.status
  { swapStatus := st, near := some nearMC, far := some farMC
    ordRejReason := (swapReject "swap leg already consumed (partial — race)" st).1
    rejectText := (swapReject "swap leg already consumed (partial — race)" st).2 }

def markedAnswer : Except RegErr (List ConsumeResult) → Except Status ConsumeSwapResponse
  | .error err => .error (internalError "mark consumed" err)
  | .ok [near, far] => .ok (markedResponse near far)
  | .ok results => .error ⟨.internal, "mark consumed len=" ++ toString results.length⟩

def consumeLegs (consumerID : String) (sw : SwapRecord) :
    Handler (Except Status ConsumeSwapResponse) := do
  match ← Reg.lookupMany [sw.nearID, sw.farID] with
  | .error err => return .error (internalError "registry" err)
  | .ok [near, far] =>
    let preNear ← lookupToValidateResponse near
    let preFar ← lookupToValidateResponse far
    if worstStatus preNear.status preFar.status ≠ .OK then
      return .ok (refusedResponse preNear preFar)
    return markedAnswer
      (← Reg.markConsumedMany [⟨sw.nearID, consumerID⟩, ⟨sw.farID, consumerID⟩])
  | .ok pre => return .error (badLookup pre.length)

def consumeSwap (s : QuoteValidationServer) (req : ConsumeSwapRequest) :
    Handler (Except Status ConsumeSwapResponse) := do
  if let some reason ← s.checkEngine req.engineID permMarkConsumed then
    return .error (permissionDenied reason)
  if !s.swapIdx then return .error noSwapIndex
  if req.swapID = "" then
    return .ok { swapStatus := .NOT_FOUND, ordRejReason := ordRejReasonNotFound
                 rejectText := "swap_id required" }
  match ← Reg.getSwap req.swapID with
  | .error (.sentinel .swapNotFound) =>
    return .ok { swapStatus := .NOT_FOUND, ordRejReason := ordRejReasonNotFound
                 rejectText := "swap_id not found" }
  | .error err => return .error (internalError "swap index" err)
  | .ok sw => consumeLegs req.consumerID sw

inductive Shape (c : String) : Option SwapRecord → Handler (Except Status ConsumeSwapResponse) → Prop
  | refuse {o : Option SwapRecord} {a : Except Status ConsumeSwapResponse}
      (h : ∀ resp, a = .ok resp → resp.swapStatus ≠ .OK) : Shape c o (.ret a)
  | now {o : Option SwapRecord} {k : ℤ → Handler (Except Status ConsumeSwapResponse)}
      (h : ∀ t, Shape c o (k t)) : Shape c o (.call .now k)
  | lookup {o : Option SwapRecord} {ids : List QuoteID}
      {k : Except RegErr (List LookupResult) → Handler (Except Status ConsumeSwapResponse)}
      (h : ∀ r, Shape c o (k r)) : Shape c o (.call (.lookupMany ids) k)
  | getSwap {id : String}
      {k : Except RegErr SwapRecord → Handler (Except Status ConsumeSwapResponse)}
      (hok : ∀ sw, Shape c (some sw) (k (.ok sw))) (herr : ∀ e, Shape c none (k (.error e))) :
      Shape c none (.call (.getSwap id) k)
  | mark {sw : SwapRecord} : Shape c (some sw)
      (.call (.markConsumedMany [⟨sw.nearID, c⟩, ⟨sw.farID, c⟩]) fun ans => .ret (markedAnswer ans))

variable {c : String} {o : Option SwapRecord}

lemma shape_error (st : Status) : Shape c o (.ret (.error st)) :=
  .refuse fun _ h => by cases h

variable {resp : ConsumeSwapResponse}

lemma shape_ok (h : resp.swapStatus ≠ .OK) : Shape c o (.ret (.ok resp)) := by
  refine .refuse fun resp' heq => ?_
  cases heq
  exact h

inductive ReadsClock {α : Type} : Handler α → Prop
  | ret (a : α) : ReadsClock (.ret a)
  | now {k : ℤ → Handler α} (h : ∀ t, ReadsClock (k t)) : ReadsClock (Reg.now >>= k)

variable (s : QuoteValidationServer)

lemma readsClock_checkEngine (engineID op : String) : ReadsClock (s.checkEngine engineID op) := by
  unfold checkEngine
  split
  · exact .ret _
  · split
    · exact .ret _
    · refine .now fun t => ?_
      split_ifs
      · exact .ret _
      · exact .ret _
      · exact .ret _

lemma readsClock_lookupToValidateResponse (lr : LookupResult) :
    ReadsClock (lookupToValidateResponse lr) := by
  unfold lookupToValidateResponse
  by_cases hf : (!lr.found) = true
  · rw [if_pos hf]
    exact .ret _
  · rw [if_neg hf]
    refine .now fun t => ?_
    split_ifs
    · exact .ret _
    · exact .ret _
    · exact .ret _

lemma Shape.bind {α : Type} {p : Handler α}
    {f : α → Handler (Except Status ConsumeSwapResponse)} (hp : ReadsClock p)
    (h : ∀ a, Shape c o (f a)) : Shape c o (p >>= f) := by
  induction hp with
  | ret a => exact h a
  | now _ ih => exact .now ih

lemma shape_lookupMany {ids : List QuoteID}
    {k : Except RegErr (List LookupResult) → Handler (Except Status ConsumeSwapResponse)}
    (h : ∀ r, Shape c o (k r)) : Shape c o (Reg.lookupMany ids >>= k) := .lookup h

lemma shape_getSwap {id : String}
    {k : Except RegErr SwapRecord → Handler (Except Status ConsumeSwapResponse)}
    (hok : ∀ sw, Shape c (some sw) (k (.ok sw))) (herr : ∀ e, Shape c none (k (.error e))) :
    Shape c none (Reg.getSwap id >>= k) := .getSwap hok herr

lemma shape_consumeLegs (c : String) (sw : SwapRecord) :
    Shape c (some sw) (consumeLegs c sw) := by
  refine shape_lookupMany fun r => ?_
  match r with
  | .error err => exact shape_error _
  | .ok [near, far] =>
    refine .bind (readsClock_lookupToValidateResponse near) fun preNear => ?_
    refine .bind (readsClock_lookupToValidateResponse far) fun preFar => ?_
    split_ifs with h
    · exact shape_ok h
    · exact .mark
  | .ok [] => exact shape_error _
  | .ok [_] => exact shape_error _
  | .ok (_ :: _ :: _ :: _) => exact shape_error _

lemma shape_consumeSwap (req : ConsumeSwapRequest) :
    Shape req.consumerID none (consumeSwap s req) := by
  refine .bind (readsClock_checkEngine s _ _) fun r => ?_
  split
  · exact shape_error _
  split_ifs
  · exact shape_error _
  · exact shape_ok (by simp)
  refine shape_getSwap (fun sw => shape_consumeLegs _ sw) fun e => ?_
  match e with
  | .sentinel .swapNotFound => exact shape_ok (by simp)
  | .sentinel .notFound => exact shape_error _
  | .sentinel .invalidRecord => exact shape_error _
  | .other _ => exact shape_error _

def legStatus : ConsumeStatus → ValidationStatus
  | .ok => .OK
  | .alreadyDone => .ALREADY_CONSUMED
  | .notFound => .NOT_FOUND
  | .expired => .EXPIRED
  | .unknown => .STATUS_UNSPECIFIED

lemma status_swapConsumeResultToProto (r : ConsumeResult) :
    (swapConsumeResultToProto r).status = legStatus r.status := by
  unfold swapConsumeResultToProto consumeToProto
  cases r.status <;> rfl

lemma worstStatus_legs (a b : ConsumeStatus) :
    worstStatus (legStatus a) (legStatus b) = .OK ↔
      (a = .ok ∧ b = .ok) ∨ (a = .ok ∧ b = .unknown) ∨ (a = .unknown ∧ b = .ok) := by
  cases a <;> cases b <;> decide

lemma markedResponse_ok (near far : ConsumeResult) :
    (markedResponse near far).swapStatus = .OK ↔
      (near.status = .ok ∧ far.status = .ok) ∨ (near.status = .ok ∧ far.status = .unknown) ∨
        (near.status = .unknown ∧ far.status = .ok) := by
  rw [← worstStatus_legs]
  simp only [markedResponse, status_swapConsumeResultToProto]

structure Marking (σ ε : Type) where
  outside : ε
  nearReq : ConsumeRequest
  farReq : ConsumeRequest
  near : ConsumeResult
  far : ConsumeResult
  after : σ

variable {σ ε : Type}

def marking : Event RegCall Answer σ ε → Option (Marking σ ε)
  | ⟨e, _, .markConsumedMany [q, q'], Except.ok [a, b], s'⟩ => some ⟨e, q, q', a, b, s'⟩
  | _ => none

def swapRead : Event RegCall Answer σ ε → Option SwapRecord
  | ⟨_, _, .getSwap _, Except.ok sw, _⟩ => some sw
  | _ => none

/-- Both legs of the swap read in the run got a `ConsumeOK` and carry the marker of `c`. -/
def BothMarked (marker : ε → σ → QuoteID → Option String) (c : String)
    (tr : List (Event RegCall Answer σ ε)) : Prop :=
  ∃ sw ∈ tr.filterMap swapRead, ∃ m ∈ tr.filterMap marking,
    m.near.status = .ok ∧ m.far.status = .ok ∧
    marker m.outside m.after sw.nearID = some c ∧ marker m.outside m.after sw.farID = some c

/-- One leg of a marking got a `ConsumeOK`, of the other nothing is known. -/
def Marking.Half (m : Marking σ ε) : Prop :=
  (m.near.status = .ok ∧ m.far.status = .unknown) ∨ (m.near.status = .unknown ∧ m.far.status = .ok)

instance (m : Marking σ ε) : Decidable m.Half := inferInstanceAs (Decidable (_ ∨ _))

variable {obj : RegistryObject σ ε} {tr : List (Event RegCall Answer σ ε)}

/-- How a run of `ConsumeSwap` that answers `resp` ends: it marks nothing and is not OK, or it marks
the legs of a swap it knows. -/
def Ends (obj : RegistryObject σ ε) (c : String) (o : Option SwapRecord)
    (tr : List (Event RegCall Answer σ ε)) (resp : ConsumeSwapResponse) : Prop :=
  (tr.filterMap marking = [] ∧ resp.swapStatus ≠ .OK) ∨
  ∃ sw m, (o = some sw ∨ sw ∈ tr.filterMap swapRead) ∧ tr.filterMap marking = [m] ∧
    m.nearReq = ⟨sw.nearID, c⟩ ∧ m.farReq = ⟨sw.farID, c⟩ ∧
    (∃ st, obj m.outside st (.markConsumedMany [m.nearReq, m.farReq]) =
      (m.after, Except.ok [m.near, m.far])) ∧
    resp = markedResponse m.near m.far

variable {ev : Event RegCall Answer σ ε}

lemma Ends.cons (h : Ends obj c o tr resp) (hm : marking ev = none) :
    Ends obj c o (ev :: tr) resp := by
  rcases h with ⟨h1, h2⟩ | ⟨sw, m, h1, h2, h3⟩
  · exact .inl ⟨by rw [filterMap_cons_none hm, h1], h2⟩
  · refine .inr ⟨sw, m, h1.imp_right fun h => ?_, by rw [filterMap_cons_none hm, h2], h3⟩
    rw [mem_filterMap] at h ⊢
    obtain ⟨ev', hev, hsw⟩ := h
    exact ⟨ev', mem_cons_of_mem _ hev, hsw⟩

lemma Ends.cons_swap {sw : SwapRecord} (h : Ends obj c (some sw) tr resp)
    (hm : marking ev = none) (hs : swapRead ev = some sw) : Ends obj c o (ev :: tr) resp := by
  rcases h.cons hm with h | ⟨sw', m, h1, h2⟩
  · exact .inl h
  · refine .inr ⟨sw', m, .inr ?_, h2⟩
    rcases h1 with h1 | h1
    · cases h1
      exact mem_filterMap.mpr ⟨ev, mem_cons_self, hs⟩
    · exact h1

lemma Shape.ends {p : Handler (Except Status ConsumeSwapResponse)} (h : Shape c o p) :
    ∀ {tr : List (Event RegCall Answer σ ε)} {resp : ConsumeSwapResponse},
      Runs obj p tr (.ok resp) → Ends obj c o tr resp := by
  induction h with
  | refuse hne =>
    intro tr resp hr
    obtain ⟨rfl, heq⟩ := runs_ret.mp hr
    exact .inl ⟨rfl, hne resp heq.symm⟩
  | now _ ih | lookup _ ih =>
    intro tr resp hr
    obtain ⟨e, st, tr', rfl, hk⟩ := runs_call.mp hr
    exact (ih _ hk).cons rfl
  | @getSwap id k _ _ ihok iherr =>
    intro tr resp hr
    obtain ⟨e, st, tr', rfl, hk⟩ := runs_call.mp hr
    generalize hans : obj e st (.getSwap id) = ans at hk
    obtain ⟨st', ans⟩ := ans
    match ans with
    | .ok sw => exact (ihok sw hk).cons_swap rfl rfl
    | .error err => exact (iherr err hk).cons rfl
  | @mark sw =>
    intro tr resp hr
    obtain ⟨e, st, tr', rfl, hk⟩ := runs_call.mp hr
    obtain ⟨rfl, heq⟩ := runs_ret.mp hk
    generalize hans : obj e st (.markConsumedMany [⟨sw.nearID, c⟩, ⟨sw.farID, c⟩]) = ans at heq
    obtain ⟨st', ans⟩ := ans
    match ans with
    | .error err => cases heq
    | .ok [] => cases heq
    | .ok [_] => cases heq
    | .ok (_ :: _ :: _ :: _) => cases heq
    | .ok [near, far] =>
      cases heq
      exact .inr ⟨sw, ⟨e, ⟨sw.nearID, c⟩, ⟨sw.farID, c⟩, near, far, st'⟩, .inl rfl, rfl, rfl, rfl,
        ⟨st, hans⟩, rfl⟩

/-- **The AND policy of `ConsumeSwap`**: on a lawful registry an OK means that both legs were
marked, exactly if it is not the case that one was and of the other nothing is known. -/
theorem consumeSwap_and_policy_iff {marker : ε → σ → QuoteID → Option String}
    (hl : Lawful obj marker) (s : QuoteValidationServer) (req : ConsumeSwapRequest)
    (resp : ConsumeSwapResponse) (hr : Runs obj (consumeSwap s req) tr (.ok resp)) :
    (resp.swapStatus = .OK → BothMarked marker req.consumerID tr) ↔
      ∀ m ∈ tr.filterMap marking, ¬ m.Half := by
  rcases (shape_consumeSwap s req).ends hr with ⟨h1, h2⟩ | ⟨sw, m, hsw, hm, hn, hf, ⟨st, hobj⟩, hresp⟩
  · rw [h1]
    exact ⟨fun _ => by simp, fun _ h => absurd h h2⟩
  have hsw : sw ∈ tr.filterMap swapRead := hsw.resolve_left (by simp)
  have hmarks := hl.marks m.outside st [m.nearReq, m.farReq] [m.near, m.far] (by rw [hobj])
  rw [hobj] at hmarks
  obtain ⟨hnear, hrest⟩ := forall₂_cons.mp hmarks
  obtain ⟨hfar, -⟩ := forall₂_cons.mp hrest
  rw [hn] at hnear
  rw [hf] at hfar
  subst hresp
  rw [markedResponse_ok, hm]
  constructor
  · -- an OK of a half marked swap is not backed by both legs
    intro hpol m' hm' hhalf
    obtain rfl := mem_singleton.mp hm'
    obtain ⟨-, -, m', hm', h1, h2, -⟩ := hpol (.inr hhalf)
    rw [hm] at hm'
    obtain rfl := mem_singleton.mp hm'
    rcases hhalf with ⟨-, h⟩ | ⟨h, -⟩
    · rw [h2] at h; cases h
    · rw [h1] at h; cases h
  · intro hno hok
    rcases hok with ⟨h1, h2⟩ | hhalf
    · exact ⟨sw, hsw, m, by rw [hm]; exact mem_singleton_self m, h1, h2, hnear h1, hfar h2⟩
    · exact absurd hhalf (hno m (mem_singleton_self m))

/-! ## A swap that is half marked -/

open QuoteId.Redis

def sampleServer : QuoteValidationServer := ⟨none, true, fun _ => none⟩

def sampleSwap : SwapRecord := ⟨"s1", "n1", "f1", 0, 10 * second, "e1"⟩

def sampleSwapDB (r : RedisRegistry) : DB :=
  (r.putSwap (r.put (r.put TtlStore.empty 0 { sampleQuote with quoteID := "n1" }).1 0
    { sampleQuote with quoteID := "f1" }).1 0 sampleSwap).1

def sampleEnv (d : ℕ → Delivery) : List RedisEnv :=
  [⟨0, fun _ => .answered, ""⟩, ⟨0, fun _ => .answered, ""⟩, ⟨0, fun _ => .answered, ""⟩,
    ⟨0, fun _ => .answered, ""⟩, ⟨0, d, ""⟩]

theorem consumeSwap_and_policy_answered : ∃ tr resp,
    Runs (redisObject ⟨"quote", 0⟩) (consumeSwap sampleServer ⟨"e1", "s1", "c1"⟩) tr (.ok resp) ∧
      resp.swapStatus = .OK ∧ BothMarked (redisMarker ⟨"quote", 0⟩) "c1" tr := by
  have hrun : Runs (redisObject ⟨"quote", 0⟩) (consumeSwap sampleServer ⟨"e1", "s1", "c1"⟩) _ _ :=
    runs_of_exec (sampleEnv fun _ => .answered) (sampleSwapDB ⟨"quote", 0⟩) rfl
  refine ⟨_, _, hrun, by decide, ?_⟩
  exact (consumeSwap_and_policy_iff (redis_lawful _) _ _ _ hrun).mpr (by decide) (by decide)

theorem consumeSwap_ok_half_marked : ∃ tr resp,
    Runs (redisObject ⟨"quote", 0⟩) (consumeSwap sampleServer ⟨"e1", "s1", "c1"⟩) tr (.ok resp) ∧
      resp.swapStatus = .OK ∧
      (tr.filterMap marking).map (fun m => (m.near.status, m.far.status)) = [(.ok, .unknown)] ∧
      (tr.filterMap marking).map (fun m => redisMarker ⟨"quote", 0⟩ m.outside m.after "f1") =
        [none] := by
  refine ⟨_, _, runs_of_exec (sampleEnv fun i => if i = 1 then .lost else .answered)
    (sampleSwapDB ⟨"quote", 0⟩) rfl, ?_, ?_, ?_⟩
  · decide
  · decide
  · decide

end Wtg.Price.SwapValidation
