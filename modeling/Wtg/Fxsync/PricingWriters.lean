import Wtg.Lib.ReadModifyWrite
import Wtg.Pricing.SwapApply

/-! # The writers of the pricing document

The pricing document is one key in etcd, with a layer for each kind of margin. -/

namespace Wtg.Fxsync.PricingWriters

open Lib Lib.Transition Lib.ReadModifyWrite Pricing.Doc Pricing.SwapApply

variable {R ν ι : Type*}

/-- `json.Unmarshal` and `json.Marshal` of documents; the empty text is no document. -/
structure Codec (ν R : Type*) where
  unmarshal : ν → Option (PricingTableDoc R)
  marshal : PricingTableDoc R → Option ν
  blank : ν
  unmarshal_marshal : ∀ {doc text}, marshal doc = some text → unmarshal text = some doc
  unmarshal_blank : unmarshal blank = none

/-- What a call returns when it fails: the error of a sync, or the response of the handler; both
without the text of the error below. -/
inductive Failure
  | sync (text : String)
  | http (status : ℕ) (code message : String)
deriving DecidableEq, Repr

structure SwapPoint (R : Type*) where
  pair : String
  tenor : String
  bidAmount : R
  askAmount : R
deriving DecidableEq, Repr

structure HQMargin (R : Type*) where
  pair : String
  tier : String
  bidAmount : R
  askAmount : R
deriving DecidableEq, Repr

structure SiteMargin (R : Type*) where
  pair : String
  channel : String
  site : String
  bidAmount : R
  askAmount : R
deriving DecidableEq, Repr

structure CustomerSpread (R : Type*) where
  usid : String
  pair : String
  bidDelta : R
  askDelta : R
  active : Bool
deriving DecidableEq, Repr

/-- `SyncSwapPoints`, `SyncHQMargins`, `SyncSiteMargins` and `SyncCustomerMargins`, with what the
database has. -/
inductive Sync (R : Type*)
  | swapPoints (sps : List (SwapPoint R))
  | hqMargins (ms : List (HQMargin R))
  | siteMargins (ms : List (SiteMargin R))
  | customerMargins (cs : List (CustomerSpread R))
deriving DecidableEq, Repr

/-! ## The writers -/

section

variable [Zero R]

def customerSpreadsToEntries (cs : List (CustomerSpread R)) : List (CustomerEntryDoc R) :=
  (cs.filter fun c => c.active ∧ c.usid ≠ "").map fun c =>
    ⟨c.usid, c.pair, c.bidDelta, c.askDelta, 0, 0, "override", 0, ""⟩

def Sync.modify : Sync R → PricingTableDoc R → PricingTableDoc R
  | .swapPoints sps, doc =>
    { doc with
      swapPoint := sps.map fun sp => ⟨sp.pair, sp.tenor, sp.bidAmount, sp.askAmount, 0, 0⟩ }
  | .hqMargins ms, doc =>
    { doc with hqMargin := ms.map fun m => ⟨m.pair, m.tier, m.bidAmount, m.askAmount, 0, 0, ""⟩ }
  | .siteMargins ms, doc =>
    { doc with
      siteMargin := ms.map fun m =>
        ⟨m.pair, m.channel, m.site, m.bidAmount, m.askAmount, 0, 0, ""⟩ }
  | .customerMargins cs, doc => { doc with customerMargin := customerSpreadsToEntries cs }

omit [Zero R] in
def Codec.store (codec : Codec ν R) (failure : Failure) (doc : PricingTableDoc R) :
    Except Failure (Option ν) :=
  match codec.marshal doc with
  | some text => .ok (some text)
  | none => .error failure

omit [Zero R] in
def currentDoc (codec : Codec ν R) : Option ν → Except Failure (PricingTableDoc R)
  | none => .ok .empty
  | some text =>
    match codec.unmarshal text with
    | some doc => .ok doc
    | none => .error (.sync "fxsync: parse current doc")

def modifyPricingDoc (codec : Codec ν R) (sync : Sync R) (value : Option ν) :
    Except Failure (Option ν) :=
  match currentDoc codec value with
  | .error e => .error e
  | .ok doc =>
    codec.store (.sync "fxsync: marshal doc")
      { sync.modify doc with version := (sync.modify doc).version + 1 }

structure SwapPointRequest (R : Type*) where
  pair : String
  clear : Bool
  updates : List (SwapUpdate R)
deriving DecidableEq, Repr

omit [Zero R] in
def SwapPointRequest.check (req : SwapPointRequest R) : Except Failure (SwapPointRequest R) :=
  if req.pair = "" then .error (.http 400 "validation" "pair 필수")
  else if ¬ req.clear ∧ req.updates.length = 0 then
    .error (.http 400 "validation" "updates 비어있음 (해제는 clear=true)")
  else if req.updates.any fun up => up.tenor = "" then
    .error (.http 400 "validation" "updates[].tenor 필수")
  else
    .ok { req with
      updates := req.updates.map fun up =>
        if up.pair = "" then { up with pair := req.pair } else up }

variable [DecidableEq ν]

omit [Zero R] in
def loadedDoc (codec : Codec ν R) : Option ν → Except Failure (PricingTableDoc R)
  | none => .ok .empty
  | some text =>
    if text = codec.blank then .ok .empty
    else
      match codec.unmarshal text with
      | some doc => .ok doc
      | none => .error (.http 400 "apply" "pricing: doc 파싱 실패")

def applyRequest (codec : Codec ν R) (req : SwapPointRequest R) (value : Option ν) :
    Except Failure (Option ν) :=
  match req.check with
  | .error e => .error e
  | .ok req =>
    match loadedDoc codec value with
    | .error e => .error e
    | .ok doc =>
      codec.store (.http 400 "apply" "") (applySwapToDoc doc req.pair req.updates req.clear)

inductive Call (R : Type*)
  | sync (s : Sync R)
  | swapPoint (req : SwapPointRequest R)
deriving DecidableEq, Repr

def clients (codec : Codec ν R) (call : ι → Call R) : Clients ι (Option ν) Failure where
  change i :=
    match call i with
    | .sync sync => modifyPricingDoc codec sync
    | .swapPoint req => applyRequest codec req
  conditional i :=
    match call i with
    | .sync _ => false
    | .swapPoint _ => true
  tries _ := 3
  loadError i :=
    match call i with
    | .sync _ => .sync "fxsync: get wtg/pricing/table"
    | .swapPoint _ => .http 500 "etcd" ""
  storeError i :=
    match call i with
    | .sync _ => .sync "fxsync: put wtg/pricing/table"
    | .swapPoint _ => .http 500 "etcd" ""
  conflict i :=
    match call i with
    | .sync _ => .sync ""
    | .swapPoint req => .http 409 "cas" ("경합 재시도 초과 (pair=" ++ req.pair ++ ")")

end

inductive Layer
  | swapPoint
  | hqMargin
  | siteMargin
  | customerMargin
deriving DecidableEq, Repr

def Call.layer : Call R → Layer
  | .sync (.swapPoints _) => .swapPoint
  | .sync (.hqMargins _) => .hqMargin
  | .sync (.siteMargins _) => .siteMargin
  | .sync (.customerMargins _) => .customerMargin
  | .swapPoint _ => .swapPoint

def Layer.Same : Layer → PricingTableDoc R → PricingTableDoc R → Prop
  | .swapPoint, doc, doc' => doc.swapPoint = doc'.swapPoint
  | .hqMargin, doc, doc' => doc.hqMargin = doc'.hqMargin
  | .siteMargin, doc, doc' => doc.siteMargin = doc'.siteMargin
  | .customerMargin, doc, doc' => doc.customerMargin = doc'.customerMargin

instance [DecidableEq R] : ∀ (l : Layer) (doc doc' : PricingTableDoc R), Decidable (l.Same doc doc')
  | .swapPoint, _, _ => inferInstanceAs (Decidable (_ = _))
  | .hqMargin, _, _ => inferInstanceAs (Decidable (_ = _))
  | .siteMargin, _, _ => inferInstanceAs (Decidable (_ = _))
  | .customerMargin, _, _ => inferInstanceAs (Decidable (_ = _))

lemma Layer.same_refl (l : Layer) (doc : PricingTableDoc R) : l.Same doc doc := by
  rcases l with _ | _ | _ | _ <;> rfl

lemma Layer.same_trans (l : Layer) (a b c : PricingTableDoc R) (hab : l.Same a b)
    (hbc : l.Same b c) : l.Same a c := by
  rcases l with _ | _ | _ | _ <;> exact Eq.trans hab hbc

def Codec.docOf (codec : Codec ν R) (value : Option ν) : PricingTableDoc R :=
  (value.bind codec.unmarshal).getD .empty

/-! ## What a writer changes -/

section

variable {codec : Codec ν R} {value value' : Option ν} {doc : PricingTableDoc R}

lemma docOf_store {failure : Failure} (h : codec.store failure doc = .ok value') :
    codec.docOf value' = doc := by
  rw [Codec.store] at h
  rcases htext : codec.marshal doc with _ | text
  · rw [htext] at h
    exact absurd h (by simp)
  · rw [htext] at h
    obtain rfl := Except.ok.inj h
    simp [Codec.docOf, codec.unmarshal_marshal htext]

lemma docOf_of_currentDoc (h : currentDoc codec value = .ok doc) : codec.docOf value = doc := by
  rcases value with _ | text
  · exact Except.ok.inj h
  · rw [currentDoc] at h
    rcases hdoc : codec.unmarshal text with _ | doc' <;> rw [hdoc] at h
    · exact absurd h (by simp)
    · obtain rfl := Except.ok.inj h
      simp [Codec.docOf, hdoc]

lemma docOf_of_loadedDoc [DecidableEq ν] (h : loadedDoc codec value = .ok doc) :
    codec.docOf value = doc := by
  rcases value with _ | text
  · exact Except.ok.inj h
  · rw [loadedDoc] at h
    split_ifs at h with hblank
    · obtain rfl := Except.ok.inj h
      simp [Codec.docOf, hblank, codec.unmarshal_blank]
    · rcases hdoc : codec.unmarshal text with _ | doc' <;> rw [hdoc] at h
      · exact absurd h (by simp)
      · obtain rfl := Except.ok.inj h
        simp [Codec.docOf, hdoc]

variable [Zero R]

lemma docOf_modifyPricingDoc {sync : Sync R}
    (h : modifyPricingDoc codec sync value = .ok value') :
    codec.docOf value' =
      { sync.modify (codec.docOf value) with version := (codec.docOf value).version + 1 } := by
  rw [modifyPricingDoc] at h
  rcases hdoc : currentDoc codec value with e | doc <;> rw [hdoc] at h
  · exact absurd h (by simp)
  · rw [docOf_store h, docOf_of_currentDoc hdoc]
    rcases sync with _ | _ | _ | _ <;> rfl

lemma docOf_applyRequest [DecidableEq ν] {req : SwapPointRequest R}
    (h : applyRequest codec req value = .ok value') :
    ∃ updates, codec.docOf value' =
      applySwapToDoc (codec.docOf value) req.pair updates req.clear := by
  rw [applyRequest] at h
  rcases hreq : req.check with e | req' <;> rw [hreq] at h
  · exact absurd h (by simp)
  rcases hdoc : loadedDoc codec value with e | doc <;> simp only [hdoc] at h
  · exact absurd h (by simp)
  · rw [docOf_store h, docOf_of_loadedDoc hdoc]
    rw [SwapPointRequest.check] at hreq
    split_ifs at hreq
    obtain rfl := Except.ok.inj hreq
    exact ⟨_, rfl⟩

variable [DecidableEq ν] {call : ι → Call R} {i : ι}

lemma docOf_change (h : (clients codec call).change i value = .ok value') :
    (codec.docOf value').version = (codec.docOf value).version + 1 ∧
      ∀ l, l ≠ (call i).layer → l.Same (codec.docOf value') (codec.docOf value) := by
  rcases hcall : call i with sync | req
  · have h' : modifyPricingDoc codec sync value = .ok value' := by
      simpa only [clients, hcall] using h
    rw [docOf_modifyPricingDoc h']
    refine ⟨rfl, fun l hl => ?_⟩
    rcases sync with _ | _ | _ | _ <;> rcases l with _ | _ | _ | _ <;>
      first | rfl | exact absurd rfl hl
  · have h' : applyRequest codec req value = .ok value' := by
      simpa only [clients, hcall] using h
    obtain ⟨updates, hdoc⟩ := docOf_applyRequest h'
    rw [hdoc]
    refine ⟨rfl, fun l hl => ?_⟩
    rcases l with _ | _ | _ | _ <;> first | rfl | exact absurd rfl hl

end

/-! ## Runs of many writers -/

section

variable [Zero R] [DecidableEq ν] [DecidableEq ι] {codec : Codec ν R} {call : ι → Call R}
  {first : Option ν} {as : List (Action ι)} {s : State ι (Option ν) Failure}

/-- A store that is made finds the document as its call has read it, and there is a next version. -/
def Quiet (codec : Codec ν R) (call : ι → Call R) :
    State ι (Option ν) Failure → Action ι → Prop :=
  Undisturbed (clients codec call) fun value => (codec.docOf value).version ≠ Int64.maxValue

instance (codec : Codec ν R) (call : ι → Call R) (s : State ι (Option ν) Failure) (a : Action ι) :
    Decidable (Quiet codec call s a) :=
  inferInstanceAs (Decidable (Undisturbed (clients codec call)
    (fun value => (codec.docOf value).version ≠ Int64.maxValue) s a))

/-- **No layer is lost, if no put is disturbed**: every layer is that of its last writer, the
versions increase, and the stores are those of the calls that succeeded or were told an error after
them. -/
theorem layers_of_last_writers
    (hrun : run (step (clients codec call)) (State.init first) as = some s)
    (hquiet : Along (step (clients codec call)) (Quiet codec call) (State.init first) as) :
    (∀ l : Layer, l.Same (codec.docOf s.key.value)
        (codec.docOf ((lastBy (fun i => (call i).layer = l) s.stores).getD first))) ∧
      ((codec.docOf first).version.toInt ::
        s.stores.map fun e => (codec.docOf e.2).version.toInt).Pairwise (· < ·) ∧
      Serial (fun i v v' => (clients codec call).change i v = .ok v') first s.stores ∧
      (s.stores.map Prod.fst).Nodup ∧
      (∀ i, s.phase i = .succeeded → i ∈ s.stores.map Prod.fst) ∧
      (∀ i ∈ s.stores.map Prod.fst, (s.phase i).Over) := by
  obtain ⟨hinv, hfirst, hserial⟩ := serial_of_run hrun hquiet
  refine ⟨fun l => ?_, ?_, ?_, hinv.once, hinv.stored, hinv.ended⟩
  · rw [State.key, hfirst]
    refine Serial.part (fun v v' => l.Same (codec.docOf v) (codec.docOf v'))
      (fun v => l.same_refl _) (fun u v w => l.same_trans _ _ _) ?_ s.stores hserial
    exact fun i v v' hown hrel => (docOf_change hrel.1).2 l (Ne.symm hown)
  · refine Serial.increasing (fun v => (codec.docOf v).version.toInt) ?_ hserial
    rintro i v v' ⟨hchange, hmax⟩
    rw [(docOf_change hchange).1]
    have := (version_succ (codec.docOf v).version).mpr hmax
    omega
  · exact hserial.imp fun i v v' h => h.1

end

def plainCodec : Codec (Option (PricingTableDoc ℤ)) ℤ where
  unmarshal text := text
  marshal doc := some (some doc)
  blank := none
  unmarshal_marshal h := (Option.some.inj h).symm
  unmarshal_blank := rfl

def hqAndRequest : Bool → Call ℤ
  | false => .sync (.hqMargins [⟨"USD/KRW", "VIP", 1, 1⟩])
  | true => .swapPoint ⟨"USD/KRW", false, [⟨"", "1M", 2, 3⟩]⟩

def retried : List (Action Bool) :=
  [.load true .done, .load false .done, .store false .done, .store true .done, .load true .done,
    .store true .done]

theorem layers_of_last_writers_retried :
    ∃ s, run (step (clients plainCodec hqAndRequest)) (State.init none) retried = some s ∧
      (∀ i, s.phase i = .succeeded) ∧
      ∀ l : Layer, l.Same (plainCodec.docOf s.key.value)
        (plainCodec.docOf ((lastBy (fun i => (hqAndRequest i).layer = l) s.stores).getD none)) := by
  have hrun : run (step (clients plainCodec hqAndRequest)) (State.init none) retried = some _ := rfl
  exact ⟨_, hrun, by decide, (layers_of_last_writers hrun (by decide)).1⟩

def hqAndSite : Bool → Call ℤ
  | false => .sync (.hqMargins [⟨"USD/KRW", "VIP", 1, 1⟩])
  | true => .sync (.siteMargins [⟨"USD/KRW", "WEB", "BRANCH", 2, 2⟩])

theorem layer_lost :
    ∃ s, run (step (clients plainCodec hqAndSite)) (State.init none)
        [.load false .done, .load true .done, .store false .done, .store true .done] = some s ∧
      (∀ i, s.phase i = .succeeded) ∧
      ¬ Layer.Same .hqMargin (plainCodec.docOf s.key.value) (plainCodec.docOf
        ((lastBy (fun i => (hqAndSite i).layer = .hqMargin) s.stores).getD none)) ∧
      (s.stores.map fun e => (plainCodec.docOf e.2).version) = [1, 1] := by
  exact ⟨_, rfl, by decide, by decide, by decide⟩

end Wtg.Fxsync.PricingWriters
