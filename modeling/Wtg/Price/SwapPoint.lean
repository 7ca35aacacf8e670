import Wtg.Fxsync.PricingWriters

/-! # Registering swap points

`SwapPointHandler` of `internal/price/swap_point.go`: a request loads the pricing document, applies
its swap points and stores the result if the document is still at the revision it has loaded, in
three rounds at most. -/

namespace Wtg.Price.SwapPoint

open Lib Lib.Transition Lib.ReadModifyWrite Fxsync.PricingWriters

variable {R ν ι : Type*} [Zero R] [DecidableEq ν] [DecidableEq ι]

/-- A request, or another writer with what it makes of the document, and in how many rounds. -/
inductive Writer (R ν : Type*)
  | request (req : SwapPointRequest R)
  | other (change : Option ν → Except Failure (Option ν)) (tries : ℕ)

def Writer.change (codec : Codec ν R) : Writer R ν → Option ν → Except Failure (Option ν)
  | .request req => applyRequest codec req
  | .other change _ => change

def writers (codec : Codec ν R) (w : ι → Writer R ν) : Clients ι (Option ν) Failure where
  change i := (w i).change codec
  conditional _ := true
  tries i :=
    match w i with
    | .request _ => 3
    | .other _ tries => tries
  loadError _ := .http 500 "etcd" ""
  storeError _ := .http 500 "etcd" ""
  conflict i :=
    match w i with
    | .request req => .http 409 "cas" ("경합 재시도 초과 (pair=" ++ req.pair ++ ")")
    | .other _ _ => .http 409 "cas" ""

/-- **No edit is lost or made twice**, in any interleaving. -/
theorem requests_serial (codec : Codec ν R) (w : ι → Writer R ν) (first : Option ν)
    (as : List (Action ι)) (s : State ι (Option ν) Failure)
    (hrun : run (step (writers codec w)) (State.init first) as = some s) :
    s.key = ⟨first, s.stores.map Prod.snd⟩ ∧
      Serial (fun i v v' => (w i).change codec v = .ok v') first s.stores ∧
      (∀ i, s.phase i = .succeeded → (s.stores.map Prod.fst).count i = 1) ∧
      ∀ i code message, s.phase i = .failed (.http 409 code message) →
        i ∉ s.stores.map Prod.fst := by
  have hgood := undisturbed_of_conditional (c := writers codec w) fun _ => rfl
  obtain ⟨hinv, hfirst, hserial⟩ := serial_of_run hrun (along_of_forall _ hgood as _)
  have htold : Told (writers codec w) s :=
    invariant _ (fun _ _ _ h _ hs => h.step hs) (fun i hi => absurd hi List.not_mem_nil)
      (along_of_forall _ hgood as _) hrun
  refine ⟨by rw [State.key, hfirst], hserial.imp fun i v v' h => h.1, fun i hi => ?_, ?_⟩
  · exact List.count_eq_one_of_mem hinv.once (hinv.stored i hi)
  · intro i code message hi hmem
    rcases htold i hmem with h | h <;> rw [hi] at h <;> cases h

def twoRequests : Bool → Writer ℤ (Option (Pricing.Doc.PricingTableDoc ℤ))
  | false => .request ⟨"USD/KRW", false, [⟨"", "1M", 2, 3⟩]⟩
  | true => .request ⟨"USD/KRW", false, [⟨"", "3M", 4, 5⟩]⟩

theorem requests_serial_retried :
    ∃ s, run (step (writers plainCodec twoRequests)) (State.init none) retried = some s ∧
      s.stores.map Prod.fst = [false, true] ∧ ∀ i, (s.stores.map Prod.fst).count i = 1 := by
  have hrun : run (step (writers plainCodec twoRequests)) (State.init none) retried = some _ := rfl
  obtain ⟨-, -, honce, -⟩ := requests_serial plainCodec twoRequests none retried _ hrun
  exact ⟨_, hrun, rfl, fun i => honce i (by revert i; decide)⟩

end Wtg.Price.SwapPoint
