import Wtg.Price.CustomerRegistry

/-! # Concurrent calls of the customer registry

`RegisterWithSources` and `Unregister` of `internal/price/customer_registry.go`, one atomic step at
a time: the map is changed first, and the two counters are adjusted after that. -/

namespace Wtg.Price.CustomerGates

open Lib Lib.Transition QuoteId.Registry Price.CustomerRegistry List

/-- An adjustment that a call still has to make. -/
inductive Adjust
  | count (d : ℤ)
  | srcCount (d : ℤ)
  deriving DecidableEq

/-- `calls`: the calls that have changed the map, by what they have left to do. -/
structure State where
  entries : GoMap String CustomerReg := ∅
  count : ℤ := 0
  srcCount : ℤ := 0
  calls : List (List Adjust) := []

inductive Action
  | registerWithSources (customerID : String) (profile : Profile) (sources : List String)
  | unregister (customerID : String)
  | adjust (i : ℕ)

/-- What `RegisterWithSources` does after the `Swap` that returned `prev`. -/
def afterSwap (prev : Option CustomerReg) (reg : CustomerReg) : List Adjust :=
  match prev with
  | none => .count 1 :: if reg.hasSources then [.srcCount 1] else []
  | some prev =>
    if prev.hasSources && !reg.hasSources then [.srcCount (-1)]
    else if !prev.hasSources && reg.hasSources then [.srcCount 1]
    else []

/-- What `Unregister` does after the `LoadAndDelete` that returned `prev`. -/
def afterDelete (prev : Option CustomerReg) : List Adjust :=
  match prev with
  | none => []
  | some prev => .count (-1) :: if prev.hasSources then [.srcCount (-1)] else []

def Adjust.apply (s : State) : Adjust → State
  | .count d => { s with count := s.count + d }
  | .srcCount d => { s with srcCount := s.srcCount + d }

def step (s : State) : Action → Option State
  | .registerWithSources customerID profile sources =>
    if customerID = "" then some s
    else
      let reg : CustomerReg := ⟨profile, sources.toFinset.erase ""⟩
      some { s with
        entries := s.entries.insert customerID reg
        calls := s.calls ++ [afterSwap (s.entries.lookup customerID) reg] }
  | .unregister customerID =>
    if customerID = "" then some s
    else some { s with
      entries := s.entries.erase customerID
      calls := s.calls ++ [afterDelete (s.entries.lookup customerID)] }
  | .adjust i =>
    match s.calls[i]? with
    | some (a :: rest) => some (a.apply { s with calls := s.calls.set i rest })
    | _ => none

def Adjust.toCount : Adjust → ℤ
  | .count d => d
  | .srcCount _ => 0

def Adjust.toSrc : Adjust → ℤ
  | .count _ => 0
  | .srcCount d => d

/-- What the calls in progress still add to a counter. -/
def due (f : Adjust → ℤ) (calls : List (List Adjust)) : ℤ := (calls.flatten.map f).sum

/-- The counters are exact, up to what the calls in progress have left to do. -/
structure Inv (s : State) : Prop where
  count : s.count + due Adjust.toCount s.calls = s.entries.entries.length
  srcCount : s.srcCount + due Adjust.toSrc s.calls = srcTotal s.entries.entries

lemma due_append (f : Adjust → ℤ) (calls : List (List Adjust)) (call : List Adjust) :
    due f (calls ++ [call]) = due f calls + (call.map f).sum := by
  simp [due]

lemma due_set {f : Adjust → ℤ} {a : Adjust} {rest : List Adjust} :
    ∀ {calls : List (List Adjust)} {i : ℕ}, calls[i]? = some (a :: rest) →
      due f calls = due f (calls.set i rest) + f a
  | call :: calls, 0, h => by
    obtain rfl := Option.some.inj h
    simp [due]
    ring
  | call :: calls, i + 1, h => by
    have ih : due f calls = due f (calls.set i rest) + f a := due_set h
    simp only [due, flatten_cons, map_append, sum_append, set_cons_succ] at ih ⊢
    rw [ih, add_assoc]

/-- What an entry of a customer counts. -/
def srcOf (prev : Option CustomerReg) : ℤ := (prev.toList.countP (·.hasSources) : ℕ)

lemma afterSwap_due (prev : Option CustomerReg) (reg : CustomerReg) :
    prev.toList.length + ((afterSwap prev reg).map Adjust.toCount).sum = 1 ∧
      srcOf prev + ((afterSwap prev reg).map Adjust.toSrc).sum = srcOf (some reg) := by
  rcases prev with _ | prev
  · cases h : reg.hasSources <;> simp [afterSwap, srcOf, Adjust.toCount, Adjust.toSrc, h]
  · cases h : reg.hasSources <;> cases hprev : prev.hasSources <;>
      simp [afterSwap, srcOf, Adjust.toCount, Adjust.toSrc, h, hprev]

lemma afterDelete_due (prev : Option CustomerReg) :
    prev.toList.length + ((afterDelete prev).map Adjust.toCount).sum = 0 ∧
      srcOf prev + ((afterDelete prev).map Adjust.toSrc).sum = 0 := by
  rcases prev with _ | prev
  · simp [afterDelete, srcOf]
  · cases h : prev.hasSources <;> simp [afterDelete, srcOf, Adjust.toCount, Adjust.toSrc, h]

lemma srcTotal_cons_eq (k : String) (reg : CustomerReg)
    (l : List (Sigma fun _ : String => CustomerReg)) :
    (srcTotal (⟨k, reg⟩ :: l) : ℤ) = srcOf (some reg) + srcTotal l := by
  rw [srcTotal_cons]
  cases h : reg.hasSources <;> simp [srcOf, h, add_comm]

lemma entries_split (m : GoMap String CustomerReg) (k : String) :
    (m.entries.length : ℤ) = (m.lookup k).toList.length + (m.erase k).entries.length ∧
      (srcTotal m.entries : ℤ) = srcOf (m.lookup k) + srcTotal (m.erase k).entries := by
  cases h : m.lookup k with
  | none => simp [GoMap.entries_erase_of_lookup_none h, srcOf]
  | some prev =>
    have hperm := GoMap.entries_perm_of_lookup h
    have hsrc : srcTotal m.entries = srcTotal (⟨k, prev⟩ :: (m.erase k).entries) :=
      hperm.countP_eq _
    rw [hperm.length_eq, hsrc, srcTotal_cons_eq]
    simp [add_comm]

variable {s s' : State} {a : Action}

lemma inv_step (h : Inv s) (hstep : step s a = some s') : Inv s' := by
  obtain ⟨hcount, hsrc⟩ := h
  revert hstep
  fun_cases step s a <;> rintro ⟨⟩
  case case1 | case3 => exact ⟨hcount, hsrc⟩
  case case2 customerID profile sources _ reg =>
    obtain ⟨hlen, htotal⟩ := entries_split s.entries customerID
    obtain ⟨hone, hsources⟩ := afterSwap_due (s.entries.lookup customerID) reg
    constructor
    · simp only [due_append, GoMap.entries_insert, length_cons]
      push_cast
      linarith
    · simp only [due_append, GoMap.entries_insert, srcTotal_cons_eq]
      linarith
  case case4 customerID _ =>
    obtain ⟨hlen, htotal⟩ := entries_split s.entries customerID
    obtain ⟨hone, hsources⟩ := afterDelete_due (s.entries.lookup customerID)
    constructor
    · simp only [due_append]
      linarith
    · simp only [due_append]
      linarith
  case case5 i a rest hi =>
    have hdue : ∀ f, due f s.calls = _ := fun f => due_set hi
    rw [hdue] at hcount hsrc
    cases a
    all_goals
      simp only [Adjust.toCount, Adjust.toSrc] at hcount hsrc
      constructor <;> simp only [Adjust.apply] <;> linarith

/-- **The gates are exact** whenever no call is in progress. -/
theorem gates_exact {acts : List Action} (hrun : run step {} acts = some s)
    (hquiet : s.calls.flatten = []) :
    s.count = s.entries.entries.length ∧ s.srcCount = srcTotal s.entries.entries := by
  have h : Inv s := invariant step (P := Inv) (fun _ _ _ h _ => inv_step h) ⟨rfl, rfl⟩
    (along_of_forall _ (fun _ _ => trivial) acts _) hrun
  obtain ⟨hcount, hsrc⟩ := h
  simp only [due, hquiet, map_nil, sum_nil, add_zero] at hcount hsrc
  exact ⟨hcount, hsrc⟩

/-- Two calls for one customer; the second one is counted first. -/
def overlapping : List Action :=
  [.registerWithSources "C1" ⟨"WEB", "SEL", "GOLD"⟩ [],
    .registerWithSources "C1" ⟨"WEB", "SEL", "GOLD"⟩ ["LP1"], .adjust 1, .adjust 0]

theorem gates_exact_overlapping : ∃ s, run step {} overlapping = some s ∧
    s.count = 1 ∧ s.srcCount = 1 ∧ s.count = s.entries.entries.length := by
  have hrun : run step {} overlapping = some _ := rfl
  exact ⟨_, hrun, rfl, rfl, (gates_exact hrun rfl).1⟩

end Wtg.Price.CustomerGates
