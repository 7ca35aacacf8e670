import Wtg.Lib.Runs

/-! # Programs that call a shared object

A request handler is a `Prog`: it makes calls on shared objects, each call being one atomic step,
and goes on with the answer. The same program is read in two ways. -/

namespace Wtg.Lib.Program

/-- A program that makes calls `c : C`, each answered by an `R c`, and returns an `α`. -/
inductive Prog (C : Type) (R : C → Type) (α : Type)
  | ret (a : α)
  | call (c : C) (k : R c → Prog C R α)

variable {C : Type} {R : C → Type} {α β σ ε ι : Type}

namespace Prog

def bind : Prog C R α → (α → Prog C R β) → Prog C R β
  | .ret a, f => f a
  | .call c k, f => .call c fun r => (k r).bind f

instance : Monad (Prog C R) where
  pure := .ret
  bind := bind

def perform (c : C) : Prog C R (R c) := .call c .ret

/-- The program alone: the state it leaves, and what it returns. -/
def eval (answer : σ → (c : C) → σ × R c) : Prog C R α → σ → σ × α
  | .ret a, s => (s, a)
  | .call c k, s => (k (answer s c).2).eval answer (answer s c).1

@[simp] lemma call_bind (c : C) (k : R c → Prog C R α) (f : α → Prog C R β) :
    (Prog.call c k >>= f) = .call c fun r => k r >>= f := rfl

end Prog

/-- A shared object: what a call does to the state and what it answers. -/
abbrev Object (C : Type) (R : C → Type) (σ ε : Type) := ε → σ → (c : C) → σ × R c

/-- A call of a program with its answer, the state it found and the state it left. -/
structure Event (C : Type) (R : C → Type) (σ ε : Type) where
  outside : ε
  before : σ
  call : C
  answer : R call
  after : σ

/-- `tr` are the calls of `p` on its way to returning `a`, others changing the state between them.
-/
inductive Runs (obj : Object C R σ ε) : Prog C R α → List (Event C R σ ε) → α → Prop
  | ret (a : α) : Runs obj (.ret a) [] a
  | call {c : C} {k : R c → Prog C R α} {tr : List (Event C R σ ε)} {a : α} (e : ε) (s : σ)
      (h : Runs obj (k (obj e s c).2) tr a) :
      Runs obj (.call c k) (⟨e, s, c, (obj e s c).2, (obj e s c).1⟩ :: tr) a

variable {obj : Object C R σ ε} {tr : List (Event C R σ ε)}

lemma runs_ret {a b : α} : Runs obj (.ret a) tr b ↔ tr = [] ∧ b = a := by
  constructor
  · rintro ⟨⟩; exact ⟨rfl, rfl⟩
  · rintro ⟨rfl, rfl⟩; exact .ret _

lemma runs_call {c : C} {k : R c → Prog C R α} {b : α} :
    Runs obj (.call c k) tr b ↔
      ∃ e s tr', tr = ⟨e, s, c, (obj e s c).2, (obj e s c).1⟩ :: tr' ∧
        Runs obj (k (obj e s c).2) tr' b := by
  constructor
  · rintro ⟨⟩; exact ⟨_, _, _, rfl, by assumption⟩
  · rintro ⟨e, s, tr', rfl, h⟩; exact .call e s h

/-- The program alone, the outside deciding `es` one after the other; none if they do not suffice.
-/
def exec (obj : Object C R σ ε) : Prog C R α → List ε → σ → Option (List (Event C R σ ε) × α)
  | .ret a, _, _ => some ([], a)
  | .call _ _, [], _ => none
  | .call c k, e :: es, s =>
    (exec obj (k (obj e s c).2) es (obj e s c).1).map fun x =>
      (⟨e, s, c, (obj e s c).2, (obj e s c).1⟩ :: x.1, x.2)

lemma runs_of_exec : ∀ {p : Prog C R α} (es : List ε) (s : σ)
    {tr : List (Event C R σ ε)} {a : α}, exec obj p es s = some (tr, a) → Runs obj p tr a
  | .ret _, _, _, _, _, h => by cases h; exact .ret _
  | .call _ _, [], _, _, _, h => by cases h
  | .call c k, e :: es, s, _, _, h => by
    obtain ⟨x, hx, hxe⟩ := Option.map_eq_some_iff.mp h
    cases hxe
    exact .call e s (runs_of_exec es _ hx)

/-- A shared state and what each thread has left to do. -/
structure Pool (C : Type) (R : C → Type) (σ ι α : Type) where
  shared : σ
  thread : ι → Prog C R α

namespace Pool

variable [DecidableEq ι] (obj : Object C R σ ε)

def step (p : Pool C R σ ι α) (i : ι) (e : ε) : Pool C R σ ι α :=
  match p.thread i with
  | .ret _ => p
  | .call c k =>
    ⟨(obj e p.shared c).1, Function.update p.thread i (k (obj e p.shared c).2)⟩

variable {obj} {p : Pool C R σ ι α} {i : ι} {e : ε}

lemma step_ret {a : α} (h : p.thread i = .ret a) : p.step obj i e = p := by
  unfold step; rw [h]

lemma step_call {c : C} {k : R c → Prog C R α} (h : p.thread i = .call c k) :
    p.step obj i e = ⟨(obj e p.shared c).1, Function.update p.thread i (k (obj e p.shared c).2)⟩ := by
  unfold step; rw [h]

lemma step_thread_ne {j : ι} (h : j ≠ i) : (p.step obj i e).thread j = p.thread j := by
  unfold step
  split
  · rfl
  · exact Function.update_of_ne h _ _

end Pool

end Wtg.Lib.Program
