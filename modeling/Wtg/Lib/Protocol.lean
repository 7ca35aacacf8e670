import Mathlib.Data.List.Nodup
import Wtg.Lib.Program
import Wtg.Lib.Transition

/-! # Protocols of calls

A proof about a program that calls a shared object keeps a ghost value: what the program knows from
its calls so far. -/

namespace Wtg.Lib.Protocol

open Lib.Program List Function Lib.Transition

/-- Which calls a ghost value allows, and which ghost values an answer leads to. -/
structure Rules (C : Type) (R : C → Type) (γ : Type) where
  pre : γ → C → Prop
  post : γ → (c : C) → R c → γ → Prop

variable {C : Type} {R : C → Type} {γ α β σ ε ι : Type} {P : Rules C R γ}

/-- The program makes allowed calls only, and returns with `Q`. -/
def Follows (P : Rules C R γ) : γ → Prog C R α → (γ → α → Prop) → Prop
  | g, .ret a, Q => Q g a
  | g, .call c k, Q => P.pre g c ∧ ∀ r g', P.post g c r g' → Follows P g' (k r) Q

variable {Q : γ → α → Prop}

lemma follows_call {g : γ} {c : C} {k : R c → Prog C R α} :
    Follows P g (.call c k) Q ↔
      P.pre g c ∧ ∀ r g', P.post g c r g' → Follows P g' (k r) Q := Iff.rfl

lemma follows_perform {g : γ} {c : C} {f : R c → Prog C R α} :
    Follows P g (Prog.perform c >>= f) Q ↔
      P.pre g c ∧ ∀ r g', P.post g c r g' → Follows P g' (f r) Q := Iff.rfl

/-- The call is always allowed and tells the caller nothing. -/
def Rules.Ignores (P : Rules C R γ) (c : C) : Prop :=
  ∀ g, P.pre g c ∧ ∀ r g', P.post g c r g' → g' = g

lemma follows_ignored {g : γ} {c : C} (hc : P.Ignores c) {f : R c → Prog C R α}
    (hf : ∀ r, Follows P g (f r) Q) : Follows P g (Prog.perform c >>= f) Q := by
  refine follows_perform.mpr ⟨(hc g).1, fun r g' hg' => ?_⟩
  rw [(hc g).2 r g' hg']
  exact hf r

lemma follows_mono {Q Q' : γ → α → Prop} (h : ∀ g a, Q g a → Q' g a) :
    ∀ {g : γ} {p : Prog C R α}, Follows P g p Q → Follows P g p Q'
  | g, .ret a, hp => h g a hp
  | _, .call _ _, hp => ⟨hp.1, fun r g' hg' => follows_mono h (hp.2 r g' hg')⟩

lemma follows_bind {f : α → Prog C R β} {Q : γ → β → Prop} : ∀ {g : γ} {p : Prog C R α},
    Follows P g (p >>= f) Q ↔ Follows P g p fun g' a => Follows P g' (f a) Q
  | _, .ret _ => Iff.rfl
  | g, .call c k => by
    rw [Prog.call_bind, follows_call, follows_call]
    exact and_congr_right fun _ => forall_congr' fun r => forall_congr' fun g' =>
      imp_congr_right fun _ => follows_bind

/-! ## Pools of programs -/

section

variable [DecidableEq ι] (obj : Object C R σ (ι × ε))

/-- The thread `x.1` makes its next call, the outside deciding `x.2`; the object sees who calls. -/
def turn (p : Pool C R σ ι α) (x : ι × ε) : Option (Pool C R σ ι α) := some (p.step obj x.1 x)

/-- A condition on the calls of a run, in the shared state they find. -/
def Calling (Good : σ → ι → C → Prop) (p : Pool C R σ ι α) (x : ι × ε) : Prop :=
  ∀ c k, p.thread x.1 = .call c k → Good p.shared x.1 c

variable {Good : σ → ι → C → Prop}

omit [DecidableEq ι] in
lemma calling_of_call {p : Pool C R σ ι α} {x : ι × ε} {c : C} {k : R c → Prog C R α}
    (hcall : p.thread x.1 = .call c k) (hgood : Good p.shared x.1 c) : Calling Good p x := by
  intro c' k' hcall'
  obtain ⟨rfl, -⟩ := Prog.call.inj (hcall.symm.trans hcall')
  exact hgood

variable {p p' : Pool C R σ ι α} (Inv : σ → (ι → γ) → Prop) {xs : List (ι × ε)}

lemma pool_invariant
    (hcall : ∀ s G x c, Inv s G → Good s x.1 c → P.pre (G x.1) c → ∃ g',
      P.post (G x.1) c (obj x s c).2 g' ∧ Inv (obj x s c).1 (update G x.1 g'))
    {G : ι → γ} (hinv : Inv p.shared G) (hfollows : ∀ i, Follows P (G i) (p.thread i) Q)
    (hgood : Transition.Along (turn obj) (Calling Good) p xs)
    (hrun : run (turn obj) p xs = some p') :
    ∃ G', Inv p'.shared G' ∧ ∀ i, Follows P (G' i) (p'.thread i) Q := by
  have hstep : ∀ (p : Pool C R σ ι α) x p',
      (∃ G, Inv p.shared G ∧ ∀ i, Follows P (G i) (p.thread i) Q) → Calling Good p x →
        turn obj p x = some p' →
          ∃ G, Inv p'.shared G ∧ ∀ i, Follows P (G i) (p'.thread i) Q := by
    rintro p x p' ⟨G, hinv, hfollows⟩ hgood hturn
    obtain rfl := Option.some.inj hturn
    rcases hthread : p.thread x.1 with a | ⟨c, k⟩
    · rw [Pool.step_ret hthread]
      exact ⟨G, hinv, hfollows⟩
    · have hx := hfollows x.1
      rw [hthread, follows_call] at hx
      obtain ⟨g', hpost, hinv'⟩ := hcall p.shared G x c hinv (hgood c k hthread) hx.1
      rw [Pool.step_call hthread]
      refine ⟨update G x.1 g', hinv', fun i => ?_⟩
      by_cases hi : i = x.1
      · subst hi
        show Follows P (update G x.1 g' x.1) (update p.thread x.1 _ x.1) Q
        rw [update_self, update_self]
        exact hx.2 _ g' hpost
      · show Follows P (update G x.1 g' i) (update p.thread x.1 _ i) Q
        rw [update_of_ne hi, update_of_ne hi]
        exact hfollows i
  exact invariant (turn obj) hstep ⟨G, hinv, hfollows⟩ hgood hrun

lemma pool_invariant_always
    (hcall : ∀ s G x c, Inv s G → P.pre (G x.1) c → ∃ g',
      P.post (G x.1) c (obj x s c).2 g' ∧ Inv (obj x s c).1 (update G x.1 g'))
    {G : ι → γ} (hinv : Inv p.shared G) (hfollows : ∀ i, Follows P (G i) (p.thread i) Q)
    (hrun : run (turn obj) p xs = some p') :
    ∃ G', Inv p'.shared G' ∧ ∀ i, Follows P (G' i) (p'.thread i) Q := by
  have hgood : Transition.Along (turn obj) (Calling fun _ _ _ => True) p xs :=
    along_of_forall _ (fun _ _ _ _ _ => trivial) xs p
  exact pool_invariant obj Inv (fun s G x c h _ => hcall s G x c h) hinv hfollows hgood hrun

end

/-! ## Tickets -/

section

variable {κ : Type}

/-- Every thread holds tickets, each held once and none of them used up. -/
structure Exclusive (held : ι → List κ) (used : List κ) : Prop where
  nodup : ∀ i, (held i).Nodup
  owner : ∀ i j x, x ∈ held i → x ∈ held j → i = j
  used_nodup : used.Nodup
  unused : ∀ i x, x ∈ held i → x ∉ used

variable [DecidableEq ι] {held : ι → List κ} {used : List κ}

lemma Exclusive.keep (h : Exclusive held used) {i : ι} {l : List κ} (hl : l.Sublist (held i)) :
    Exclusive (update held i l) used := by
  have hmem : ∀ j x, x ∈ update held i l j → x ∈ held j := by
    intro j x hx
    by_cases hj : j = i
    · subst hj
      rw [update_self] at hx
      exact hl.subset hx
    · rwa [update_of_ne hj] at hx
  refine ⟨fun j => ?_, fun j k x hj hk => h.owner j k x (hmem j x hj) (hmem k x hk), h.used_nodup,
    fun j x hj => h.unused j x (hmem j x hj)⟩
  by_cases hj : j = i
  · subst hj
    rw [update_self]
    exact (h.nodup j).sublist hl
  · rw [update_of_ne hj]
    exact h.nodup j

lemma Exclusive.give (h : Exclusive held used) (i : ι) {x : κ} (hx : ∀ j, x ∉ held j)
    (hused : x ∉ used) : Exclusive (update held i (held i ++ [x])) used := by
  have hmem : ∀ j y, y ∈ update held i (held i ++ [x]) j →
      y ∈ held j ∨ y = x ∧ j = i := by
    intro j y hy
    by_cases hj : j = i
    · subst hj
      rw [update_self, mem_append, mem_singleton] at hy
      exact hy.imp_right fun hyx => ⟨hyx, rfl⟩
    · rw [update_of_ne hj] at hy
      exact .inl hy
  refine ⟨fun j => ?_, fun j k y hj hk => ?_, h.used_nodup, fun j y hj => ?_⟩
  · by_cases hj : j = i
    · subst hj
      rw [update_self, nodup_append]
      refine ⟨h.nodup j, nodup_singleton x, fun a ha b hb hab => ?_⟩
      rw [mem_singleton] at hb
      exact hx j (hb ▸ hab ▸ ha)
    · rw [update_of_ne hj]
      exact h.nodup j
  · rcases hmem j y hj with hold | ⟨rfl, rfl⟩ <;> rcases hmem k y hk with hold' | ⟨hyx, rfl⟩
    · exact h.owner j k y hold hold'
    · rw [hyx] at hold
      exact absurd hold (hx j)
    · exact absurd hold' (hx k)
    · rfl
  · rcases hmem j y hj with hj | ⟨rfl, -⟩
    · exact h.unused j y hj
    · exact hused

lemma Exclusive.use (h : Exclusive held used) {i : ι} {x : κ} {rest : List κ}
    (hi : held i = x :: rest) : Exclusive (update held i rest) (used ++ [x]) := by
  have hx : x ∈ held i := by rw [hi]; exact mem_cons_self
  have hsub : rest.Sublist (held i) := by rw [hi]; exact sublist_cons_self x rest
  have hkeep := h.keep hsub
  refine ⟨hkeep.nodup, hkeep.owner, ?_, fun j y hj => ?_⟩
  · rw [nodup_append]
    refine ⟨h.used_nodup, nodup_singleton x, fun a ha b hb hab => ?_⟩
    rw [mem_singleton] at hb
    exact h.unused i x hx (hb ▸ hab ▸ ha)
  · rw [mem_append, mem_singleton, not_or]
    refine ⟨hkeep.unused j y hj, ?_⟩
    rintro rfl
    have hnodup := h.nodup i
    rw [hi] at hnodup
    by_cases hji : j = i
    · subst hji
      rw [update_self] at hj
      exact (nodup_cons.mp hnodup).1 hj
    · rw [update_of_ne hji] at hj
      exact hji (h.owner j i y hj hx)

end

lemma follows_runs {obj : Object C R σ ε} {Tied : γ → List (Event C R σ ε) → Prop}
    (hobj : ∀ g before e s c, Tied g before → P.pre g c → ∃ g', P.post g c (obj e s c).2 g' ∧
      Tied g' (before ++ [⟨e, s, c, (obj e s c).2, (obj e s c).1⟩])) :
    ∀ {p : Prog C R α} {tr : List (Event C R σ ε)} {a : α}, Runs obj p tr a →
      ∀ {g : γ} {before : List (Event C R σ ε)}, Tied g before → Follows P g p Q →
        ∃ g', Tied g' (before ++ tr) ∧ Q g' a := by
  intro p tr a hrun
  induction hrun with
  | ret a =>
    intro g before htied hp
    exact ⟨g, by rwa [append_nil], hp⟩
  | call e s h ih =>
    intro g before htied hp
    obtain ⟨hpre, hk⟩ := follows_call.mp hp
    obtain ⟨g', hpost, htied'⟩ := hobj g before e s _ htied hpre
    obtain ⟨g'', htied'', hq⟩ := ih htied' (hk _ g' hpost)
    exact ⟨g'', by rwa [append_assoc] at htied'', hq⟩

end Wtg.Lib.Protocol
