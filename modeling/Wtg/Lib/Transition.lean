import Mathlib.Data.List.Induction
import Mathlib.Data.Option.Basic

/-! # Guarded transitions

A system is a function `step` that takes a state and an action to the next state, if the action is
possible. -/

namespace Wtg.Lib

open List Option

/-! ## Lists with a last element -/

section

variable {α : Type*} {l : List α} {a : α}

lemma forall_concat {P : α → Prop} (hl : ∀ x ∈ l, P x) (ha : P a) : ∀ x ∈ l ++ [a], P x :=
  forall_mem_append.mpr ⟨hl, forall_mem_singleton.mpr ha⟩

lemma pairwise_concat {R : α → α → Prop} (hl : l.Pairwise R) (ha : ∀ x ∈ l, R x a) :
    (l ++ [a]).Pairwise R :=
  pairwise_append.mpr ⟨hl, pairwise_singleton _ _, fun x hx => forall_mem_singleton.mpr (ha x hx)⟩

end

namespace Transition

variable {σ α : Type*} (step : σ → α → Option σ)

/-- The state after the actions, if each is possible in its turn. -/
def run : σ → List α → Option σ
  | s, [] => some s
  | s, a :: as => (step s a).bind fun s' => run s' as

/-- Every action meets `Good` where it happens. -/
def Along (Good : σ → α → Prop) : σ → List α → Prop
  | _, [] => True
  | s, a :: as => Good s a ∧ ∀ s', step s a = some s' → Along Good s' as

variable {as : List α}

lemma along_cons {Good : σ → α → Prop} {s s' : σ} {a : α} (hgood : Good s a)
    (hstep : step s a = some s') (hrest : Along step Good s' as) : Along step Good s (a :: as) := by
  refine ⟨hgood, fun s₁ h₁ => ?_⟩
  obtain rfl := some.inj (hstep.symm.trans h₁)
  exact hrest

lemma along_of_forall {Good : σ → α → Prop} (h : ∀ s a, Good s a) :
    ∀ (as : List α) (s : σ), Along step Good s as
  | [], _ => trivial
  | a :: as, s => ⟨h s a, fun s' _ => along_of_forall h as s'⟩

instance decidableAlong (Good : σ → α → Prop) [∀ s a, Decidable (Good s a)] :
    ∀ (s : σ) (as : List α), Decidable (Along step Good s as)
  | _, [] => .isTrue trivial
  | s, a :: as =>
    match h : step s a with
    | none => decidable_of_iff (Good s a)
        ⟨fun hgood => ⟨hgood, fun s' hs' => absurd (h.symm.trans hs') (by simp)⟩, And.left⟩
    | some s₁ =>
      haveI := decidableAlong Good s₁ as
      decidable_of_iff (Good s a ∧ Along step Good s₁ as)
        ⟨fun hboth => along_cons step hboth.1 h hboth.2, fun hall => ⟨hall.1, hall.2 s₁ h⟩⟩

/-- The actions lead from `s` to `s'`, and every action meets `Good` where it happens. -/
def Leads (Good : σ → α → Prop) (s : σ) (as : List α) (s' : σ) : Prop :=
  run step s as = some s' ∧ Along step Good s as

namespace Leads

variable {step} {Good : σ → α → Prop} {s s₁ s' : σ} {a : α} {as bs : List α}

lemma nil (s : σ) : Leads step Good s [] s := ⟨rfl, trivial⟩

lemma cons (hgood : Good s a) (hstep : step s a = some s₁) (h : Leads step Good s₁ as s') :
    Leads step Good s (a :: as) s' := by
  refine ⟨?_, along_cons step hgood hstep h.2⟩
  rw [run, hstep]
  exact h.1

lemma append : ∀ {as : List α} {s : σ}, Leads step Good s as s₁ → Leads step Good s₁ bs s' →
    Leads step Good s (as ++ bs) s'
  | [], s, h₁, h₂ => by
    obtain rfl := some.inj h₁.1
    exact h₂
  | a :: as, s, ⟨hrun, hgood, halong⟩, h₂ => by
    obtain ⟨s₂, hstep, hrun⟩ := bind_eq_some_iff.mp hrun
    exact cons hgood hstep (append ⟨hrun, halong s₂ hstep⟩ h₂)

end Leads

/-- **How a call to another system ends**: with an error and no effect, with an error although it
was made, or well. -/
inductive Outcome
  | failed
  | unanswered
  | done
  deriving DecidableEq, Repr

variable {P : List α → σ → Prop}

lemma history {Good : σ → α → Prop}
    (hstep : ∀ past s a s', P past s → Good s a → step s a = some s' → P (past ++ [a]) s') :
    ∀ {as past : List α} {s s' : σ}, P past s → Along step Good s as → run step s as = some s' →
      P (past ++ as) s'
  | [], past, s, s', hs, _, hrun => by
    obtain rfl := some.inj hrun
    rwa [append_nil]
  | a :: as, past, s, s', hs, ⟨hgood, hrest⟩, hrun => by
    obtain ⟨s₁, h₁, hrun⟩ := bind_eq_some_iff.mp hrun
    have ih := history hstep (hstep past s a s₁ hs hgood h₁) (hrest s₁ h₁) hrun
    rwa [append_assoc] at ih

lemma invariant {P : σ → Prop} {Good : σ → α → Prop}
    (hstep : ∀ s a s', P s → Good s a → step s a = some s' → P s') {s s' : σ} (hs : P s)
    (halong : Along step Good s as) (hrun : run step s as = some s') : P s' :=
  @history _ _ step (fun _ => P) Good (fun _ => hstep) as [] s s' hs halong hrun

lemma run_append : ∀ (as bs : List α) (s : σ),
    run step s (as ++ bs) = (run step s as).bind fun s' => run step s' bs
  | [], _, _ => rfl
  | a :: as, bs, s => by
    simp only [cons_append, run, bind_assoc, run_append as bs]

lemma history_run {s : σ} (hinit : P [] s)
    (hstep : ∀ past s₁ a s₂, run step s past = some s₁ → P past s₁ → step s₁ a = some s₂ →
      P (past ++ [a]) s₂) (as : List α) : ∀ s', run step s as = some s' → P as s' := by
  induction as using reverseRecOn with
  | nil =>
    rintro _ ⟨⟩
    exact hinit
  | append_singleton as a ih =>
    intro s' hrun
    rw [run_append] at hrun
    obtain ⟨s₁, hpast, hlast⟩ := bind_eq_some_iff.mp hrun
    obtain ⟨s₂, ha, ⟨⟩⟩ := bind_eq_some_iff.mp hlast
    exact hstep as s₁ a _ hpast (ih s₁ hpast) ha

/-- The action took place when `P` held of the actions before it. -/
def Once (P : List α → Prop) (x : α) (as : List α) : Prop :=
  ∃ before after, as = before ++ x :: after ∧ P before

lemma not_once_nil (P : List α → Prop) (x : α) : ¬ Once P x [] := by
  rintro ⟨before, after, h, -⟩
  simp at h

lemma once_append_singleton {P : List α → Prop} {x a : α} :
    Once P x (as ++ [a]) ↔ Once P x as ∨ (a = x ∧ P as) := by
  constructor
  · rintro ⟨before, after, h, hP⟩
    rcases eq_nil_or_concat after with rfl | ⟨rest, c, rfl⟩
    · obtain ⟨hbefore, hx⟩ := append_inj' h rfl
      subst hbefore
      exact .inr ⟨(cons.inj hx).1, hP⟩
    · rw [concat_eq_append, ← cons_append, ← append_assoc] at h
      obtain ⟨has, -⟩ := append_inj' h rfl
      exact .inl ⟨before, rest, has, hP⟩
  · rintro (⟨before, after, rfl, hP⟩ | ⟨rfl, hP⟩)
    · exact ⟨before, after ++ [a], by simp, hP⟩
    · exact ⟨as, [], rfl, hP⟩

/-- `v` is what the last action said that said anything. -/
def LastSaid {V : Type*} (said : α → Option V) (as : List α) (v : V) : Prop :=
  ∃ before a after, as = before ++ a :: after ∧ said a = some v ∧ ∀ b ∈ after, said b = none

lemma lastSaid_append_some {V : Type*} {said : α → Option V} {a : α} {v : V} (as : List α)
    (h : said a = some v) : LastSaid said (as ++ [a]) v :=
  ⟨as, a, [], rfl, h, by simp⟩

lemma LastSaid.append_none {V : Type*} {said : α → Option V} {a : α} {v : V}
    (h : LastSaid said as v) (ha : said a = none) : LastSaid said (as ++ [a]) v := by
  obtain ⟨before, a', after, rfl, hsays, hafter⟩ := h
  exact ⟨before, a', after ++ [a], by simp, hsays, forall_concat hafter ha⟩

end Transition

end Wtg.Lib
