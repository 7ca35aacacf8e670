import Mathlib.Data.Int.Order.Basic
import Mathlib.Data.List.Infix

/-! # Runs of deterministic machines

A machine is a step function `σ → ι → σ × ω`: from a state and an input it moves to a state and
gives an answer. -/

namespace Wtg.Lib.Runs

open List

variable {σ ι ω : Type*}

def final (step : σ → ι → σ × ω) : σ → List ι → σ
  | s, [] => s
  | s, i :: is => final step (step s i).1 is

def log (step : σ → ι → σ × ω) : σ → List ι → List (ι × ω)
  | _, [] => []
  | s, i :: is => (i, (step s i).2) :: log step (step s i).1 is

variable {step : σ → ι → σ × ω} (s : σ)

@[simp] lemma final_nil : final step s [] = s := rfl

@[simp] lemma final_cons (i : ι) (is : List ι) :
    final step s (i :: is) = final step (step s i).1 is := rfl

@[simp] lemma log_nil : log step s [] = [] := rfl

@[simp] lemma log_cons (i : ι) (is : List ι) :
    log step s (i :: is) = (i, (step s i).2) :: log step (step s i).1 is := rfl

lemma final_append (is js : List ι) :
    final step s (is ++ js) = final step (final step s is) js := by
  induction is generalizing s with
  | nil => rfl
  | cons i is ih => exact ih _

lemma log_append (is js : List ι) :
    log step s (is ++ js) = log step s is ++ log step (final step s is) js := by
  induction is generalizing s with
  | nil => rfl
  | cons i is ih => simp only [cons_append, log_cons, final_cons, ih]

lemma map_fst_log (is : List ι) : (log step s is).map Prod.fst = is := by
  induction is generalizing s with
  | nil => rfl
  | cons i is ih => simp [ih]

lemma run_history (P : List (ι × ω) → σ → Prop) (Good : List ι → Prop) {s₀ : σ}
    (h0 : P [] s₀)
    (hstep : ∀ h s i, P h s → Good (h.map Prod.fst ++ [i]) →
      P (h ++ [(i, (step s i).2)]) (step s i).1)
    (is : List ι) (hgood : ∀ p, p <+: is → Good p) :
    P (log step s₀ is) (final step s₀ is) := by
  induction is using reverseRecOn with
  | nil => exact h0
  | append_singleton is i ih =>
    have hpre : P (log step s₀ is) (final step s₀ is) :=
      ih fun p hp => hgood p (hp.trans (prefix_append _ _))
    have hi : Good ((log step s₀ is).map Prod.fst ++ [i]) := by
      rw [map_fst_log]; exact hgood _ prefix_rfl
    rw [log_append, final_append]
    exact hstep _ _ i hpre hi

def Chronological {α : Type*} (is : List (ℤ × α)) : Prop := is.Pairwise fun a b => a.1 ≤ b.1

instance {α : Type*} (is : List (ℤ × α)) : Decidable (Chronological is) :=
  inferInstanceAs (Decidable (is.Pairwise fun a b => a.1 ≤ b.1))

variable {α : Type*}

lemma Chronological.of_isPrefix {is p : List (ℤ × α)} (h : Chronological is)
    (hp : p <+: is) : Chronological p := h.sublist hp.sublist

variable {is : List (ℤ × α)}

lemma chronological_of_forall_eq {t : ℤ} (h : ∀ i ∈ is, i.1 = t) :
    Chronological is :=
  pairwise_iff_getElem.mpr fun _ _ hi hj _ =>
    ((h _ (getElem_mem hi)).trans (h _ (getElem_mem hj)).symm).le

lemma Chronological.le_last {i j : ℤ × α}
    (h : Chronological (is ++ [i])) (hj : j ∈ is) : j.1 ≤ i.1 :=
  (pairwise_append.mp h).2.2 j hj i (mem_singleton_self i)

variable {κ θ : Type*} {big : σ → κ → σ × θ}

lemma log_flatMap {ε : Type*} (expand : κ → List ι) (view : κ × θ → List ε)
    (peek : ι × ω → List ε) (hs : ∀ s k, (big s k).1 = final step s (expand k))
    (hv : ∀ s k, view (k, (big s k).2) = (log step s (expand k)).flatMap peek) (s : σ)
    (ks : List κ) :
    (log big s ks).flatMap view = (log step s (ks.flatMap expand)).flatMap peek := by
  induction ks generalizing s with
  | nil => rfl
  | cons k ks ih =>
    rw [log_cons, flatMap_cons, hv, ih, flatMap_cons, log_append, flatMap_append,
      hs]

lemma filter_log_filter {keep see : ι → Bool} (R : σ → σ → Prop)
    (hkeep : ∀ s t i, R s t → keep i = true → R (step s i).1 (step t i).1 ∧
      (see i = true → (step s i).2 = (step t i).2))
    (hdrop : ∀ s t i, R s t → keep i = false → see i = false ∧ R (step s i).1 t) :
    ∀ (is : List ι) (s t : σ), R s t → (log step s is).filter (fun x => see x.1) =
      (log step t (is.filter keep)).filter fun x => see x.1
  | [], _, _, _ => rfl
  | i :: is, s, t, h => by
    cases hk : keep i with
    | true =>
      obtain ⟨hrel, hans⟩ := hkeep s t i h hk
      have ih := filter_log_filter R hkeep hdrop is _ _ hrel
      simp only [filter_cons, hk, if_true, log_cons]
      cases hs : see i with
      | true => simp only [if_true, ih, hans hs]
      | false => simpa only [Bool.false_eq_true, if_false] using ih
    | false =>
      obtain ⟨hs, hrel⟩ := hdrop s t i h hk
      simp only [filter_cons, hk, hs, log_cons, Bool.false_eq_true, if_false]
      exact filter_log_filter R hkeep hdrop is _ _ hrel

/-! ## Two machines in lockstep -/

section

variable {τ γ : Type*} (note : γ → ι → γ) (Ok : γ → ι → Prop)

/-- Every input meets `Ok`, given what `note` kept of the inputs before it. -/
def Throughout : γ → List ι → Prop
  | _, [] => True
  | g, i :: is => Ok g i ∧ Throughout (note g i) is

instance decidableThroughout [∀ g i, Decidable (Ok g i)] :
    ∀ (g : γ) (is : List ι), Decidable (Throughout note Ok g is)
  | _, [] => .isTrue trivial
  | g, i :: is =>
    haveI := decidableThroughout (note g i) is
    inferInstanceAs (Decidable (Ok g i ∧ Throughout note Ok (note g i) is))

variable {note Ok}

lemma log_eq_log_iff {step' : τ → ι → τ × ω} (R : γ → List ι → σ → τ → Prop)
    (hans : ∀ g i is s t, R g (i :: is) s t → ((step s i).2 = (step' t i).2 ↔ Ok g i))
    (hrel : ∀ g i is s t, R g (i :: is) s t → Ok g i → R (note g i) is (step s i).1 (step' t i).1) :
    ∀ (is : List ι) (g : γ) (s : σ) (t : τ), R g is s t →
      (log step s is = log step' t is ↔ Throughout note Ok g is)
  | [], _, _, _, _ => iff_of_true rfl trivial
  | i :: is, g, s, t, h => by
    have hi := hans g i is s t h
    rw [log_cons, log_cons, cons.injEq, Prod.mk.injEq]
    constructor
    · rintro ⟨⟨-, ha⟩, hrest⟩
      have hok := hi.mp ha
      exact ⟨hok, (log_eq_log_iff R hans hrel is _ _ _ (hrel g i is s t h hok)).mp hrest⟩
    · rintro ⟨hok, hrest⟩
      exact ⟨⟨rfl, hi.mpr hok⟩,
        (log_eq_log_iff R hans hrel is _ _ _ (hrel g i is s t h hok)).mpr hrest⟩

end

lemma forall_log_iff {Fine : ω → Prop} {Ok : σ → ι → Prop} (P : σ → Prop)
    (hans : ∀ s i, P s → (Fine (step s i).2 ↔ Ok s i))
    (hinv : ∀ s i, P s → Ok s i → P (step s i).1) :
    ∀ (is : List ι) (s : σ), P s →
      ((∀ x ∈ log step s is, Fine x.2) ↔ Throughout (fun s i => (step s i).1) Ok s is)
  | [], _, _ => iff_of_true (fun _ h => nomatch h) trivial
  | i :: is, s, hs => by
    rw [log_cons, forall_mem_cons, hans s i hs]
    constructor
    · rintro ⟨hok, hrest⟩
      exact ⟨hok, (forall_log_iff P hans hinv is _ (hinv s i hs hok)).mp hrest⟩
    · rintro ⟨hok, hrest⟩
      exact ⟨hok, (forall_log_iff P hans hinv is _ (hinv s i hs hok)).mpr hrest⟩

end Wtg.Lib.Runs
