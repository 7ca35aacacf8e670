import Mathlib.Data.List.Basic

/-! # Followers of a log

A value is set by the events of a log: an event gives it a new value (`read e = some x`) or does not
concern it (`read e = none`). A follower holds a copy, and is given the events in order. -/

namespace Wtg.Lib.Follower

open List

variable {ε σ : Type*} (read : ε → Option σ)

def settle (x : σ) (events : List ε) : σ := events.foldl (fun x e => (read e).getD x) x

@[simp] lemma settle_nil (x : σ) : settle read x [] = x := rfl

@[simp] lemma settle_cons (x : σ) (e : ε) (es : List ε) :
    settle read x (e :: es) = settle read ((read e).getD x) es := rfl

lemma settle_append (x : σ) (es fs : List ε) :
    settle read x (es ++ fs) = settle read (settle read x es) fs := foldl_append

variable {read}

lemma settle_idle : ∀ {es : List ε} (x : σ), (∀ e ∈ es, read e = none) → settle read x es = x
  | [], _, _ => rfl
  | e :: es, x, h => by
    rw [settle_cons, h e mem_cons_self, Option.getD_none]
    exact settle_idle x fun e' he' => h e' (mem_cons_of_mem e he')

lemma settle_mem : ∀ (es : List ε) (x : σ),
    settle read x es = x ∨ ∃ e ∈ es, read e = some (settle read x es)
  | [], _ => .inl rfl
  | e :: es, x => by
    rw [settle_cons]
    rcases settle_mem es ((read e).getD x) with h | ⟨e', he', h⟩
    · rw [h]
      rcases hr : read e with _ | y
      · exact .inl rfl
      · exact .inr ⟨e, mem_cons_self, hr⟩
    · exact .inr ⟨e', mem_cons_of_mem e he', h⟩

lemma settle_take_idle {x : σ} {es : List ε} {k n : ℕ} (hkn : k ≤ n)
    (hidle : ∀ e ∈ (es.take n).drop k, read e = none) :
    settle read x (es.take n) = settle read x (es.take k) := by
  have hsplit : es.take n = es.take k ++ (es.take n).drop k := by
    have h := (take_append_drop k (es.take n)).symm
    rwa [take_take, Nat.min_eq_left hkn] at h
  rw [hsplit, settle_append, settle_idle _ hidle]

lemma settle_filter {q : ε → Bool} (hq : ∀ e, q e = false → read e = none) :
    ∀ (es : List ε) (x : σ), settle read x (es.filter q) = settle read x es
  | [], _ => rfl
  | e :: es, x => by
    rcases he : q e with _ | _
    · rw [filter_cons_of_neg (by simp [he]), settle_cons, hq e he, Option.getD_none,
        settle_filter hq es]
    · rw [filter_cons_of_pos he, settle_cons, settle_cons, settle_filter hq es]

/-- A fold whose every step is seen as the event says. -/
lemma view_foldl {τ : Type*} {f : τ → ε → τ} {view : τ → σ} : ∀ {es : List ε} (t : τ),
    (∀ e ∈ es, ∀ t, view (f t e) = (read e).getD (view t)) →
      view (es.foldl f t) = settle read (view t) es
  | [], _, _ => rfl
  | e :: es, t, h => by
    rw [foldl_cons, settle_cons, ← h e mem_cons_self]
    exact view_foldl _ fun e' he' => h e' (mem_cons_of_mem e he')

lemma settle_map {τ : Type*} {read' : ε → Option τ} (f : σ → τ) {es : List ε} (x : σ)
    (h : ∀ e ∈ es, read' e = (read e).map f) : settle read' (f x) es = f (settle read x es) := by
  refine (view_foldl x fun e he y => ?_).symm
  rw [h e he]
  rcases read e with _ | z <;> rfl

variable (read) in
/-- **A follower given `n` events** holds the value of some revision from `n` on. -/
def Follows (x₀ : σ) (events : List ε) (n : ℕ) (x : σ) : Prop :=
  ∃ m, n ≤ m ∧ m ≤ events.length ∧ x = settle read x₀ (events.take m)

namespace Follows

variable {x₀ x : σ} {es : List ε} {n : ℕ}

lemma start (x₀ : σ) (es : List ε) : Follows read x₀ es es.length (settle read x₀ es) :=
  ⟨es.length, Nat.le_refl _, Nat.le_refl _, by rw [take_length]⟩

lemma grow (h : Follows read x₀ es n x) (fs : List ε) : Follows read x₀ (es ++ fs) n x := by
  obtain ⟨m, hn, hm, rfl⟩ := h
  refine ⟨m, hn, ?_, ?_⟩
  · rw [length_append]
    omega
  · rw [take_append_of_le_length hm]

lemma deliver (h : Follows read x₀ es n x) {e : ε} (he : es[n]? = some e) :
    Follows read x₀ es (n + 1) ((read e).getD x) := by
  obtain ⟨m, hn, hm, rfl⟩ := h
  have hlt : n < es.length := (List.getElem?_eq_some_iff.mp he).1
  have hnext : settle read x₀ (es.take (n + 1)) = (read e).getD (settle read x₀ (es.take n)) := by
    rw [List.take_add_one, he, settle_append]
    rfl
  rcases hr : read e with _ | y
  · -- an event that does not concern the value
    rw [hr] at hnext
    rcases Nat.eq_or_lt_of_le hn with rfl | hlater
    · exact ⟨n + 1, Nat.le_refl _, hlt, hnext.symm⟩
    · exact ⟨m, hlater, hm, rfl⟩
  · rw [hr] at hnext
    exact ⟨n + 1, Nat.le_refl _, hlt, hnext.symm⟩

lemma deliverAll : ∀ {batch : List ε} {n : ℕ} {x : σ}, Follows read x₀ es n x →
    (∃ rest, es.drop n = batch ++ rest) →
      Follows read x₀ es (n + batch.length) (settle read x batch)
  | [], _, _, h, _ => h
  | e :: batch, n, x, h, ⟨rest, hrest⟩ => by
    have he : es[n]? = some e := by
      rw [← head?_drop, hrest]
      rfl
    have htail : es.drop (n + 1) = batch ++ rest := by
      rw [← tail_drop, hrest]
      rfl
    have ih := deliverAll (h.deliver he) ⟨rest, htail⟩
    rw [length_cons, settle_cons, show n + (batch.length + 1) = n + 1 + batch.length by omega]
    exact ih

lemma deliverNext (h : Follows read x₀ es n x) {k : ℕ} (hk : n + k ≤ es.length) :
    Follows read x₀ es (n + k) (settle read x ((es.drop n).take k)) := by
  have hlen : ((es.drop n).take k).length = k := by
    rw [length_take, length_drop]
    omega
  have hall := h.deliverAll ⟨(es.drop n).drop k, (take_append_drop k _).symm⟩
  rwa [hlen] at hall

lemma writeThrough {k : ℕ} (hn : n ≤ es.length) (hk : k ≤ es.length)
    (hidle : ∀ e ∈ (es.take n).drop k, read e = none) :
    Follows read x₀ es n (settle read x₀ (es.take k)) := by
  rcases Nat.le_total n k with hnk | hkn
  · exact ⟨k, hnk, hk, rfl⟩
  · exact ⟨n, Nat.le_refl _, hn, (settle_take_idle hkn hidle).symm⟩

lemma caughtUp (h : Follows read x₀ es es.length x) : x = settle read x₀ es := by
  obtain ⟨m, hn, hm, rfl⟩ := h
  rw [Nat.le_antisymm hm hn, take_length]

lemma skip (h : Follows read x₀ es n x) (hidle : ∀ e ∈ es.drop n, read e = none) :
    Follows read x₀ es es.length x := by
  obtain ⟨m, hn, hm, rfl⟩ := h
  have hrest : ∀ e ∈ (es.take es.length).drop m, read e = none := by
    intro e he
    rw [take_length] at he
    refine hidle e (?_ : e ∈ es.drop n)
    have hsub : es.drop m = (es.drop n).drop (m - n) := by
      rw [drop_drop, show n + (m - n) = m by omega]
    rw [hsub] at he
    exact mem_of_mem_drop he
  exact ⟨es.length, Nat.le_refl _, Nat.le_refl _, (settle_take_idle hm hrest).symm⟩

end Follows

end Wtg.Lib.Follower
