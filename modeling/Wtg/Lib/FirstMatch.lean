import Mathlib.Data.List.Perm.Basic

/-! # First matches when the order is open

A search goes through levels. -/

namespace Wtg.Lib.FirstMatch

open List Option

variable {ω μ ν : Type*}

/-- Entries that compete by the order of their names, and the value without any. -/
structure Pool (ω μ : Type*) where
  entry : ω → Option μ
  otherwise : μ

/-- The entry of the first name that has one. -/
def Pool.pick (p : Pool ω μ) (ws : List ω) : μ := (ws.findSome? p.entry).getD p.otherwise

/-- `m` is the entry of the name `x` of `ws`, or, with `x = none`, the value without entries. -/
def Pool.Offers (p : Pool ω μ) (ws : List ω) (x : Option ω) (m : μ) : Prop :=
  match x with
  | some w => w ∈ ws ∧ p.entry w = some m
  | none => (∀ w ∈ ws, p.entry w = none) ∧ m = p.otherwise

def Pool.Lacks (p : Pool ω μ) (x : Option ω) : Prop := ∀ w ∈ x, p.entry w = none

variable {p : Pool ω μ} {q : Pool ω ν} {ws ws' : List ω} {w : ω} {x : Option ω} {m : μ} {n : ν}

lemma Pool.pick_cons_some (h : p.entry w = some m) : p.pick (w :: ws) = m := by
  rw [Pool.pick, findSome?_cons, h]
  rfl

lemma Pool.pick_cons_none (h : p.entry w = none) : p.pick (w :: ws) = p.pick ws := by
  rw [Pool.pick, findSome?_cons, h]
  rfl

lemma Pool.pick_of_forall (h : ∀ w ∈ ws, p.entry w = none) : p.pick ws = p.otherwise := by
  rw [Pool.pick, findSome?_eq_none_iff.mpr h]
  rfl

lemma Pool.Offers.perm (h : p.Offers ws x m) (hw : ws' ~ ws) : p.Offers ws' x m := by
  rcases x with _ | w
  · exact ⟨fun w hmem => h.1 w (hw.mem_iff.mp hmem), h.2⟩
  · exact ⟨hw.mem_iff.mpr h.1, h.2⟩

lemma Pool.Offers.cons (h : p.Offers ws x m) (hw : p.entry w = none) :
    p.Offers (w :: ws) x m := by
  rcases x with _ | v
  · exact ⟨forall_mem_cons.mpr ⟨hw, h.1⟩, h.2⟩
  · exact ⟨mem_cons_of_mem _ h.1, h.2⟩

lemma Pool.offers_pick (p : Pool ω μ) : ∀ ws : List ω, ∃ x, p.Offers ws x (p.pick ws)
  | [] => ⟨none, by simp, rfl⟩
  | w :: ws => by
    rcases h : p.entry w with _ | m
    · obtain ⟨x, hx⟩ := p.offers_pick ws
      exact ⟨x, (Pool.pick_cons_none h).symm ▸ hx.cons h⟩
    · exact ⟨some w, mem_cons_self, (Pool.pick_cons_some h).symm ▸ h⟩

/-- **Values two picks can return together**: each is on offer, and one of the two names does not
stand in the way of the other. -/
def Selectable (p : Pool ω μ) (q : Pool ω ν) (ws : List ω) (m : μ) (n : ν) : Prop :=
  ∃ x y, p.Offers ws x m ∧ q.Offers ws y n ∧ (x = y ∨ q.Lacks x ∨ p.Lacks y)

lemma Selectable.perm (h : Selectable p q ws m n) (hw : ws' ~ ws) : Selectable p q ws' m n := by
  obtain ⟨x, y, hx, hy, hxy⟩ := h
  exact ⟨x, y, hx.perm hw, hy.perm hw, hxy⟩

lemma selectable_picks (p : Pool ω μ) (q : Pool ω ν) :
    ∀ ws : List ω, Selectable p q ws (p.pick ws) (q.pick ws)
  | [] => ⟨none, none, ⟨by simp, rfl⟩, ⟨by simp, rfl⟩, .inl rfl⟩
  | w :: ws => by
    -- the first name with an entry in either pool decides
    rcases hp : p.entry w with _ | m <;> rcases hq : q.entry w with _ | n
    · obtain ⟨x, y, hx, hy, hxy⟩ := selectable_picks p q ws
      rw [Pool.pick_cons_none hp, Pool.pick_cons_none hq]
      exact ⟨x, y, hx.cons hp, hy.cons hq, hxy⟩
    · obtain ⟨x, hx⟩ := p.offers_pick (w :: ws)
      rw [Pool.pick_cons_some hq]
      refine ⟨x, some w, hx, ⟨mem_cons_self, hq⟩, .inr (.inr ?_)⟩
      simpa [Pool.Lacks] using hp
    · obtain ⟨y, hy⟩ := q.offers_pick (w :: ws)
      rw [Pool.pick_cons_some hp]
      refine ⟨some w, y, ⟨mem_cons_self, hp⟩, hy, .inr (.inl ?_)⟩
      simpa [Pool.Lacks] using hq
    · rw [Pool.pick_cons_some hp, Pool.pick_cons_some hq]
      exact ⟨some w, some w, ⟨mem_cons_self, hp⟩, ⟨mem_cons_self, hq⟩, .inl rfl⟩

lemma exists_perm_cons (h : w ∈ ws) : ∃ vs, w :: vs ~ ws := by
  obtain ⟨s, t, rfl⟩ := append_of_mem h
  exact ⟨s ++ t, perm_middle.symm⟩

lemma Pool.Offers.exists_pick (h : p.Offers ws x m) : ∃ ws', ws' ~ ws ∧ p.pick ws' = m := by
  rcases x with _ | w
  · exact ⟨ws, .refl _, (Pool.pick_of_forall h.1).trans h.2.symm⟩
  · obtain ⟨vs, hvs⟩ := exists_perm_cons h.1
    exact ⟨w :: vs, hvs, Pool.pick_cons_some h.2⟩

lemma exists_order_of_lacks {y : Option ω} (hx : p.Offers ws x m) (hy : q.Offers ws y n)
    (hl : q.Lacks x) : ∃ ws', ws' ~ ws ∧ p.pick ws' = m ∧ q.pick ws' = n := by
  rcases x with _ | w
  · obtain ⟨ws', hw, hpick⟩ := hy.exists_pick
    exact ⟨ws', hw, (Pool.pick_of_forall (hx.perm hw).1).trans hx.2.symm, hpick⟩
  have hqw : q.entry w = none := hl w rfl
  obtain ⟨vs, hvs⟩ := exists_perm_cons hx.1
  have hy' : q.Offers vs y n := by
    have h := hy.perm hvs
    rcases y with _ | v
    · exact ⟨fun u hu => h.1 u (mem_cons_of_mem _ hu), h.2⟩
    · refine ⟨(mem_cons.mp h.1).resolve_left fun e => ?_, h.2⟩
      have hv : q.entry v = some n := h.2
      rw [e, hqw] at hv
      exact absurd hv (by simp)
  obtain ⟨us, hus, hpick⟩ := hy'.exists_pick
  exact ⟨w :: us, (hus.cons w).trans hvs, Pool.pick_cons_some hx.2,
    (Pool.pick_cons_none hqw).trans hpick⟩

lemma selectable_iff :
    Selectable p q ws m n ↔ ∃ ws', ws' ~ ws ∧ p.pick ws' = m ∧ q.pick ws' = n := by
  constructor
  · rintro ⟨x, y, hx, hy, rfl | hl | hl⟩
    · rcases x with _ | w
      · exact ⟨ws, .refl _, (Pool.pick_of_forall hx.1).trans hx.2.symm,
          (Pool.pick_of_forall hy.1).trans hy.2.symm⟩
      · obtain ⟨vs, hvs⟩ := exists_perm_cons hx.1
        exact ⟨w :: vs, hvs, Pool.pick_cons_some hx.2, Pool.pick_cons_some hy.2⟩
    · exact exists_order_of_lacks hx hy hl
    · obtain ⟨ws', hw, hq, hp⟩ := exists_order_of_lacks hy hx hl
      exact ⟨ws', hw, hp, hq⟩
  · rintro ⟨ws', hw, rfl, rfl⟩
    exact (selectable_picks p q ws').perm hw.symm

/-- A level: the entries by name, and the fallback tried after them. -/
structure Level (ω μ : Type*) where
  entry : ω → Option μ
  fallback : Option μ

def Level.find (l : Level ω μ) (ws : List ω) : Option μ := (ws.findSome? l.entry).or l.fallback

def search (ls : List (Level ω μ)) (ws : List ω) : Option μ := ls.findSome? fun l => l.find ws

/-- The entries that compete for the answer: those of the first level that has any for `ws`, unless
a fallback comes before. -/
def deciding (d : μ) : List (Level ω μ) → List ω → Pool ω μ
  | [], _ => ⟨fun _ => none, d⟩
  | l :: ls, ws =>
    if ws.any fun w => (l.entry w).isSome then ⟨l.entry, d⟩
    else
      match l.fallback with
      | some m => ⟨fun _ => none, m⟩
      | none => deciding d ls ws

lemma deciding_perm (d : μ) (hw : ws' ~ ws) :
    ∀ ls : List (Level ω μ), deciding d ls ws' = deciding d ls ws
  | [] => rfl
  | l :: ls => by
    simp only [deciding, hw.any_eq, deciding_perm d hw ls]

lemma findSome_const_none (ws : List ω) : ws.findSome? (fun _ => (none : Option μ)) = none :=
  findSome?_eq_none_iff.mpr fun _ _ => rfl

lemma search_eq_pick (d : μ) (ws : List ω) :
    ∀ ls : List (Level ω μ), (search ls ws).getD d = (deciding d ls ws).pick ws
  | [] => by simp [search, deciding, Pool.pick, findSome_const_none]
  | l :: ls => by
    have ih := search_eq_pick d ws ls
    rw [search] at ih ⊢
    rw [findSome?_cons, deciding, Level.find]
    by_cases h : (ws.any fun w => (l.entry w).isSome) = true
    · rw [if_pos h]
      obtain ⟨w, hmem, hsome⟩ := any_eq_true.mp h
      obtain ⟨m, hm⟩ : ∃ m, ws.findSome? l.entry = some m :=
        isSome_iff_exists.mp (findSome?_isSome_iff.mpr ⟨w, hmem, hsome⟩)
      rw [Pool.pick, hm]
      rfl
    · rw [if_neg h]
      have hnone : ws.findSome? l.entry = none := by
        simpa using h
      rw [hnone, none_or]
      rcases l.fallback with _ | m
      · exact ih
      · simp [Pool.pick, findSome_const_none]

lemma selectable_searches (d : μ) (e : ν) (ls : List (Level ω μ)) (ks : List (Level ω ν))
    (ws : List ω) (m : μ) (n : ν) :
    Selectable (deciding d ls ws) (deciding e ks ws) ws m n ↔
      ∃ ws', ws' ~ ws ∧ (search ls ws').getD d = m ∧ (search ks ws').getD e = n := by
  rw [selectable_iff]
  refine exists_congr fun ws' => and_congr_right fun hw => ?_
  rw [search_eq_pick, search_eq_pick, deciding_perm d hw, deciding_perm e hw]

end Wtg.Lib.FirstMatch
