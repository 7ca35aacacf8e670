import Wtg.Lib.Polyline
import Wtg.Pricing.SwapCurve

/-! # Interpolated swap points lie on a polyline

The swap points of a pair, placed at the days of their tenors, are points in the plane, one set for
each component of the margin. -/

namespace Wtg.Pricing.SwapCurve

open Lib Lib.SwapSort Lib.Polyline Pricing.Table List

variable {R : Type*} {t : PricingTable R} {pair : String} {offset : ℤ}

lemma neighbours_append {above : List (Item R)} (habove : ∀ it ∈ above, offset < it.days) :
    ∀ (prev : Option (Item R)) {below : List (Item R)}, (∀ it ∈ below, it.days < offset) →
      neighbours offset prev (below ++ above) = (below.getLast?.or prev, above.head?)
  | prev, [], _ => by
    rcases above with _ | ⟨it, above⟩
    · rfl
    · have hit := habove it mem_cons_self
      simp only [nil_append, neighbours, if_neg (not_lt.mpr hit.le), if_pos hit]
      rfl
  | prev, it :: below, hbelow => by
    have hit := hbelow it mem_cons_self
    have htail : ∀ x ∈ below, x.days < offset := fun x hx =>
      hbelow x (mem_cons_of_mem _ hx)
    have ih := neighbours_append habove (some it) htail
    have hgt : ¬ it.days > offset := not_lt.mpr hit.le
    rw [cons_append, neighbours]
    simp only [if_pos hit, if_neg hgt]
    rw [ih, getLast?_cons]
    rcases below.getLast? with _ | last <;> rfl

lemma split_at {its : List (Item R)} (hsorted : its.Pairwise fun a b => Follows b a)
    (hne : ∀ it ∈ its, it.days ≠ offset) :
    ∃ below above, its = below ++ above ∧ (∀ it ∈ below, it.days < offset) ∧
      ∀ it ∈ above, offset < it.days := by
  refine ⟨its.takeWhile (·.days < offset), its.dropWhile (·.days < offset),
    takeWhile_append_dropWhile.symm, fun it hit => ?_, ?_⟩
  · simpa using mem_takeWhile_imp hit
  · intro it hit
    rcases hdrop : its.dropWhile (·.days < offset) with _ | ⟨first, rest⟩
    · rw [hdrop] at hit
      exact absurd hit (by simp)
    have hsub : (first :: rest).Sublist its := hdrop ▸ dropWhile_sublist _
    have hfirst : offset < first.days := by
      have hnot : ¬ first.days < offset := by
        have h := head?_dropWhile_not (fun it : Item R => decide (it.days < offset)) its
        rw [hdrop] at h
        simpa using h
      have := hne first (hsub.subset mem_cons_self)
      omega
    have hrest := (pairwise_cons.mp (hsorted.sublist hsub)).1
    rw [hdrop] at hit
    rcases mem_cons.mp hit with rfl | hit
    · exact hfirst
    · exact lt_of_lt_of_le hfirst (hrest it hit)

variable {below above : List (Item R)}

lemma none_between {prev next : Item R}
    (hsorted : (below ++ [prev] ++ next :: above).Pairwise fun a b => Follows b a) :
    ∀ it ∈ below ++ [prev] ++ next :: above, it.days ≤ prev.days ∨ next.days ≤ it.days := by
  obtain ⟨hleft, hright, -⟩ := pairwise_append.mp hsorted
  intro it hit
  rcases mem_append.mp hit with hit | hit
  · left
    rcases mem_append.mp hit with hit | hit
    · exact (pairwise_append.mp hleft).2.2 it hit prev mem_cons_self
    · rw [mem_singleton.mp hit]
  · right
    rcases mem_cons.mp hit with rfl | hit
    · exact le_rfl
    · exact (pairwise_cons.mp hright).1 it hit

/-- The pair has the swap point `m` at the day `d`. -/
def PointAt (t : PricingTable R) (pair : String) (d : ℤ) (m : Margin R) : Prop :=
  ∃ tenor, t.swapPoint.lookup ⟨pair, tenor⟩ = some m ∧ defaultTenorDays.lookup tenor = some d

lemma pointAt_iff {d : ℤ} {m : Margin R} :
    PointAt t pair d m ↔ ∃ it ∈ items t.swapPoint pair, it.days = d ∧ it.m = m := by
  constructor
  · rintro ⟨tenor, hm, hd⟩
    exact ⟨⟨tenor, d, m⟩, mem_items.mpr ⟨hm, hd⟩, rfl, rfl⟩
  · rintro ⟨it, hit, rfl, rfl⟩
    exact ⟨it.tenor, mem_items.mp hit⟩

def KnownDay (t : PricingTable R) (pair : String) (d : ℤ) : Prop := ∃ m, PointAt t pair d m

lemma knownDay_iff {d : ℤ} : KnownDay t pair d ↔ ∃ it ∈ items t.swapPoint pair, it.days = d := by
  constructor
  · rintro ⟨m, hm⟩
    obtain ⟨it, hit, hdays, -⟩ := pointAt_iff.mp hm
    exact ⟨it, hit, hdays⟩
  · rintro ⟨it, hit, hdays⟩
    exact ⟨it.m, pointAt_iff.mpr ⟨it, hit, hdays, rfl⟩⟩

lemma knownDay_of_mem {it : Item R} (hit : it ∈ items t.swapPoint pair) :
    KnownDay t pair it.days := knownDay_iff.mpr ⟨it, hit, rfl⟩

/-! ## The cases of an interpolation -/

section

variable [Zero R] [Add R] [Sub R] [Mul R] [Div R] [IntCast R]

def between (offset : ℤ) (prev next : Item R) : SwapInterpolation R :=
  let w : R := ((offset - prev.days : ℤ) : R) / ((next.days - prev.days : ℤ) : R)
  ⟨lerpMargin w prev.m next.m, prev.tenor, next.tenor, prev.days, next.days, offset, w, false⟩

lemma interpolate_exact {its : List (Item R)} {it : Item R}
    (h : its.find? (fun it => it.days = offset) = some it) :
    interpolate offset its = .ok ⟨it.m, it.tenor, it.tenor, it.days, it.days, offset, 0, true⟩ := by
  rw [interpolate, h]

lemma interpolate_split (hbelow : ∀ it ∈ below, it.days < offset)
    (habove : ∀ it ∈ above, offset < it.days) :
    interpolate offset (below ++ above) =
      match below.getLast?, above.head? with
      | some prev, some next => .ok (between offset prev next)
      | _, _ => .error (.outOfRange, .empty offset) := by
  have hnone : (below ++ above).find? (fun it => it.days = offset) = none := by
    refine find?_eq_none.mpr fun it hit => ?_
    rw [decide_eq_true_eq]
    rcases mem_append.mp hit with hit | hit
    · exact (hbelow it hit).ne
    · exact (habove it hit).ne'
  rw [interpolate, hnone, neighbours_append habove none hbelow, Option.or_none]
  rcases below.getLast? with _ | prev <;> rcases above.head? with _ | next <;> rfl

variable (t : PricingTable R) (pair : String) (offset : ℤ)

/-- What an interpolation returns. -/
inductive Interpolated : Except (SwapErr × SwapInterpolation R) (SwapInterpolation R) → Prop
  | noSwap (h : ∀ d, ¬ KnownDay t pair d) : Interpolated (.error (.noSwap, .empty 0))
  | onPoint {it : Item R} (hit : it ∈ items t.swapPoint pair) (hdays : it.days = offset) :
      Interpolated (.ok ⟨it.m, it.tenor, it.tenor, it.days, it.days, offset, 0, true⟩)
  | between {prev next : Item R} (hprev : prev ∈ items t.swapPoint pair)
      (hnext : next ∈ items t.swapPoint pair) (hlo : prev.days < offset) (hhi : offset < next.days)
      (hnone : ∀ it ∈ items t.swapPoint pair, it.days ≤ prev.days ∨ next.days ≤ it.days) :
      Interpolated (.ok (between offset prev next))
  | outside (hsome : ∃ d, KnownDay t pair d)
      (hside : (∀ d, KnownDay t pair d → offset < d) ∨ ∀ d, KnownDay t pair d → d < offset) :
      Interpolated (.error (.outOfRange, .empty offset))

lemma interpolated : Interpolated t pair offset (interpolateSwap t pair offset) := by
  by_cases hempty : items t.swapPoint pair = []
  · have hres : interpolateSwap t pair offset = .error (.noSwap, .empty 0) := by
      simp [interpolateSwap, hempty]
    rw [hres]
    exact .noSwap fun d hd => by simp [knownDay_iff, hempty] at hd
  have hlength : (items t.swapPoint pair).length ≠ 0 := by simpa using hempty
  have hsome : ∃ d, KnownDay t pair d := by
    obtain ⟨it, hit⟩ := exists_mem_of_ne_nil _ hempty
    exact ⟨_, knownDay_of_mem hit⟩
  have hsorted := pairwise_swapSort Follows (items t.swapPoint pair)
  have hmem : ∀ {it}, it ∈ swapSort Follows (items t.swapPoint pair) ↔
      it ∈ items t.swapPoint pair := (perm_swapSort Follows _).mem_iff
  simp only [interpolateSwap, if_neg hlength]
  generalize swapSort Follows (items t.swapPoint pair) = its at hsorted hmem
  rcases hfind : its.find? fun it => it.days = offset with _ | it
  · have hne : ∀ it ∈ its, it.days ≠ offset := by simpa using find?_eq_none.mp hfind
    obtain ⟨below, above, rfl, hbelow, habove⟩ := split_at hsorted hne
    rw [interpolate_split hbelow habove]
    rcases eq_nil_or_concat' below with rfl | ⟨below, prev, rfl⟩
    · refine .outside hsome (.inl fun d hd => ?_)
      obtain ⟨it, hit, rfl⟩ := knownDay_iff.mp hd
      exact habove it (hmem.mpr hit)
    rw [getLast?_concat]
    rcases above with _ | ⟨next, above⟩
    · refine .outside hsome (.inr fun d hd => ?_)
      obtain ⟨it, hit, rfl⟩ := knownDay_iff.mp hd
      refine hbelow it ?_
      rw [← append_nil (below ++ [prev])]
      exact hmem.mpr hit
    · have hprev : prev ∈ below ++ [prev] := mem_append_right _ mem_cons_self
      exact .between (hmem.mp (mem_append_left _ hprev))
        (hmem.mp (mem_append_right _ mem_cons_self)) (hbelow prev hprev) (habove next mem_cons_self)
        fun it hit => none_between hsorted it (hmem.mpr hit)
  · have hdays : it.days = offset := by simpa using find?_some hfind
    rw [interpolate_exact hfind]
    exact .onPoint (hmem.mp (mem_of_find?_eq_some hfind)) hdays

lemma interpolateSwap_noSwap_iff :
    (∃ i, interpolateSwap t pair offset = .error (.noSwap, i)) ↔ ∀ d, ¬ KnownDay t pair d := by
  have h := interpolated t pair offset
  generalize interpolateSwap t pair offset = r at h
  cases h with
  | noSwap h => exact iff_of_true ⟨_, rfl⟩ h
  | onPoint hit _ => exact iff_of_false (by simp) fun h => h _ (knownDay_of_mem hit)
  | between hprev _ _ _ _ => exact iff_of_false (by simp) fun h => h _ (knownDay_of_mem hprev)
  | outside hsome _ => exact iff_of_false (by simp) fun h => hsome.elim h

lemma interpolateSwap_outOfRange_iff :
    (∃ i, interpolateSwap t pair offset = .error (.outOfRange, i)) ↔
      (∃ d, KnownDay t pair d) ∧
        ((∀ d, KnownDay t pair d → offset < d) ∨ ∀ d, KnownDay t pair d → d < offset) := by
  have h := interpolated t pair offset
  generalize interpolateSwap t pair offset = r at h
  cases h with
  | noSwap h => exact iff_of_false (by simp) fun hr => hr.1.elim h
  | onPoint hit hdays =>
    refine iff_of_false (by simp) ?_
    rintro ⟨-, h | h⟩
    · exact (h _ (knownDay_of_mem hit)).ne' hdays
    · exact (h _ (knownDay_of_mem hit)).ne hdays
  | between hprev hnext hlo hhi _ =>
    refine iff_of_false (by simp) ?_
    rintro ⟨-, h | h⟩
    · exact hlo.asymm (h _ (knownDay_of_mem hprev))
    · exact hhi.asymm (h _ (knownDay_of_mem hnext))
  | outside hsome hside => exact iff_of_true ⟨_, rfl⟩ ⟨hsome, hside⟩

end

def components : List (Margin ℚ → ℚ) :=
  [Margin.bidAmount, Margin.askAmount, Margin.skewAmount, Margin.spreadAmount]

variable {m n : Margin ℚ}

lemma Margin.ext_components (h : ∀ c ∈ components, c m = c n) : m = n := by
  obtain ⟨_, _, _, _⟩ := m
  obtain ⟨_, _, _, _⟩ := n
  simpa [components] using h

def points (t : PricingTable ℚ) (pair : String) (c : Margin ℚ → ℚ) : Set (ℚ × ℚ) :=
  {p | ∃ d m, PointAt t pair d m ∧ p = ((d : ℚ), c m)}

/-- The curve is in each component a polyline through the points. -/
def IsCurve (t : PricingTable ℚ) (pair : String) (curve : ℚ → Margin ℚ) : Prop :=
  ∀ c ∈ components, IsPolyline (points t pair c) fun x => c (curve x)

lemma points_injective (t : PricingTable ℚ) (pair : String) (c : Margin ℚ → ℚ) :
    ∀ r ∈ points t pair c, ∀ s ∈ points t pair c, r.1 = s.1 → r = s := by
  rintro _ ⟨d, m, hm, rfl⟩ _ ⟨e, n, hn, rfl⟩ hde
  obtain rfl : d = e := Int.cast_injective hde
  obtain ⟨it, hit, hdays, rfl⟩ := pointAt_iff.mp hm
  obtain ⟨it', hit', hdays', rfl⟩ := pointAt_iff.mp hn
  rw [items_days hit hit' (hdays.trans hdays'.symm)]

lemma exists_isCurve (t : PricingTable ℚ) (pair : String) : ∃ curve, IsCurve t pair curve := by
  have h := fun c => exists_isPolyline (points t pair c) (points_injective t pair c)
  obtain ⟨bid, hbid⟩ := h Margin.bidAmount
  obtain ⟨ask, hask⟩ := h Margin.askAmount
  obtain ⟨skew, hskew⟩ := h Margin.skewAmount
  obtain ⟨spread, hspread⟩ := h Margin.spreadAmount
  refine ⟨fun x => ⟨bid x, ask x, skew x, spread x⟩, ?_⟩
  simp only [IsCurve, components, forall_mem_cons]
  exact ⟨hbid, hask, hskew, hspread, forall_mem_nil _⟩

variable {lo hi : ℤ}

lemma neighbours_of_pointAt {t : PricingTable ℚ} (hm : PointAt t pair lo m)
    (hn : PointAt t pair hi n) (hlt : lo < hi)
    (hnone : ∀ d k, PointAt t pair d k → d ≤ lo ∨ hi ≤ d) (c : Margin ℚ → ℚ) :
    Neighbours (points t pair c) ((lo : ℚ), c m) ((hi : ℚ), c n) := by
  refine ⟨⟨lo, m, hm, rfl⟩, ⟨hi, n, hn, rfl⟩, Int.cast_lt.mpr hlt, ?_⟩
  rintro _ ⟨d, k, hk, rfl⟩ hleft hright
  have hlo : lo < d := Int.cast_lt.mp hleft
  have hhi : d < hi := Int.cast_lt.mp hright
  rcases hnone d k hk with h | h <;> omega

lemma lerp_eq_chord (offset lo hi : ℤ) (a b : ℚ) :
    lerp (((offset - lo : ℤ) : ℚ) / ((hi - lo : ℤ) : ℚ)) a b =
      chord ((lo : ℚ), a) ((hi : ℚ), b) offset := by
  rw [lerp, chord]
  push_cast
  rfl

variable {curve : ℚ → Margin ℚ}

lemma IsCurve.at_point {t : PricingTable ℚ} (h : IsCurve t pair curve) {d : ℤ} {m : Margin ℚ}
    (hm : PointAt t pair d m) : curve d = m :=
  Margin.ext_components fun c hc => (h c hc).through _ ⟨d, m, hm, rfl⟩

lemma component_between {c : Margin ℚ → ℚ} (hc : c ∈ components) (prev next : Item ℚ) :
    c (between offset prev next).margin =
      chord ((prev.days : ℚ), c prev.m) ((next.days : ℚ), c next.m) offset := by
  rw [← lerp_eq_chord]
  simp only [components, mem_cons, not_mem_nil, or_false] at hc
  rcases hc with rfl | rfl | rfl | rfl <;> rfl

lemma IsCurve.between_eq {t : PricingTable ℚ} (h : IsCurve t pair curve) {prev next : Item ℚ}
    (hprev : prev ∈ items t.swapPoint pair) (hnext : next ∈ items t.swapPoint pair)
    (hlo : prev.days < offset) (hhi : offset < next.days)
    (hnone : ∀ it ∈ items t.swapPoint pair, it.days ≤ prev.days ∨ next.days ≤ it.days) :
    (between offset prev next).margin = curve offset := by
  have hpoint : ∀ {it}, it ∈ items t.swapPoint pair → PointAt t pair it.days it.m := fun hit =>
    pointAt_iff.mpr ⟨_, hit, rfl, rfl⟩
  have hn := neighbours_of_pointAt (hpoint hprev) (hpoint hnext) (by omega) fun d k hk => by
    obtain ⟨it, hit, rfl, rfl⟩ := pointAt_iff.mp hk
    exact hnone it hit
  have hleft : (prev.days : ℚ) < offset := Int.cast_lt.mpr hlo
  have hright : (offset : ℚ) < next.days := Int.cast_lt.mpr hhi
  refine Margin.ext_components fun c hc => ?_
  rw [component_between hc]
  exact ((h c hc).straight _ _ (hn c) _ hleft hright).symm

def Amid (a b x : ℚ) : Prop := (a ≤ x ∧ x ≤ b) ∨ (b ≤ x ∧ x ≤ a)

def Encloses (m n k : Margin ℚ) : Prop := ∀ c ∈ components, Amid (c m) (c n) (c k)

lemma IsCurve.encloses {t : PricingTable ℚ} (h : IsCurve t pair curve)
    (hm : PointAt t pair lo m) (hn : PointAt t pair hi n) (hlo : lo < offset) (hhi : offset < hi)
    (hnone : ∀ d k, PointAt t pair d k → d ≤ lo ∨ hi ≤ d) : Encloses m n (curve offset) := by
  have hneigh := neighbours_of_pointAt hm hn (by omega) hnone
  have hleft : (lo : ℚ) < offset := Int.cast_lt.mpr hlo
  have hright : (offset : ℚ) < hi := Int.cast_lt.mpr hhi
  exact fun c hc => (h c hc).between (hneigh c) hleft hright

lemma IsCurve.interpolateSwap_eq {t : PricingTable ℚ} (h : IsCurve t pair curve)
    (hlo : KnownDay t pair lo) (hhi : KnownDay t pair hi) (hle : lo ≤ offset) (hge : offset ≤ hi) :
    ∃ r, interpolateSwap t pair offset = .ok r ∧ r.margin = curve offset := by
  have hcases := interpolated t pair offset
  generalize interpolateSwap t pair offset = r at hcases
  cases hcases with
  | noSwap h => exact absurd hlo (h _)
  | onPoint hit hdays =>
    subst hdays
    exact ⟨_, rfl, (h.at_point (pointAt_iff.mpr ⟨_, hit, rfl, rfl⟩)).symm⟩
  | between hprev hnext hbelow habove hnone =>
    exact ⟨_, rfl, h.between_eq hprev hnext hbelow habove hnone⟩
  | outside _ hside =>
    rcases hside with h | h
    · exact absurd (h _ hlo) hle.not_gt
    · exact absurd (h _ hhi) hge.not_gt

/-- **Interpolation is evaluation of a polyline** through the swap points, between the first and the
last; the order of the map plays no part. -/
theorem interpolateSwap_polyline (t : PricingTable ℚ) (pair : String) :
    (∃ curve, IsCurve t pair curve) ∧
      ∀ offset : ℤ,
        ((∃ i, interpolateSwap t pair offset = .error (.noSwap, i)) ↔ ∀ d, ¬ KnownDay t pair d) ∧
        ((∃ i, interpolateSwap t pair offset = .error (.outOfRange, i)) ↔
          (∃ d, KnownDay t pair d) ∧
            ((∀ d, KnownDay t pair d → offset < d) ∨ ∀ d, KnownDay t pair d → d < offset)) ∧
        (∀ lo hi, KnownDay t pair lo → KnownDay t pair hi → lo ≤ offset → offset ≤ hi →
          ∃ r, interpolateSwap t pair offset = .ok r ∧
            (∀ curve, IsCurve t pair curve → r.margin = curve offset) ∧
            (∀ m, PointAt t pair offset m → r.margin = m) ∧
            (∀ m n, PointAt t pair lo m → PointAt t pair hi n → lo < offset → offset < hi →
              (∀ d, KnownDay t pair d → d ≤ lo ∨ hi ≤ d) → Encloses m n r.margin)) ∧
        (∀ t' : PricingTable ℚ, t'.swapPoint.entries.Perm t.swapPoint.entries →
          interpolateSwap t' pair offset = interpolateSwap t pair offset) := by
  obtain ⟨curve, hcurve⟩ := exists_isCurve t pair
  refine ⟨⟨curve, hcurve⟩, fun offset => ⟨interpolateSwap_noSwap_iff t pair offset,
    interpolateSwap_outOfRange_iff t pair offset, fun lo hi hlo hhi hle hge => ?_,
    fun t' h => interpolateSwap_perm h pair offset⟩⟩
  obtain ⟨r, hr, hmargin⟩ := hcurve.interpolateSwap_eq hlo hhi hle hge
  refine ⟨r, hr, fun curve' hcurve' => ?_, fun m hm => ?_, fun m n hm hn hlt hgt hnone => ?_⟩
  · obtain ⟨r', hr', hmargin'⟩ := hcurve'.interpolateSwap_eq hlo hhi hle hge
    obtain rfl : r = r' := Except.ok.inj (hr.symm.trans hr')
    exact hmargin'
  · rw [hmargin, hcurve.at_point hm]
  · rw [hmargin]
    exact hcurve.encloses hm hn hlt hgt fun d k hk => hnone d ⟨k, hk⟩

end Wtg.Pricing.SwapCurve
