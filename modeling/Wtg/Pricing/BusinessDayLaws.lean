import Wtg.Lib.SignedCount
import Wtg.Pricing.BusinessDays

/-! # Laws of business-day arithmetic

`BusinessDaysBetweenCal` counts, on calendar dates, the business days after the one end and up to
the other: on dates it is the signed count of the business days (`between_midnight`), which is
antisymmetric and additive. -/

namespace Wtg.Pricing.BusinessDays

open Lib.SignedCount Time

variable {cal : Calendar} {a b : Time} {d e : ℤ}

def Calendar.Open (cal : Calendar) (day : ℤ) : Prop := cal.isBusinessDay day = true

instance (cal : Calendar) : DecidablePred cal.Open := fun _ =>
  inferInstanceAs (Decidable (_ = _))

lemma countBusinessDays_eq (cal : Calendar) :
    ∀ (n : ℕ) (d : ℤ), countBusinessDays cal n d = Nat.count (fun k => cal.Open (d + 1 + k)) n
  | 0, d => by rw [Nat.count_zero, countBusinessDays]; rfl
  | n + 1, d => by
    have hshift : ∀ k : ℕ, d + 1 + ((k + 1 : ℕ) : ℤ) = d + 1 + 1 + k := fun k => by omega
    rw [countBusinessDays, countBusinessDays_eq cal n (d + 1), Nat.count_succ']
    simp only [hshift, Nat.cast_zero, add_zero]
    by_cases h : cal.isBusinessDay (d + 1) = true
    · rw [if_pos h, if_pos (show cal.Open (d + 1) from h)]
      omega
    · rw [if_neg h, if_neg (show ¬ cal.Open (d + 1) from h)]
      omega

lemma countBusinessDays_toNat (cal : Calendar) (d e : ℤ) :
    countBusinessDays cal (e - d).toNat d = within cal.Open d e :=
  countBusinessDays_eq cal _ d

lemma businessDaysBetweenCal_eq (a b : Time) (cal : Calendar) :
    businessDaysBetweenCal a b cal =
      if a.nanos < b.nanos then (within cal.Open a.day b.day : ℤ)
      else if b.nanos < a.nanos then -(within cal.Open b.day a.day : ℤ) else 0 := by
  simp only [businessDaysBetweenCal, startOfDay_day, countBusinessDays_toNat]
  split_ifs <;> omega

lemma midnight_day (d : ℤ) : (midnight d).day = d := by
  simp only [midnight, day, unix]
  omega

lemma midnight_nanos_lt : (midnight d).nanos < (midnight e).nanos ↔ d < e := by
  simp only [midnight]
  omega

lemma between_midnight (cal : Calendar) (d e : ℤ) :
    businessDaysBetweenCal (midnight d) (midnight e) cal = signedCount cal.Open d e := by
  rw [businessDaysBetweenCal_eq, midnight_day, midnight_day]
  simp only [midnight_nanos_lt]
  split_ifs with hde hed
  · rw [signedCount_of_le hde.le]
  · rw [signedCount_swap, signedCount_of_le hed.le]
  · obtain rfl : d = e := by omega
    rw [signedCount_of_le le_rfl, within_of_le le_rfl]
    rfl

/-- A business day lies after the date of the one time and up to the date of the other only if the
instants are in that order too. -/
def InOrder (cal : Calendar) (a b : Time) : Prop :=
  (∀ e, a.day < e → e ≤ b.day → cal.Open e → a.nanos < b.nanos) ∧
    (∀ e, b.day < e → e ≤ a.day → cal.Open e → b.nanos < a.nanos)

/-- The laws of a distance between calendar dates, for the times of a set. -/
structure DateLaws (cal : Calendar) (times : Set Time) : Prop where
  dates : ∀ a ∈ times, ∀ b ∈ times, businessDaysBetweenCal a b cal =
    businessDaysBetweenCal (startOfDay a) (startOfDay b) cal
  antisymm : ∀ a ∈ times, ∀ b ∈ times,
    businessDaysBetweenCal a b cal = -businessDaysBetweenCal b a cal
  additive : ∀ a ∈ times, ∀ b ∈ times, ∀ c ∈ times, businessDaysBetweenCal a c cal =
    businessDaysBetweenCal a b cal + businessDaysBetweenCal b c cal

lemma between_swap (a b : Time) (cal : Calendar) :
    businessDaysBetweenCal a b cal = -businessDaysBetweenCal b a cal := by
  rw [businessDaysBetweenCal_eq, businessDaysBetweenCal_eq b a]
  split_ifs <;> omega

lemma between_startOfDay_iff (cal : Calendar) (a b : Time) :
    businessDaysBetweenCal a b cal = businessDaysBetweenCal (startOfDay a) (startOfDay b) cal ↔
      InOrder cal a b := by
  have hforward : within cal.Open a.day b.day = 0 ↔ _ := within_eq_zero_iff
  have hback : within cal.Open b.day a.day = 0 ↔ _ := within_eq_zero_iff
  have hone : within cal.Open a.day b.day = 0 ∨ within cal.Open b.day a.day = 0 := by
    rcases le_total a.day b.day with h | h
    · exact .inr (within_of_le h)
    · exact .inl (within_of_le h)
  rw [startOfDay, startOfDay, between_midnight, signedCount, businessDaysBetweenCal_eq]
  constructor
  · intro heq
    refine ⟨fun e hae heb he => ?_, fun e hbe hea he => ?_⟩
    · by_contra hlt
      have hpos : within cal.Open a.day b.day ≠ 0 := fun h => hforward.mp h e hae heb he
      rw [if_neg hlt] at heq
      split_ifs at heq <;> omega
    · by_contra hlt
      have hpos : within cal.Open b.day a.day ≠ 0 := fun h => hback.mp h e hbe hea he
      split_ifs at heq <;> omega
  · rintro ⟨hab, hba⟩
    have hab' : ¬ a.nanos < b.nanos → within cal.Open a.day b.day = 0 := fun h =>
      hforward.mpr fun e hae heb he => h (hab e hae heb he)
    have hba' : ¬ b.nanos < a.nanos → within cal.Open b.day a.day = 0 := fun h =>
      hback.mpr fun e hbe hea he => h (hba e hbe hea he)
    split_ifs with h h'
    · have := hba' (by omega)
      omega
    · have := hab' h
      omega
    · have := hab' h
      have := hba' h'
      omega

lemma dateLaws_iff (cal : Calendar) (times : Set Time) :
    DateLaws cal times ↔ ∀ a ∈ times, ∀ b ∈ times, InOrder cal a b := by
  constructor
  · intro h a ha b hb
    exact (between_startOfDay_iff cal a b).mp (h.dates a ha b hb)
  · intro h
    have hdates : ∀ a ∈ times, ∀ b ∈ times, businessDaysBetweenCal a b cal =
        businessDaysBetweenCal (startOfDay a) (startOfDay b) cal := fun a ha b hb =>
      (between_startOfDay_iff cal a b).mpr (h a ha b hb)
    refine ⟨hdates, fun a _ b _ => between_swap a b cal, fun a ha b hb c hc => ?_⟩
    rw [hdates a ha c hc, hdates a ha b hb, hdates b hb c hc]
    simp only [startOfDay, between_midnight]
    exact signedCount_add a.day b.day c.day

lemma inOrder_of_offset (h : a.offset = b.offset) : InOrder cal a b := by
  have hday : ∀ {s t : Time}, s.offset = t.offset → s.day < t.day → s.nanos < t.nanos := by
    intro s t hoff hlt
    simp only [day, unix] at hlt
    omega
  exact ⟨fun e hae heb _ => hday h (by omega), fun e hbe hea _ => hday h.symm (by omega)⟩

/-- **When the business-day distance is a distance of dates.** It is antisymmetric; it depends on
the dates alone, and is additive, exactly if no business day separates two dates against the order
of the instants. -/
theorem businessDaysBetweenCal_dateLaws (cal : Calendar) :
    (∀ a b, businessDaysBetweenCal a b cal = -businessDaysBetweenCal b a cal) ∧
      (∀ times : Set Time, DateLaws cal times ↔ ∀ a ∈ times, ∀ b ∈ times, InOrder cal a b) ∧
      (∀ times : Set Time, (∀ a ∈ times, ∀ b ∈ times, a.offset = b.offset) →
        DateLaws cal times) := by
  refine ⟨fun a b => between_swap a b cal, dateLaws_iff cal, fun times h => ?_⟩
  exact (dateLaws_iff cal times).mpr fun a ha b hb => inOrder_of_offset (h a ha b hb)

def seoulTuesday : Time := ⟨(5 * 86400 - 32400) * 1000000000, 32400⟩

def utcMonday : Time := ⟨(5 * 86400 - 28800) * 1000000000, 0⟩

theorem between_mixed_zones :
    businessDaysBetweenCal seoulTuesday utcMonday .weekend = 0 ∧
      businessDaysBetweenCal (startOfDay seoulTuesday) (startOfDay utcMonday) .weekend = -1 ∧
      businessDaysBetweenCal seoulTuesday (Time.midnight 4) .weekend ≠
        businessDaysBetweenCal seoulTuesday utcMonday .weekend +
          businessDaysBetweenCal utcMonday (Time.midnight 4) .weekend := by
  decide

lemma skip_forward (cal : Calendar) (d : ℤ) :
    cal.Open (skip cal false d) ∧ d ≤ skip cal false d ∧
      ∀ e, d ≤ e → e < skip cal false d → ¬ cal.Open e := by
  rw [skip]
  split_ifs with h
  · exact ⟨h, le_rfl, fun e hde hed => by omega⟩
  · have hdec : daysLeft cal false (addStep false d) < daysLeft cal false d := daysLeft_addStep h
    obtain ⟨hopen, hle, hnone⟩ := skip_forward cal (addStep false d)
    have hstep : addStep false d = d + 1 := rfl
    refine ⟨hopen, by omega, fun e hde hed => ?_⟩
    rcases eq_or_lt_of_le hde with rfl | hlt
    · exact h
    · exact hnone e (by omega) hed
termination_by daysLeft cal false d

lemma skip_backward (cal : Calendar) (d : ℤ) :
    cal.Open (skip cal true d) ∧ skip cal true d ≤ d ∧
      ∀ e, skip cal true d < e → e ≤ d → ¬ cal.Open e := by
  rw [skip]
  split_ifs with h
  · exact ⟨h, le_rfl, fun e hde hed => by omega⟩
  · have hdec : daysLeft cal true (addStep true d) < daysLeft cal true d := daysLeft_addStep h
    obtain ⟨hopen, hle, hnone⟩ := skip_backward cal (addStep true d)
    have hstep : addStep true d = d - 1 := rfl
    refine ⟨hopen, by omega, fun e hde hed => ?_⟩
    rcases eq_or_lt_of_le hed with rfl | hlt
    · exact h
    · exact hnone e hde (by omega)
termination_by daysLeft cal true d

lemma signedCount_skip_forward (cal : Calendar) (d : ℤ) :
    signedCount cal.Open d (skip cal false (addStep false d)) = 1 := by
  obtain ⟨hopen, hle, hnone⟩ := skip_forward cal (addStep false d)
  have hstep : addStep false d = d + 1 := rfl
  exact signedCount_next (by omega) hopen fun e hde hed => hnone e (by omega) hed

lemma signedCount_skip_backward (h : cal.Open d) :
    signedCount cal.Open d (skip cal true (addStep true d)) = -1 := by
  obtain ⟨-, hle, hnone⟩ := skip_backward cal (addStep true d)
  have hstep : addStep true d = d - 1 := rfl
  rw [signedCount_swap, signedCount_next (by omega) h fun e hde hed => hnone e hde (by omega)]

lemma signedCount_advance (cal : Calendar) :
    ∀ (n : ℕ) (d : ℤ), signedCount cal.Open d (advance cal false n d) = n ∧
      (n ≠ 0 → cal.Open (advance cal false n d))
  | 0, d => ⟨by rw [advance, signedCount_of_le le_rfl, within_of_le le_rfl], fun h => absurd rfl h⟩
  | n + 1, d => by
    rw [advance]
    obtain ⟨hcount, hopen⟩ := signedCount_advance cal n (skip cal false (addStep false d))
    have hround := signedCount_skip_forward cal d
    refine ⟨?_, fun _ => ?_⟩
    · rw [signedCount_add d (skip cal false (addStep false d)), hround, hcount]
      omega
    · rcases Nat.eq_zero_or_pos n with rfl | hn
      · exact (skip_forward cal (addStep false d)).1
      · exact hopen hn.ne'

lemma signedCount_goBack (cal : Calendar) :
    ∀ (n : ℕ) (d : ℤ), cal.Open d → signedCount cal.Open d (advance cal true n d) = -n ∧
      cal.Open (advance cal true n d)
  | 0, d, h => ⟨by rw [advance, signedCount_of_le le_rfl, within_of_le le_rfl]; rfl, h⟩
  | n + 1, d, h => by
    rw [advance]
    have hprev : cal.Open (skip cal true (addStep true d)) := (skip_backward cal (addStep true d)).1
    obtain ⟨hcount, hopen⟩ := signedCount_goBack cal n (skip cal true (addStep true d)) hprev
    have hround := signedCount_skip_backward h
    refine ⟨?_, hopen⟩
    rw [signedCount_add d (skip cal true (addStep true d)), hround, hcount]
    omega

lemma signedCount_of_nonneg {n : ℤ} (hn : 0 ≤ n) :
    signedCount cal.Open d (addBusinessDaysCal d n cal) = n ∧
      (0 < n → cal.Open (addBusinessDaysCal d n cal)) := by
  obtain ⟨hcount, hopen⟩ := signedCount_advance cal n.natAbs d
  rw [addBusinessDaysCal, decide_eq_false (by omega)]
  exact ⟨hcount.trans (by omega), fun hpos => hopen (by omega)⟩

/-- From a business day on, `AddBusinessDaysCal` leads to the business day at that count. -/
lemma signedCount_of_open (h : cal.Open d) (n : ℤ) :
    signedCount cal.Open d (addBusinessDaysCal d n cal) = n ∧
      cal.Open (addBusinessDaysCal d n cal) := by
  rcases lt_trichotomy n 0 with hneg | rfl | hpos
  · obtain ⟨hcount, hopen⟩ := signedCount_goBack cal n.natAbs d h
    rw [addBusinessDaysCal, decide_eq_true hneg]
    exact ⟨hcount.trans (by omega), hopen⟩
  · exact ⟨(signedCount_of_nonneg le_rfl).1, h⟩
  · exact ⟨(signedCount_of_nonneg hpos.le).1, (signedCount_of_nonneg hpos.le).2 hpos⟩

def At (cal : Calendar) (d n e : ℤ) : Prop :=
  businessDaysBetweenCal (Time.midnight d) (Time.midnight e) cal = n

lemma at_iff {n : ℤ} : At cal d n e ↔ signedCount cal.Open d e = n := by
  rw [At, between_midnight]

lemma At.le {n e' : ℤ} (h : At cal d n e) (he : cal.Open e) (h' : At cal d n e') : e ≤ e' :=
  le_of_signedCount_eq he ((at_iff.mp h').trans (at_iff.mp h).symm)

/-- **Adding and counting business days are inverse.** `n ≥ 0` days forward is the earliest date
from `d` on at that count, and the earliest of all if `n > 0` or `d` is a business day; backward the
same holds from a business day. -/
theorem addBusinessDaysCal_inverse (holidays : List Time) (d n : ℤ) :
    let cal := Calendar.newHolidayCalendar holidays
    let e := addBusinessDaysCal d n cal
    (0 ≤ n → At cal d n e ∧ (∀ e', d ≤ e' → At cal d n e' → e ≤ e') ∧
        (0 < n → cal.isBusinessDay e) ∧
        (0 < n ∨ cal.isBusinessDay d → ∀ e', At cal d n e' → e ≤ e')) ∧
      (n < 0 → cal.isBusinessDay d →
        At cal d n e ∧ cal.isBusinessDay e ∧ ∀ e', At cal d n e' → e ≤ e') := by
  intro cal e
  refine ⟨fun hn => ?_, fun hn hd => ?_⟩
  · obtain ⟨hcount, hpos⟩ := signedCount_of_nonneg (d := d) hn
    have hat : At cal d n e := at_iff.mpr hcount
    refine ⟨hat, fun e' hd he' => ?_, hpos, fun hopen e' => ?_⟩
    · rcases eq_or_lt_of_le hn with rfl | hlt
      · exact hd
      · exact hat.le (hpos hlt) he'
    · rcases hopen with hlt | hd
      · exact hat.le (hpos hlt)
      · exact hat.le (signedCount_of_open hd n).2
  · obtain ⟨hcount, hopen⟩ := signedCount_of_open hd n
    have hat : At cal d n e := at_iff.mpr hcount
    exact ⟨hat, hopen, fun e' => hat.le hopen⟩

theorem addBusinessDaysCal_zero_sunday :
    addBusinessDaysCal 3 0 (.newHolidayCalendar []) = 3 ∧ (1 : ℤ) < 3 ∧
      businessDaysBetweenCal (Time.midnight 3) (Time.midnight 1) (.newHolidayCalendar []) = 0 := by
  decide

end Wtg.Pricing.BusinessDays
