import Mathlib.Data.Int.Order.Basic

/-! # Times and business days

`time.Time` as the pricing package uses it, and the calendars of `calendar.go` and `valuedate.go`. A
time is an instant with the offset of its zone. -/

namespace Wtg.Pricing.BusinessDays

/-- `time.Time`: nanoseconds since the Unix epoch, and the seconds east of UTC of its location at
that instant. -/
structure Time where
  nanos : ℤ
  offset : ℤ
deriving DecidableEq, Repr

namespace Time

def unix (t : Time) : ℤ := t.nanos / 1000000000

def isZero (t : Time) : Bool := t.nanos = -62135596800 * 1000000000

def inZone (loc : ℤ → ℤ) (t : Time) : Time := { t with offset := loc t.unix }

def day (t : Time) : ℤ := (t.unix + t.offset) / 86400

def clock (t : Time) : ℤ := (t.unix + t.offset) % 86400

def hour (t : Time) : ℤ := t.clock / 3600

def minute (t : Time) : ℤ := t.clock % 3600 / 60

def midnight (day : ℤ) : Time := ⟨day * 86400 * 1000000000, 0⟩

end Time

def weekday (day : ℤ) : ℕ := ((day + 4) % 7).toNat

def startOfDay (t : Time) : Time := Time.midnight t.day

@[simp] lemma startOfDay_day (t : Time) : (startOfDay t).day = t.day := by
  simp only [startOfDay, Time.midnight, Time.day, Time.unix]
  omega

inductive Calendar
  | weekend
  | holiday (holidays : List ℤ)
deriving DecidableEq, Repr

namespace Calendar

/-- `NewHolidayCalendar`: of each time only the calendar date counts. -/
def newHolidayCalendar (holidays : List Time) : Calendar := .holiday (holidays.map Time.day)

def holidays : Calendar → List ℤ
  | .weekend => []
  | .holiday hs => hs

def isBusinessDay (cal : Calendar) (day : ℤ) : Bool :=
  weekday day ≠ 6 ∧ weekday day ≠ 0 ∧ day ∉ cal.holidays

def bound (days : List ℤ) : ℤ := days.foldr max 0

lemma le_bound : ∀ {days : List ℤ}, ∀ d ∈ days, d ≤ bound days
  | e :: es, d, hmem => by
    rw [bound, List.foldr_cons]
    rcases List.mem_cons.mp hmem with rfl | hmem
    · omega
    · have : d ≤ es.foldr max 0 := le_bound d hmem
      omega

def last (cal : Calendar) : ℤ := bound cal.holidays

def first (cal : Calendar) : ℤ := -bound (cal.holidays.map Neg.neg)

variable {cal : Calendar}

lemma le_last {d : ℤ} (h : d ∈ cal.holidays) : d ≤ cal.last := le_bound d h

lemma first_le {d : ℤ} (h : d ∈ cal.holidays) : cal.first ≤ d := by
  have := le_bound (-d) (List.mem_map_of_mem h)
  unfold first
  omega

lemma not_isBusinessDay {day : ℤ} (h : ¬ cal.isBusinessDay day = true) :
    day % 7 = 2 ∨ day % 7 = 3 ∨ (cal.first ≤ day ∧ day ≤ cal.last) := by
  by_cases hmem : day ∈ cal.holidays
  · exact .inr (.inr ⟨first_le hmem, le_last hmem⟩)
  · have hwd : weekday day = 6 ∨ weekday day = 0 := by
      simp only [isBusinessDay, decide_eq_true_eq] at h
      by_contra hwd
      rw [not_or] at hwd
      exact h ⟨hwd.1, hwd.2, hmem⟩
    unfold weekday at hwd
    omega

end Calendar

def addStep (back : Bool) (day : ℤ) : ℤ := if back then day - 1 else day + 1

def daysLeft (cal : Calendar) (back : Bool) (day : ℤ) : ℕ :=
  if back then 7 * (day + 1 - cal.first).toNat + ((day - 1) % 7).toNat
  else 7 * (cal.last + 1 - day).toNat + ((4 - day) % 7).toNat

lemma daysLeft_addStep {cal : Calendar} {back : Bool} {day : ℤ}
    (h : ¬ cal.isBusinessDay day = true) :
    daysLeft cal back (addStep back day) < daysLeft cal back day := by
  have := Calendar.not_isBusinessDay h
  rcases back with _ | _
  · simp only [daysLeft, addStep, Bool.false_eq_true, if_false]
    omega
  · simp only [daysLeft, addStep, if_true]
    omega

def skip (cal : Calendar) (back : Bool) (day : ℤ) : ℤ :=
  if cal.isBusinessDay day then day else skip cal back (addStep back day)
termination_by daysLeft cal back day
decreasing_by exact daysLeft_addStep ‹_›

def advance (cal : Calendar) (back : Bool) : ℕ → ℤ → ℤ
  | 0, cur => cur
  | n + 1, cur => advance cal back n (skip cal back (addStep back cur))

def addBusinessDaysCal (d : ℤ) (n : ℤ) (cal : Calendar) : ℤ := advance cal (n < 0) n.natAbs d

def spotDateCal (now : Time) (spotDays : ℤ) (cal : Calendar) : Time :=
  let spotDays := if spotDays < 0 then 0 else spotDays
  Time.midnight (addBusinessDaysCal (startOfDay now).day spotDays cal)

def countBusinessDays (cal : Calendar) : ℕ → ℤ → ℤ
  | 0, _ => 0
  | n + 1, cur =>
    (if cal.isBusinessDay (cur + 1) then 1 else 0) + countBusinessDays cal n (cur + 1)

/-- `BusinessDaysBetweenCal`. -/
def businessDaysBetweenCal (a b : Time) (cal : Calendar) : ℤ :=
  if a.nanos = b.nanos then 0
  else if b.nanos < a.nanos then
    countBusinessDays cal ((startOfDay a).day - (startOfDay b).day).toNat (startOfDay b).day * -1
  else countBusinessDays cal ((startOfDay b).day - (startOfDay a).day).toNat (startOfDay a).day * 1

end Wtg.Pricing.BusinessDays
