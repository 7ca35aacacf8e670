import Mathlib.Data.Nat.Bitwise
import Wtg.Pricing.Doc

/-! # What a time window means

A window without `complement_of`, with times `HH:MM` and the days as a list of names, a range or
`*`, is active exactly on those days, from the minute of its start up to the minute of its end, by
the clock of its zone (`isActive_window`). -/

namespace Wtg.Pricing.WindowMeaning

open Lib Pricing.BusinessDays Pricing.Doc Pricing.Table List Int64

/-- The text is `HH:MM` for the minute `n` of the day, up to 24:00. -/
def IsMinute (s : String) (n : ℕ) : Prop :=
  ∃ hh mm h m, s.toList = hh ++ ':' :: mm ∧ hh ≠ [] ∧ mm ≠ [] ∧ digits hh = some h ∧
    digits mm = some m ∧ h ≤ 24 ∧ m < 60 ∧ (h = 24 → m = 0) ∧ n = 60 * h + m

def dayName (d : Fin 7) : List Char :=
  (["SUN", "MON", "TUE", "WED", "THU", "FRI", "SAT"].get d).toList

inductive Days
  | every
  | star
  | names (first : Fin 7) (more : List (Fin 7))
  | range (first last : Fin 7)

/-- How the days are written, up to the case of the letters. -/
def Days.text : Days → List Char
  | .every => []
  | .star => ['*']
  | .names d ds => dayName d ++ ds.flatMap fun d => ',' :: dayName d
  | .range a b => dayName a ++ '-' :: dayName b

def Days.Written (D : Days) (s : String) : Prop := s.toList.map Char.toUpper = D.text

def Days.Has : Days → Fin 7 → Prop
  | .every, _ => True
  | .star, _ => True
  | .names d ds, x => x ∈ d :: ds
  | .range a b, x => x - a ≤ b - a

def weekdayOf (t : Time) : Fin 7 := ⟨weekday t.day, by unfold weekday; omega⟩

lemma foldl_none (cs : List Char) :
    cs.foldl (fun (n : Option ℕ) c => do return 10 * (← n) + (← digit c)) none = none := by
  induction cs with
  | nil => rfl
  | cons c cs ih => exact ih

lemma plain_of_digit {c : Char} (h : '0' ≤ c ∧ c ≤ '9') : isSpace c = false ∧ c ≠ ':' := by
  obtain ⟨hlo, hhi⟩ := h
  have hlo : 48 ≤ c.toNat := hlo
  have hhi : c.toNat ≤ 57 := hhi
  refine ⟨decide_eq_false (by omega), ?_⟩
  rintro rfl
  exact absurd hhi (by decide)

lemma atoiFrom_of_digits : ∀ {cs : List Char} {k n : ℕ},
    cs.foldl (fun n c => do return 10 * (← n) + (← digit c)) (some k) = some n →
      (∀ c ∈ cs, isSpace c = false ∧ c ≠ ':') ∧
        atoiFrom (Int64.ofNat k) cs = some (Int64.ofNat n)
  | [], k, n, h => by
    rw [← Option.some.inj h]
    exact ⟨fun c hc => absurd hc not_mem_nil, rfl⟩
  | c :: cs, k, n, h => by
    by_cases hc : '0' ≤ c ∧ c ≤ '9'
    · have hdigit : digit c = some (c.toNat - 48) := if_pos hc
      simp only [foldl_cons, hdigit] at h
      obtain ⟨hplain, hatoi⟩ := atoiFrom_of_digits h
      refine ⟨forall_mem_cons.mpr ⟨plain_of_digit hc, hplain⟩, ?_⟩
      have hstep : Int64.ofNat k * 10 + Int64.ofNat (c.toNat - 48) =
          Int64.ofNat (10 * k + (c.toNat - 48)) := by
        rw [Int64.ofNat_add, Int64.ofNat_mul, Int64.mul_comm]
        rfl
      simp only [atoiFrom, hdigit, Option.bind_eq_bind, Option.bind_some]
      rwa [hstep]
    · have hnone : digit c = none := if_neg hc
      simp only [foldl_cons, hnone] at h
      exact absurd ((foldl_none cs).symm.trans h) (by simp)

lemma trimSpace_of_forall {s : List Char} (h : ∀ c ∈ s, isSpace c = false) : trimSpace s = s := by
  have hdrop : ∀ l : List Char, (∀ c ∈ l, isSpace c = false) → l.dropWhile isSpace = l := by
    intro l hl
    rw [dropWhile_eq_self_iff]
    intro hpos
    rw [hl _ (getElem_mem _)]
    exact Bool.false_ne_true
  rw [trimSpace, hdrop s h, hdrop _ fun c hc => h c (mem_reverse.mp hc), reverse_reverse]

lemma splitTwo_append {sep : Char} {a b : List Char} (h : sep ∉ a) :
    splitTwo sep (a ++ sep :: b) = some (a, b) := by
  have hall : ∀ c ∈ a, decide (c ≠ sep) = true := fun c hc =>
    decide_eq_true fun heq => h (heq ▸ hc)
  rw [splitTwo, if_pos (mem_append_right _ mem_cons_self),
    takeWhile_append_of_pos hall, dropWhile_append_of_pos hall]
  simp

lemma minutes_eq : ∀ h < 25, ∀ m < 60, (h = 24 → m = 0) →
    (if ofNat h < 0 ∨ 24 < ofNat h ∨ ofNat m < 0 ∨ 60 ≤ ofNat m then -1
      else if ofNat h = 24 ∧ ofNat m = 0 then 1440
      else (ofNat h * 60 + ofNat m).toInt) = ((60 * h + m : ℕ) : ℤ) := by
  decide +kernel

variable {s : String}

lemma parseHHMM_of_isMinute {n : ℕ} (h : IsMinute s n) : parseHHMM s = n := by
  obtain ⟨hh, mm, h, m, hs, hhne, hmne, hhh, hmm, hle, hlt, hend, rfl⟩ := h
  obtain ⟨hplain, hh64⟩ := atoiFrom_of_digits hhh
  obtain ⟨mplain, hm64⟩ := atoiFrom_of_digits hmm
  have htrim : trimSpace s.toList = hh ++ ':' :: mm := by
    rw [hs]
    refine trimSpace_of_forall fun c hc => ?_
    rcases mem_append.mp hc with hc | hc
    · exact (hplain c hc).1
    · rcases mem_cons.mp hc with rfl | hc
      · rfl
      · exact (mplain c hc).1
  have hsplit : splitTwo ':' (hh ++ ':' :: mm) = some (hh, mm) :=
    splitTwo_append fun hc => (hplain _ hc).2 rfl
  have hatoi : strconvAtoi hh = some (ofNat h) := (if_neg hhne).trans hh64
  have matoi : strconvAtoi mm = some (ofNat m) := (if_neg hmne).trans hm64
  rw [← minutes_eq h (by omega) m hlt hend, parseHHMM]
  simp only [htrim, hsplit, hatoi, matoi, Option.bind_eq_bind, Option.bind_some, Option.pure_def]

variable (d : Fin 7)

lemma shift_toNat : (1 <<< UInt8.ofNat d : UInt8).toNat = 2 ^ (d : ℕ) := by
  revert d
  decide

lemma mask_eq_zero (mask : UInt8) (d : Fin 7) :
    mask &&& (1 <<< UInt8.ofNat d) = 0 ↔ mask.toNat.testBit d = false := by
  rw [← UInt8.toNat_inj, UInt8.toNat_and, shift_toNat, Nat.and_two_pow]
  cases mask.toNat.testBit d <;> simp

def addDay (mask : UInt8) (tok : List Char) : UInt8 :=
  match dayIdx (trimSpace tok) with
  | some d => mask ||| (1 <<< UInt8.ofNat d)
  | none => mask

lemma testBit_names (ds : List (Fin 7)) (mask : UInt8) (x : ℕ) :
    ((ds.map dayName).foldl addDay mask).toNat.testBit x =
      (mask.toNat.testBit x || decide (x ∈ ds.map Fin.val)) := by
  induction ds generalizing mask with
  | nil => simp
  | cons d ds ih =>
    have hadd : addDay mask (dayName d) = mask ||| (1 <<< UInt8.ofNat d) := by
      have hidx : dayIdx (trimSpace (dayName d)) = some (d : ℕ) := by
        revert d
        decide
      simp only [addDay, hidx]
    rw [map_cons, foldl_cons, ih, hadd, UInt8.toNat_or, Nat.testBit_or, shift_toNat,
      Nat.testBit_two_pow, map_cons]
    simp only [mem_cons, Bool.decide_or, Bool.or_assoc, eq_comm]

lemma plain_dayName : ∀ c ∈ dayName d, 'A' ≤ c ∧ c ≤ 'Z' := by
  have hall : (dayName d).all fun c => decide ('A' ≤ c ∧ c ≤ 'Z') := by
    revert d
    decide
  exact fun c hc => of_decide_eq_true (all_eq_true.mp hall c hc)

lemma mem_names {d : Fin 7} {ds : List (Fin 7)} {c : Char} (h : c ∈ (Days.names d ds).text) :
    c = ',' ∨ ('A' ≤ c ∧ c ≤ 'Z') := by
  rcases mem_append.mp h with h | h
  · exact .inr (plain_dayName d c h)
  · obtain ⟨e, -, he⟩ := mem_flatMap.mp h
    exact (mem_cons.mp he).imp_right (plain_dayName e c)

lemma plain_text (D : Days) : ∀ c ∈ D.text, c.toNat < 128 ∧ isSpace c = false := by
  have hname : ∀ {c : Char}, 'A' ≤ c ∧ c ≤ 'Z' → c.toNat < 128 ∧ isSpace c = false := by
    rintro c ⟨hlo, hhi⟩
    have hlo : 65 ≤ c.toNat := hlo
    have hhi : c.toNat ≤ 90 := hhi
    exact ⟨by omega, decide_eq_false (by omega)⟩
  intro c hc
  cases D with
  | every => exact absurd hc not_mem_nil
  | star =>
    rw [mem_singleton.mp hc]
    decide
  | names d ds =>
    rcases mem_names hc with rfl | hc
    · decide
    · exact hname hc
  | range a b =>
    rcases mem_append.mp hc with hc | hc
    · exact hname (plain_dayName a c hc)
    · rcases mem_cons.mp hc with rfl | hc
      · decide
      · exact hname (plain_dayName b c hc)

lemma plain_of_toUpper {c : Char} (h : c.toUpper.toNat < 128 ∧ isSpace c.toUpper = false) :
    c.toNat < 128 ∧ isSpace c = false := by
  unfold Char.toUpper at h
  split_ifs at h with hlower
  · have hlo : 97 ≤ c.toNat := hlower.1
    have hhi : c.toNat ≤ 122 := hlower.2
    exact ⟨by omega, decide_eq_false (by omega)⟩
  · exact h

variable (u : Runes)

lemma upper_of_written {D : Days} (h : D.Written s) :
    u.toUpper (trimSpace s.toList) = D.text := by
  have hplain : ∀ c ∈ s.toList, c.toNat < 128 ∧ isSpace c = false := fun c hc =>
    plain_of_toUpper (plain_text D _ (h ▸ mem_map_of_mem hc))
  rw [trimSpace_of_forall fun c hc => (hplain c hc).2, ← h, Runes.toUpper]
  exact map_congr_left fun c hc => if_pos (hplain c hc).1

lemma splitOn_names (ds : List (Fin 7)) :
    (Days.names d ds).text.splitOn ',' = (d :: ds).map dayName := by
  have hcomma : ∀ e, ',' ∉ dayName e := fun e he => absurd (plain_dayName e _ he) (by decide)
  induction ds generalizing d with
  | nil =>
    rw [Days.text, flatMap_nil, append_nil, splitOn_eq_singleton (hcomma d)]
    rfl
  | cons e es ih =>
    rw [Days.text, flatMap_cons, cons_append,
      splitOn_append_cons_self_of_not_mem (hcomma d)]
    exact congrArg (dayName d :: ·) (ih e)

lemma parseDays_names {d : Fin 7} {ds : List (Fin 7)} (h : (Days.names d ds).Written s) :
    parseDays u s = ((d :: ds).map dayName).foldl addDay 0 := by
  have hhead : ∃ c ∈ (Days.names d ds).text, 'A' ≤ c ∧ c ≤ 'Z' := by
    have hne : dayName d ≠ [] := by
      clear h
      revert d
      decide
    obtain ⟨c, hc⟩ := exists_mem_of_ne_nil _ hne
    exact ⟨c, mem_append_left _ hc, plain_dayName d c hc⟩
  have hplain : ¬ ((Days.names d ds).text = [] ∨ (Days.names d ds).text = ['*']) := by
    obtain ⟨c, hc, hletter⟩ := hhead
    rintro (heq | heq) <;> rw [heq] at hc
    · exact absurd hc not_mem_nil
    · rw [mem_singleton.mp hc] at hletter
      exact absurd hletter (by decide)
  have hdash : '-' ∉ (Days.names d ds).text := fun hc => by
    rcases mem_names hc with hc | hc
    · cases hc
    · exact absurd hc (by decide)
  have hnone : (if ',' ∈ (Days.names d ds).text then none
      else splitTwo '-' (Days.names d ds).text) = none := by
    rw [splitTwo, if_neg hdash, ite_self]
  simp only [parseDays, upper_of_written u h, if_neg hplain, hnone, splitOn_names]
  rfl

lemma parseDays_range {a b : Fin 7} (h : (Days.range a b).Written s) :
    parseDays u s = dayRange b 7 a 0 := by
  simp only [parseDays, upper_of_written u h]
  clear h
  revert a b
  decide +kernel

lemma mask_iff {D : Days} (h : D.Written s) (x : Fin 7) :
    (parseDays u s ≠ 0 ∧ parseDays u s ≠ 0xFF ∧
      parseDays u s &&& (1 <<< UInt8.ofNat x) = 0) ↔ ¬ D.Has x := by
  cases D with
  | every | star =>
    have hall : parseDays u s = 0xFF := by
      simp only [parseDays, upper_of_written u h]
      rfl
    rw [hall]
    exact iff_of_false (fun h => h.2.1 rfl) (not_not_intro trivial)
  | names d ds =>
    have hbit : ∀ y, (parseDays u s).toNat.testBit y = decide (y ∈ (d :: ds).map Fin.val) := by
      intro y
      rw [parseDays_names u h, testBit_names]
      simp
    have hne : parseDays u s ≠ 0 := fun hzero => by
      have hd := hbit d
      rw [hzero] at hd
      simp at hd
    have hne' : parseDays u s ≠ 0xFF := fun hfull => by
      have h7 := hbit 7
      rw [hfull, eq_comm] at h7
      obtain ⟨e, -, he⟩ := mem_map.mp (of_decide_eq_true h7)
      omega
    rw [and_iff_right hne, and_iff_right hne', mask_eq_zero, hbit, decide_eq_false_iff_not,
      mem_map_of_injective Fin.val_injective]
    rfl
  | range a b =>
    rw [parseDays_range u h]
    clear h
    revert a b x
    unfold Days.Has
    decide +kernel

/-- **A window is active on its days and between its times.** -/
theorem isActive_window {R : Type*} (u : Runes) (env : Env) (doc : PricingTableDoc R) (now : Time)
    (fuel : ℕ) {before after : List TimeWindowDoc} {w : TimeWindowDoc} {D : Days} {s e : ℕ}
    (hdoc : doc.timeWindows = before ++ w :: after)
    (hlast : ∀ w' ∈ after, normalizeName u w'.name ≠ normalizeName u w.name)
    (hplain : w.complementOf = "") (hstart : IsMinute w.start s) (hend : IsMinute w.end e)
    (hlt : s < e) (hdays : D.Written w.days) :
    ∃ rule active, (buildPricingTable u doc).timeWindows.lookup (normalizeName u w.name) =
        some rule ∧
      isActive env now (buildPricingTable u doc).timeWindows (fuel + 1) rule = some active ∧
      (active = true ↔
        let t := now.inZone (if w.tz = "" then utc else (env.loadLocation w.tz).getD utc)
        D.Has (weekdayOf t) ∧ s ≤ t.clock / 60 ∧ t.clock / 60 < e) := by
  have hrows : (Upsert.rows (fun w => normalizeName u w.name) (normalizeName u w.name)
      doc.timeWindows).getLast? = some w := by
    have hafter : after.filter (fun w' => normalizeName u w'.name = normalizeName u w.name) = [] :=
      filter_eq_nil_iff.mpr fun w' hw' => by simpa using hlast w' hw'
    rw [hdoc, Upsert.rows, filter_append, filter_cons_of_pos (by simp), hafter,
      getLast?_concat]
  refine ⟨w.rule u, (w.rule u).isOpen env now, ?_, if_pos hplain, ?_⟩
  · rw [buildPricingTable, Upsert.lookup_ofEntries, hrows]
    rfl
  generalize hloc : now.inZone (if w.tz = "" then utc else (env.loadLocation w.tz).getD utc) = t
  have hmask := mask_iff u hdays (weekdayOf t)
  have hclock : t.hour * 60 + t.minute = t.clock / 60 := by
    unfold Time.hour Time.minute
    omega
  have hopen : (w.rule u).isOpen env now =
      if parseDays u w.days ≠ 0 ∧ parseDays u w.days ≠ 0xFF ∧
          parseDays u w.days &&& (1 <<< UInt8.ofNat (weekdayOf t)) = 0 then false
      else decide (s ≤ t.clock / 60 ∧ t.clock / 60 < e) := by
    simp only [TimeWindowRule.isOpen, TimeWindowDoc.rule, hloc, parseHHMM_of_isMinute hstart,
      parseHHMM_of_isMinute hend, hclock]
    rw [if_neg (show ¬ ((s : ℤ) < 0 ∨ (e : ℤ) ≤ s) by omega)]
    rfl
  by_cases hday : D.Has (weekdayOf t)
  · rw [hopen, if_neg fun h => hmask.mp h hday, decide_eq_true_iff]
    exact (and_iff_right hday).symm
  · rw [hopen, if_pos (hmask.mpr hday)]
    exact iff_of_false Bool.false_ne_true fun h => hday h.1

def fromFriday : TimeWindowDoc := ⟨"Open", "09:00", "15:30", "", "fri-Mon", ""⟩

def fromFridayDoc : PricingTableDoc ℤ := { PricingTableDoc.empty with timeWindows := [fromFriday] }

/-- The first Saturday of 1970, at ten. -/
theorem isActive_window_saturday : ∃ rule,
    (buildPricingTable ⟨id, id⟩ fromFridayDoc).timeWindows.lookup "open" = some rule ∧
      isActive ⟨id, fun _ => none⟩ ⟨208800 * 1000000000, 0⟩
        (buildPricingTable ⟨id, id⟩ fromFridayDoc).timeWindows 1 rule = some true := by
  have hdays : (Days.range 5 1).Written fromFriday.days := by
    unfold Days.Written
    decide
  have hstart : IsMinute fromFriday.start 540 := ⟨"09".toList, "00".toList, 9, 0, by decide⟩
  have hend : IsMinute fromFriday.end 930 := ⟨"15".toList, "30".toList, 15, 30, by decide⟩
  obtain ⟨rule, active, hrule, hactive, hiff⟩ := isActive_window ⟨id, id⟩ ⟨id, fun _ => none⟩
    fromFridayDoc ⟨208800 * 1000000000, 0⟩ 0
    (show fromFridayDoc.timeWindows = [] ++ fromFriday :: [] from rfl) (by simp) rfl hstart hend
    (by decide) hdays
  have htrue : active = true := hiff.mpr (by
    unfold Days.Has
    decide)
  exact ⟨rule, hrule, htrue ▸ hactive⟩

end Wtg.Pricing.WindowMeaning
