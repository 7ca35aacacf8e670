import Mathlib.Algebra.Group.Defs
import Wtg.Lib.FirstMatch
import Wtg.Lib.GoMap
import Wtg.Pricing.BusinessDays

/-! # The pricing table

`PricingTable` of `pkg/pricing/table.go`: margins by key, customer rules, time windows, and the
lookups that fall back from specific keys to general ones. -/

namespace Wtg.Pricing.Table

open Lib Lib.FirstMatch Pricing.BusinessDays List Option

/-- What the package takes from Go's library: `strings.ToLower`, and `time.LoadLocation`, which
gives the offset of a zone at each instant (Unix seconds) or an error. -/
structure Env where
  toLower : String → String
  loadLocation : String → Option (ℤ → ℤ)

def utc : ℤ → ℤ := fun _ => 0

structure Margin (R : Type*) where
  bidAmount : R
  askAmount : R
  skewAmount : R
  spreadAmount : R
deriving DecidableEq, Repr

structure SwapKey where
  pair : String
  tenor : String
deriving DecidableEq, Repr

structure HQKey where
  pair : String
  tier : String
  window : String
deriving DecidableEq, Repr

structure SiteKey where
  pair : String
  channel : String
  site : String
  window : String
deriving DecidableEq, Repr

structure CustomerRule (R : Type*) where
  customerID : String
  pair : String
  bidDelta : R
  askDelta : R
  skewDelta : R
  spreadDelta : R
  mode : String
  priority : ℤ
  window : String
deriving DecidableEq, Repr

structure TimeWindowRule where
  name : String
  startMin : ℤ
  endMin : ℤ
  tz : String
  daysMask : UInt8
  complementOf : String
deriving DecidableEq, Repr

structure PricingTable (R : Type*) where
  version : ℤ
  swapPoint : GoMap SwapKey (Margin R)
  hqMargin : GoMap HQKey (Margin R)
  siteMargin : GoMap SiteKey (Margin R)
  customerMargin : List (CustomerRule R)
  timeWindows : GoMap String TimeWindowRule
  calendar : Option Calendar

def PricingTable.cal {R : Type*} (t : PricingTable R) : Calendar := t.calendar.getD .weekend

/-! ## Lookups -/

section

variable {R : Type*}

/-- `Margin{}`. -/
instance [Zero R] : Zero (Margin R) := ⟨⟨0, 0, 0, 0⟩⟩

/-- The sum of margins, component by component. -/
instance [Add R] : Add (Margin R) where
  add m n := ⟨m.bidAmount + n.bidAmount, m.askAmount + n.askAmount, m.skewAmount + n.skewAmount,
    m.spreadAmount + n.spreadAmount⟩

def CustomerRule.delta (r : CustomerRule R) : Margin R :=
  ⟨r.bidDelta, r.askDelta, r.skewDelta, r.spreadDelta⟩

variable [Zero R] (t : PricingTable R)

def PricingTable.lookupSwap (pair tenor : String) : Margin R :=
  (t.swapPoint.lookup ⟨pair, tenor⟩).getD 0

def PricingTable.hqLevels (pair tier : String) : List (Level String (Margin R)) :=
  [tier, ""].map fun tr =>
    { entry := fun w => t.hqMargin.lookup ⟨pair, tr, w⟩
      fallback := t.hqMargin.lookup ⟨pair, tr, ""⟩ }

def PricingTable.lookupHQ (pair tier : String) (activeWindows : List String) : Margin R :=
  (search (t.hqLevels pair tier) activeWindows).getD 0

def PricingTable.siteLevels (pair channel site : String) : List (Level String (Margin R)) :=
  [(channel, site), ("", site), (channel, "")].map fun k =>
    { entry := fun w => t.siteMargin.lookup ⟨pair, k.1, k.2, w⟩
      fallback := t.siteMargin.lookup ⟨pair, k.1, k.2, ""⟩ }

def PricingTable.lookupSite (pair channel site : String) (activeWindows : List String) : Margin R :=
  (search (t.siteLevels pair channel site) activeWindows).getD 0

end

def TimeWindowRule.isOpen (w : TimeWindowRule) (env : Env) (now : Time) : Bool :=
  let loc := if w.tz = "" then utc else (env.loadLocation w.tz).getD utc
  let t := now.inZone loc
  if w.daysMask ≠ 0 ∧ w.daysMask ≠ 0xFF ∧
      w.daysMask &&& (1 <<< UInt8.ofNat (weekday t.day)) = 0 then false
  else if w.startMin < 0 ∨ w.endMin ≤ w.startMin then true
  else
    let mn := t.hour * 60 + t.minute
    decide (w.startMin ≤ mn ∧ mn < w.endMin)

/-- `IsActive`, with fuel for the complements it follows. -/
def isActive (env : Env) (now : Time) (allWindows : GoMap String TimeWindowRule) :
    ℕ → TimeWindowRule → Option Bool
  | 0, _ => none
  | fuel + 1, w =>
    if w.complementOf = "" then some (w.isOpen env now)
    else
      match allWindows.lookup (env.toLower w.complementOf) with
      | some other => (isActive env now allWindows fuel other).map not
      | none => some false

/-- The windows from which following `ComplementOf` comes to an end: at a window that is no
complement, or at a name without a window. -/
inductive Ends (env : Env) (allWindows : GoMap String TimeWindowRule) : TimeWindowRule → Prop
  | plain {w : TimeWindowRule} : w.complementOf = "" → Ends env allWindows w
  | missing {w : TimeWindowRule} : allWindows.lookup (env.toLower w.complementOf) = none →
      Ends env allWindows w
  | complement {w other : TimeWindowRule} :
      allWindows.lookup (env.toLower w.complementOf) = some other → Ends env allWindows other →
        Ends env allWindows w

/-! ## Windows and complements -/

section

variable {env : Env} {now : Time} {all : GoMap String TimeWindowRule}

lemma isActive_mono {on : Bool} : ∀ {fuel fuel' : ℕ} {w : TimeWindowRule}, fuel ≤ fuel' →
    isActive env now all fuel w = some on → isActive env now all fuel' w = some on
  | 0, _, _, _, h => absurd h (by simp [isActive])
  | fuel + 1, 0, _, hle, _ => absurd hle (by omega)
  | fuel + 1, fuel' + 1, w, hle, h => by
    by_cases hc : w.complementOf = ""
    · rw [isActive, if_pos hc] at h ⊢
      exact h
    rw [isActive, if_neg hc] at h ⊢
    rcases hother : all.lookup (env.toLower w.complementOf) with _ | other
    · rw [hother] at h
      exact h
    · rw [hother] at h
      obtain ⟨b, hb, hon⟩ := map_eq_some_iff.mp h
      show (isActive env now all fuel' other).map not = some on
      rw [isActive_mono (Nat.le_of_succ_le_succ hle) hb, map_some, hon]

lemma ends_of_isActive {on : Bool} : ∀ {fuel : ℕ} {w : TimeWindowRule},
    isActive env now all fuel w = some on → Ends env all w
  | 0, _, h => absurd h (by simp [isActive])
  | fuel + 1, w, h => by
    by_cases hc : w.complementOf = ""
    · exact .plain hc
    rw [isActive, if_neg hc] at h
    rcases hother : all.lookup (env.toLower w.complementOf) with _ | other
    · exact .missing hother
    · rw [hother] at h
      obtain ⟨b, hb, -⟩ := map_eq_some_iff.mp h
      exact .complement hother (ends_of_isActive hb)

lemma isActive_of_ends (now : Time) {w : TimeWindowRule} (h : Ends env all w) :
    ∃ fuel on, isActive env now all fuel w = some on := by
  induction h with
  | @plain w hc => exact ⟨1, w.isOpen env now, by rw [isActive, if_pos hc]⟩
  | @missing w hnone =>
    by_cases hc : w.complementOf = ""
    · exact ⟨1, w.isOpen env now, by rw [isActive, if_pos hc]⟩
    · exact ⟨1, false, by rw [isActive, if_neg hc, hnone]⟩
  | @complement w other hother _ ih =>
    obtain ⟨fuel, on, hon⟩ := ih
    by_cases hc : w.complementOf = ""
    · exact ⟨1, w.isOpen env now, by rw [isActive, if_pos hc]⟩
    · exact ⟨fuel + 1, !on, by simp [isActive, if_neg hc, hother, hon]⟩

end

def activeIn (active : TimeWindowRule → Option Bool) :
    List (Sigma fun _ : String => TimeWindowRule) → Option (List String)
  | [] => some []
  | e :: es => do
    let on ← active e.2
    let out ← activeIn active es
    return if on then e.1 :: out else out

def PricingTable.activeWindows {R : Type*} (t : PricingTable R) (env : Env) (fuel : ℕ)
    (now : Time) : Option (List String) :=
  activeIn (isActive env now t.timeWindows fuel) t.timeWindows.entries

lemma activeIn_eq_some {active : TimeWindowRule → Option Bool} {ws : List String} :
    ∀ {es : List (Sigma fun _ : String => TimeWindowRule)}, activeIn active es = some ws ↔
      (∀ e ∈ es, (active e.2).isSome) ∧
        ws = (es.filter fun e => active e.2 = some true).map Sigma.fst
  | [] => by
    rw [activeIn, some_inj, eq_comm]
    simp
  | e :: es => by
    rcases he : active e.2 with _ | on
    · simp [activeIn, he]
    rcases hes : activeIn active es with _ | out
    · have ih : ¬ ∀ e ∈ es, (active e.2).isSome := fun h =>
        absurd (hes.symm.trans (activeIn_eq_some.mpr ⟨h, rfl⟩)) (by simp)
      have hnone : activeIn active (e :: es) = none := by simp [activeIn, he, hes]
      rw [hnone]
      exact iff_of_false (by simp) fun h => ih fun e he => h.1 e (mem_cons_of_mem _ he)
    · obtain ⟨hall, hout⟩ := activeIn_eq_some.mp hes
      have hsome : activeIn active (e :: es) = some (if on then e.1 :: out else out) := by
        rw [activeIn, he, hes]
        rfl
      rw [hsome, some_inj, eq_comm, hout]
      rcases on with _ | _ <;> simpa [he] using fun _ => hall

lemma activeWindows_mono {R : Type*} {t : PricingTable R} {env : Env} {now : Time}
    {fuel fuel' : ℕ} {ws : List String} (hle : fuel ≤ fuel')
    (h : t.activeWindows env fuel now = some ws) : t.activeWindows env fuel' now = some ws := by
  obtain ⟨hall, rfl⟩ := activeIn_eq_some.mp h
  have hsame : ∀ e ∈ t.timeWindows.entries, isActive env now t.timeWindows fuel' e.2 =
      isActive env now t.timeWindows fuel e.2 := by
    intro e he
    obtain ⟨on, hon⟩ := isSome_iff_exists.mp (hall e he)
    rw [hon, isActive_mono hle hon]
  refine activeIn_eq_some.mpr ⟨fun e he => hsame e he ▸ hall e he, ?_⟩
  congr 1
  exact filter_congr fun e he => by rw [hsame e he]

lemma activeWindows_iff_ends {R : Type*} (t : PricingTable R) (env : Env) (now : Time) :
    (∃ fuel ws, t.activeWindows env fuel now = some ws) ↔
      ∀ e ∈ t.timeWindows.entries, Ends env t.timeWindows e.2 := by
  constructor
  · rintro ⟨fuel, ws, h⟩ e he
    obtain ⟨on, hon⟩ := isSome_iff_exists.mp ((activeIn_eq_some.mp h).1 e he)
    exact ends_of_isActive hon
  · intro h
    -- fuel for the first entries is enough for them with more fuel for the next one
    obtain ⟨fuel, hfuel⟩ : ∃ fuel, ∀ e ∈ t.timeWindows.entries,
        (isActive env now t.timeWindows fuel e.2).isSome := by
      generalize t.timeWindows.entries = es at h
      induction es with
      | nil => exact ⟨0, by simp⟩
      | cons e es ih =>
        obtain ⟨n, hn⟩ := ih fun e' he' => h e' (mem_cons_of_mem _ he')
        obtain ⟨m, on, hm⟩ := isActive_of_ends now (h e mem_cons_self)
        refine ⟨max n m, fun e' he' => ?_⟩
        rcases mem_cons.mp he' with rfl | he'
        · rw [isActive_mono (le_max_right n m) hm]
          rfl
        · obtain ⟨on', hon'⟩ := isSome_iff_exists.mp (hn e' he')
          rw [isActive_mono (le_max_left n m) hon']
          rfl
    exact ⟨fuel, _, activeIn_eq_some.mpr ⟨hfuel, rfl⟩⟩

lemma isActive_perm (env : Env) (now : Time) {all all' : GoMap String TimeWindowRule}
    (h : all'.entries.Perm all.entries) :
    ∀ fuel, isActive env now all' fuel = isActive env now all fuel
  | 0 => rfl
  | fuel + 1 => by
    funext w
    simp only [isActive, AList.perm_lookup h, isActive_perm env now h fuel]

end Wtg.Pricing.Table
