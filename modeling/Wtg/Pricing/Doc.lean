import Mathlib.Algebra.Ring.Int.Defs
import Mathlib.Algebra.Ring.Nat
import Wtg.Lib.SwapSort
import Wtg.Lib.Upsert
import Wtg.Pricing.Table

/-! # Pricing documents

`PricingTableDoc`, the form in which operators write a pricing table, and `BuildPricingTable` of
`pkg/pricing/codec.go`, which turns a document into the table the engine reads. -/

namespace Wtg.Pricing.Doc

open Lib Pricing.BusinessDays Pricing.Table

/-- `unicode.ToLower` and `unicode.ToUpper` of the runes beyond ASCII. -/
structure Runes where
  lower : Char → Char
  upper : Char → Char

def Runes.toLower (u : Runes) (s : List Char) : List Char :=
  s.map fun c => if c.toNat < 128 then c.toLower else u.lower c

def Runes.toUpper (u : Runes) (s : List Char) : List Char :=
  s.map fun c => if c.toNat < 128 then c.toUpper else u.upper c

def isSpace (c : Char) : Bool :=
  let n := c.toNat
  decide ((9 ≤ n ∧ n ≤ 13) ∨ n = 0x20 ∨ n = 0x85 ∨ n = 0xA0 ∨ n = 0x1680 ∨
    (0x2000 ≤ n ∧ n ≤ 0x200A) ∨ n = 0x2028 ∨ n = 0x2029 ∨ n = 0x202F ∨ n = 0x205F ∨ n = 0x3000)

def trimSpace (s : List Char) : List Char :=
  ((s.dropWhile isSpace).reverse.dropWhile isSpace).reverse

def splitTwo (sep : Char) (s : List Char) : Option (List Char × List Char) :=
  if sep ∈ s then some (s.takeWhile (· ≠ sep), (s.dropWhile (· ≠ sep)).tail) else none

def normalizeName (u : Runes) (s : String) : String :=
  String.ofList (u.toLower (trimSpace s.toList))

def digit (c : Char) : Option ℕ := if '0' ≤ c ∧ c ≤ '9' then some (c.toNat - 48) else none

def atoiFrom : Int64 → List Char → Option Int64
  | n, [] => some n
  | n, c :: cs => do atoiFrom (n * 10 + Int64.ofNat (← digit c)) cs

def strconvAtoi (s : List Char) : Option Int64 := if s = [] then none else atoiFrom 0 s

def parseHHMM (s : String) : ℤ :=
  let parsed := do
    let (hh, mm) ← splitTwo ':' (trimSpace s.toList)
    return (← strconvAtoi hh, ← strconvAtoi mm)
  match parsed with
  | none => -1
  | some (h, m) =>
    if h < 0 ∨ 24 < h ∨ m < 0 ∨ 60 ≤ m then -1
    else if h = 24 ∧ m = 0 then 1440
    else (h * 60 + m).toInt

def dayIdx (s : List Char) : Option ℕ :=
  ["SUN", "MON", "TUE", "WED", "THU", "FRI", "SAT"].idxOf? (String.ofList s)

def dayRange (last : ℕ) : ℕ → ℕ → UInt8 → UInt8
  | 0, _, mask => mask
  | left + 1, d, mask =>
    if d = (last + 1) % 7 then mask
    else
      let mask := mask ||| (1 <<< UInt8.ofNat d)
      if d = last then mask else dayRange last left ((d + 1) % 7) mask

def parseDays (u : Runes) (s : String) : UInt8 :=
  let s := u.toUpper (trimSpace s.toList)
  if s = [] ∨ s = ['*'] then 0xFF
  else
    match if ',' ∈ s then none else splitTwo '-' s with
    | some (a, b) =>
      match dayIdx a, dayIdx b with
      | some first, some last => dayRange last 7 first 0
      | _, _ => 0
    | none =>
      (s.splitOn ',').foldl (fun mask tok =>
        match dayIdx (trimSpace tok) with
        | some d => mask ||| (1 <<< UInt8.ofNat d)
        | none => mask) 0

def isLeap (y : ℕ) : Bool := y % 4 = 0 ∧ (y % 100 ≠ 0 ∨ y % 400 = 0)

def monthLengths (y : ℕ) : List ℕ :=
  [31, if isLeap y then 29 else 28, 31, 30, 31, 30, 31, 31, 30, 31, 30, 31]

def dayNumber (y m d : ℕ) : ℤ :=
  (365 * y + (y + 3) / 4 - (y + 99) / 100 + (y + 399) / 400 : ℕ) +
    ((monthLengths y).take (m - 1)).sum + d - 1 - 719528

def digits (s : List Char) : Option ℕ :=
  s.foldl (fun n c => do return 10 * (← n) + (← digit c)) (some 0)

def parseHolidayDate (s : String) : Option ℤ :=
  match s.toList with
  | [y1, y2, y3, y4, '-', m1, m2, '-', d1, d2] => do
    let y ← digits [y1, y2, y3, y4]
    let m ← digits [m1, m2]
    let d ← digits [d1, d2]
    let len ← if m = 0 then none else (monthLengths y)[m - 1]?
    if 1 ≤ d ∧ d ≤ len then some (dayNumber y m d) else none
  | _ => none

example : parseHolidayDate "1970-01-01" = some 0 ∧ parseHolidayDate "2024-02-29" = some 19782 ∧
    parseHolidayDate "2023-02-29" = none ∧ parseHolidayDate "2026-1-02" = none := by decide

structure TimeWindowDoc where
  name : String
  start : String
  «end» : String
  tz : String
  days : String
  complementOf : String
deriving DecidableEq, Repr

structure SwapEntryDoc (R : Type*) where
  pair : String
  tenor : String
  bidAmount : R
  askAmount : R
  skewAmount : R
  spreadAmount : R
deriving DecidableEq, Repr

structure HQEntryDoc (R : Type*) where
  pair : String
  tier : String
  bidAmount : R
  askAmount : R
  skewAmount : R
  spreadAmount : R
  window : String
deriving DecidableEq, Repr

structure SiteEntryDoc (R : Type*) where
  pair : String
  channel : String
  site : String
  bidAmount : R
  askAmount : R
  skewAmount : R
  spreadAmount : R
  window : String
deriving DecidableEq, Repr

structure CustomerEntryDoc (R : Type*) where
  customerID : String
  pair : String
  bidDelta : R
  askDelta : R
  skewDelta : R
  spreadDelta : R
  mode : String
  priority : ℤ
  window : String
deriving DecidableEq, Repr

structure PricingTableDoc (R : Type*) where
  version : Int64
  timeWindows : List TimeWindowDoc
  swapPoint : List (SwapEntryDoc R)
  hqMargin : List (HQEntryDoc R)
  siteMargin : List (SiteEntryDoc R)
  customerMargin : List (CustomerEntryDoc R)
  holidays : List String
deriving DecidableEq, Repr

variable {R : Type*}

def PricingTableDoc.empty : PricingTableDoc R := ⟨0, [], [], [], [], [], []⟩

def SwapEntryDoc.key (e : SwapEntryDoc R) : SwapKey := ⟨e.pair, e.tenor⟩

def SwapEntryDoc.margin (e : SwapEntryDoc R) : Margin R :=
  ⟨e.bidAmount, e.askAmount, e.skewAmount, e.spreadAmount⟩

def HQEntryDoc.key (u : Runes) (e : HQEntryDoc R) : HQKey :=
  ⟨e.pair, e.tier, normalizeName u e.window⟩

def HQEntryDoc.margin (e : HQEntryDoc R) : Margin R :=
  ⟨e.bidAmount, e.askAmount, e.skewAmount, e.spreadAmount⟩

def SiteEntryDoc.key (u : Runes) (e : SiteEntryDoc R) : SiteKey :=
  ⟨e.pair, e.channel, e.site, normalizeName u e.window⟩

def SiteEntryDoc.margin (e : SiteEntryDoc R) : Margin R :=
  ⟨e.bidAmount, e.askAmount, e.skewAmount, e.spreadAmount⟩

def TimeWindowDoc.rule (u : Runes) (w : TimeWindowDoc) : TimeWindowRule where
  name := w.name
  startMin := parseHHMM w.start
  endMin := parseHHMM w.end
  tz := w.tz
  daysMask := parseDays u w.days
  complementOf := w.complementOf

def CustomerEntryDoc.rule (u : Runes) (e : CustomerEntryDoc R) : CustomerRule R where
  customerID := e.customerID
  pair := e.pair
  bidDelta := e.bidDelta
  askDelta := e.askDelta
  skewDelta := e.skewDelta
  spreadDelta := e.spreadDelta
  mode := if e.mode = "" then "add" else e.mode
  priority := e.priority
  window := normalizeName u e.window

/-- A rule may follow another unless its priority is higher. -/
def Follows (x y : CustomerRule R) : Prop := ¬ y.priority < x.priority

instance : DecidableRel (Follows (R := R)) := fun _ _ => inferInstanceAs (Decidable (¬ _))

def holidayCalendar (holidays : List String) : Option Calendar :=
  match holidays.filterMap parseHolidayDate with
  | [] => none
  | dates => some (.holiday dates)

def buildPricingTable (u : Runes) (doc : PricingTableDoc R) : PricingTable R where
  version := doc.version.toInt
  swapPoint := Upsert.ofEntries SwapEntryDoc.key SwapEntryDoc.margin doc.swapPoint
  hqMargin := Upsert.ofEntries (HQEntryDoc.key u) HQEntryDoc.margin doc.hqMargin
  siteMargin := Upsert.ofEntries (SiteEntryDoc.key u) SiteEntryDoc.margin doc.siteMargin
  customerMargin := SwapSort.swapSort Follows (doc.customerMargin.map (CustomerEntryDoc.rule u))
  timeWindows := Upsert.ofEntries (fun w => normalizeName u w.name) (TimeWindowDoc.rule u)
    doc.timeWindows
  calendar := holidayCalendar doc.holidays

end Wtg.Pricing.Doc
