import Mathlib.Data.Finset.Basic
import Mathlib.Data.List.DropRight
import Mathlib.Data.String.Basic
import Wtg.Lib.Names
import Wtg.Pricing.Doc

/-! # The policy engine

`Engine` of `pkg/policy/policy.go`: the switches with which operators stop transactions. -/

namespace Wtg.Policy.Operations

open Lib Pricing.Doc List

/-- What the engine uses of packages `unicode` and `strconv`: the case tables, and `%q`. -/
structure Text where
  runes : Runes
  quote : String → String

namespace Text

variable (t : Text)

def up (c : Char) : Char := if c.toNat < 128 then c.toUpper else t.runes.upper c

def toUpper (s : String) : String := String.ofList (t.runes.toUpper s.toList)

def trim (s : String) : String := String.ofList (trimSpace s.toList)

def fold (s : String) : String := t.toUpper (trim s)

def trimUpper (s : String) : String := trim (t.toUpper s)

/-- **The case table is sane**: an upper-case rune is its own upper case, and upper-casing neither
makes nor removes blanks. -/
structure Lawful (t : Text) : Prop where
  up_up : ∀ c, t.up (t.up c) = t.up c
  isSpace_up : ∀ c, isSpace (t.up c) = isSpace c

variable {t}

lemma trimSpace_map {f : Char → Char} (hf : ∀ c, isSpace (f c) = isSpace c) (s : List Char) :
    trimSpace (s.map f) = (trimSpace s).map f := by
  have hcomp : isSpace ∘ f = isSpace := funext hf
  unfold trimSpace
  rw [dropWhile_map, hcomp, ← map_reverse, dropWhile_map, hcomp, map_reverse]

lemma trimUpper_eq_fold (ht : t.Lawful) (s : String) : t.trimUpper s = t.fold s := by
  unfold trimUpper fold trim toUpper
  rw [String.toList_ofList, String.toList_ofList]
  exact congrArg String.ofList (trimSpace_map ht.isSpace_up s.toList)

lemma toUpper_toUpper (ht : t.Lawful) (s : String) : t.toUpper (t.toUpper s) = t.toUpper s := by
  have hmap : ∀ l : List Char, (l.map t.up).map t.up = l.map t.up := by
    intro l
    rw [map_map]
    exact map_congr_left fun c _ => ht.up_up c
  unfold toUpper
  rw [String.toList_ofList]
  exact congrArg String.ofList (hmap s.toList)

lemma trimSpace_trimSpace (s : List Char) : trimSpace (trimSpace s) = trimSpace s := by
  have hb : (trimSpace s).dropWhile isSpace = trimSpace s := by
    -- what is left is the start of a text that does not start with a blank
    rcases htrim : trimSpace s with _ | ⟨c, cs⟩
    · rfl
    · obtain ⟨rest, hrest⟩ : trimSpace s <+: s.dropWhile isSpace := List.rdropWhile_prefix _ _
      have hc : ¬ isSpace c = true := by
        intro hc
        have hidem := dropWhile_idempotent isSpace (l := s)
        rw [← hrest, htrim, cons_append, dropWhile_cons_of_pos hc] at hidem
        have hlen := congrArg length hidem
        have hle := (dropWhile_suffix isSpace (l := cs ++ rest)).length_le
        rw [length_cons] at hlen
        omega
      rw [dropWhile_cons_of_neg hc]
  calc trimSpace (trimSpace s)
      = ((trimSpace s).dropWhile isSpace).rdropWhile isSpace := rfl
    _ = ((s.dropWhile isSpace).rdropWhile isSpace).rdropWhile isSpace := by rw [hb]; rfl
    _ = trimSpace s := rdropWhile_idempotent isSpace _

lemma trimUpper_trimUpper (ht : t.Lawful) (s : String) :
    t.trimUpper (t.trimUpper s) = t.trimUpper s := by
  have htrim : trim (trim (t.toUpper s)) = trim (t.toUpper s) := by
    unfold trim
    rw [String.toList_ofList, trimSpace_trimSpace]
  calc t.trimUpper (t.trimUpper s)
      = t.toUpper (trim (trim (t.toUpper s))) := trimUpper_eq_fold ht _
    _ = t.toUpper (trim (t.toUpper s)) := by rw [htrim]
    _ = t.trimUpper (t.toUpper s) := (trimUpper_eq_fold ht _).symm
    _ = t.trimUpper s := congrArg trim (toUpper_toUpper ht s)

def ascii : Text := ⟨⟨id, id⟩, fun s => "\"" ++ s ++ "\""⟩

lemma ascii_lawful : ascii.Lawful := by
  have hlow : ∀ n < 128, ascii.up (ascii.up (Char.ofNat n)) = ascii.up (Char.ofNat n) ∧
      isSpace (ascii.up (Char.ofNat n)) = isSpace (Char.ofNat n) := by decide
  have hhigh : ∀ c : Char, ¬ c.toNat < 128 → ascii.up c = c := fun c hc => if_neg hc
  constructor
  · intro c
    by_cases hc : c.toNat < 128
    · simpa using (hlow c.toNat hc).1
    · rw [hhigh c hc, hhigh c hc]
  · intro c
    by_cases hc : c.toNat < 128
    · simpa using (hlow c.toNat hc).2
    · rw [hhigh c hc]

end Text

def zeroTime : ℤ := -62135596800 * 1000000000

def isZero (time : ℤ) : Bool := decide (time = zeroTime)

structure MaintenanceWindow where
  start : ℤ := zeroTime
  stop : ℤ := zeroTime
  message : String := ""
deriving DecidableEq, Repr

def MaintenanceWindow.active (w : MaintenanceWindow) (now : ℤ) : Bool :=
  if isZero w.start || isZero w.stop then false
  else if !decide (w.start < w.stop) then false
  else decide (w.start ≤ now) && decide (now < w.stop)

structure State where
  killSwitch : Bool := false
  killSwitchChannels : List String := []
  maintenance : MaintenanceWindow := {}
  blockedSymbols : List String := []
  blockedRoutingKeys : List String := []
  updatedAt : ℤ := zeroTime
  updatedBy : String := ""
deriving DecidableEq, Repr

def normalizeUpper (t : Text) (l : List String) : List String := sortedNames t.trimUpper "" l

def normalizeChannels (t : Text) (l : List String) : List String := collect t.fold "" ∅ l

def normalizeBlocked (t : Text) (s : State) : State :=
  { s with blockedSymbols := normalizeUpper t s.blockedSymbols
           blockedRoutingKeys := normalizeUpper t s.blockedRoutingKeys }

/-- A list with the set of its elements. -/
structure Listing where
  list : List String
  set : Finset String
  agree : set = list.toFinset

def sortStrings (l : List String) : List String := l.insertionSort (· ≤ ·)

lemma toFinset_sortStrings (l : List String) : (sortStrings l).toFinset = l.toFinset :=
  toFinset_eq_of_perm _ _ (perm_insertionSort (· ≤ ·) l)

namespace Listing

def add (l : Listing) (x : String) : Listing :=
  if x ∈ l.set then l
  else ⟨sortStrings (l.list ++ [x]), insert x l.set, by
    rw [toFinset_sortStrings, l.agree]
    ext y
    rw [Finset.mem_insert, List.mem_toFinset, List.mem_toFinset, List.mem_append,
      List.mem_singleton, or_comm]⟩

def remove (l : Listing) (x : String) : Listing :=
  ⟨l.list.filter (· ≠ x), l.set.erase x, by
    rw [l.agree]
    ext y
    simp [and_comm]⟩

end Listing

/-- The state with the sets that are looked up. -/
structure Engine where
  state : State
  blockedSymbols : Finset String
  blockedRkeys : Finset String
  symbols_agree : blockedSymbols = state.blockedSymbols.toFinset
  rkeys_agree : blockedRkeys = state.blockedRoutingKeys.toFinset

lemma Engine.ext_state : ∀ {e e' : Engine}, e.state = e'.state → e = e'
  | ⟨_, _, _, hs, hr⟩, ⟨_, _, _, hs', hr'⟩, h => by
    obtain rfl := h
    obtain rfl := hs.trans hs'.symm
    obtain rfl := hr.trans hr'.symm
    rfl

inductive Err
  | invalidWindow
  | symbolEmpty
  | routingKeyEmpty
deriving DecidableEq, Repr

def newEngine : Engine := ⟨{}, ∅, ∅, rfl, rfl⟩

namespace Engine

variable (t : Text) (now : ℤ) (e : Engine)

def symbols : Listing := ⟨e.state.blockedSymbols, e.blockedSymbols, e.symbols_agree⟩

def rkeys : Listing := ⟨e.state.blockedRoutingKeys, e.blockedRkeys, e.rkeys_agree⟩

def withSymbols (l : Listing) : Engine :=
  { e with state := { e.state with blockedSymbols := l.list }
           blockedSymbols := l.set, symbols_agree := l.agree }

def withRkeys (l : Listing) : Engine :=
  { e with state := { e.state with blockedRoutingKeys := l.list }
           blockedRkeys := l.set, rkeys_agree := l.agree }

def touch (updatedBy : String) : Engine :=
  { e with state := { e.state with updatedAt := now, updatedBy := updatedBy } }

def ofState (s : State) : Engine :=
  ⟨s, s.blockedSymbols.toFinset, s.blockedRoutingKeys.toFinset, rfl, rfl⟩

def applyRemote (s : State) : Engine := ofState (normalizeBlocked t s)

def setState (s : State) (updatedBy : String) : Engine :=
  ofState (normalizeBlocked t { s with updatedAt := now, updatedBy := updatedBy })

def setKillSwitchScoped (active : Bool) (channels : List String) (updatedBy : String) : Engine :=
  { e with state := { e.state with
      killSwitch := active, killSwitchChannels := normalizeChannels t channels
      updatedAt := now, updatedBy := updatedBy } }

def setKillSwitch (active : Bool) (updatedBy : String) : Engine :=
  e.setKillSwitchScoped t now active [] updatedBy

def setMaintenance (w : MaintenanceWindow) (updatedBy : String) : Except Err Engine :=
  if !isZero w.start && !isZero w.stop && !decide (w.start < w.stop) then .error .invalidWindow
  else .ok ({ e with state := { e.state with maintenance := w } }.touch now updatedBy)

def addBlockedSymbol (sym updatedBy : String) : Except Err Engine :=
  if t.trimUpper sym = "" then .error .symbolEmpty
  else .ok ((e.withSymbols (e.symbols.add (t.trimUpper sym))).touch now updatedBy)

def removeBlockedSymbol (sym updatedBy : String) : Option Engine :=
  if t.trimUpper sym = "" then none
  else if t.trimUpper sym ∉ e.blockedSymbols then none
  else some ((e.withSymbols (e.symbols.remove (t.trimUpper sym))).touch now updatedBy)

def addBlockedRoutingKey (rk updatedBy : String) : Except Err Engine :=
  if t.trimUpper rk = "" then .error .routingKeyEmpty
  else .ok ((e.withRkeys (e.rkeys.add (t.trimUpper rk))).touch now updatedBy)

def removeBlockedRoutingKey (rk updatedBy : String) : Option Engine :=
  if t.trimUpper rk = "" then none
  else if t.trimUpper rk ∉ e.blockedRkeys then none
  else some ((e.withRkeys (e.rkeys.remove (t.trimUpper rk))).touch now updatedBy)

end Engine

inductive Mutator
  | setState (s : State) (updatedBy : String)
  | setKillSwitch (active : Bool) (updatedBy : String)
  | setKillSwitchScoped (active : Bool) (channels : List String) (updatedBy : String)
  | setMaintenance (w : MaintenanceWindow) (updatedBy : String)
  | addBlockedSymbol (sym updatedBy : String)
  | removeBlockedSymbol (sym updatedBy : String)
  | addBlockedRoutingKey (rk updatedBy : String)
  | removeBlockedRoutingKey (rk updatedBy : String)
deriving DecidableEq, Repr

def notify (e : Engine) : Engine × Option State := (e, some e.state)

def Mutator.run (t : Text) (now : ℤ) (e : Engine) : Mutator → Engine × Option State
  | .setState s updatedBy => notify (Engine.setState t now s updatedBy)
  | .setKillSwitch active updatedBy => notify (e.setKillSwitch t now active updatedBy)
  | .setKillSwitchScoped active channels updatedBy =>
    notify (e.setKillSwitchScoped t now active channels updatedBy)
  | .setMaintenance w updatedBy =>
    match e.setMaintenance now w updatedBy with
    | .ok e' => notify e'
    | .error _ => (e, none)
  | .addBlockedSymbol sym updatedBy =>
    match e.addBlockedSymbol t now sym updatedBy with
    | .ok e' => notify e'
    | .error _ => (e, none)
  | .removeBlockedSymbol sym updatedBy =>
    match e.removeBlockedSymbol t now sym updatedBy with
    | some e' => notify e'
    | none => (e, none)
  | .addBlockedRoutingKey rk updatedBy =>
    match e.addBlockedRoutingKey t now rk updatedBy with
    | .ok e' => notify e'
    | .error _ => (e, none)
  | .removeBlockedRoutingKey rk updatedBy =>
    match e.removeBlockedRoutingKey t now rk updatedBy with
    | some e' => notify e'
    | none => (e, none)

inductive Reason
  | killSwitch
  | maintenance
  | routingKey
  | symbol
deriving DecidableEq, Repr

def Reason.code : Reason → String
  | .killSwitch => "kill_switch"
  | .maintenance => "maintenance"
  | .routingKey => "blocked_routing_key"
  | .symbol => "blocked_symbol"

inductive Decision
  | allow
  | block (reason : Reason) (message : String)
deriving DecidableEq, Repr

def Decision.reason : Decision → Option Reason
  | .allow => none
  | .block r _ => some r

def Decision.allowed : Decision → Bool
  | .allow => true
  | .block _ _ => false

structure Request where
  channel : String
  routingKey : String
  symbol : String
deriving DecidableEq, Repr

namespace Engine

variable (t : Text) (now : ℤ) (e : Engine) (req : Request)

def checkKillSwitch : Option Decision :=
  if e.state.killSwitch then
    if e.state.killSwitchChannels = [] then
      some (.block .killSwitch "운영 정책으로 모든 거래가 일시 차단됨")
    else if t.fold req.channel ∈ e.state.killSwitchChannels then
      some (.block .killSwitch ("채널 " ++ t.quote (t.fold req.channel) ++ " 거래가 일시 차단됨 (kill switch)"))
    else none
  else none

def checkRest : Decision :=
  if e.state.maintenance.active now then
    .block .maintenance (if e.state.maintenance.message = "" then "정비 진행 중"
      else e.state.maintenance.message)
  else if t.fold req.routingKey ≠ "" ∧ t.fold req.routingKey ∈ e.blockedRkeys then
    .block .routingKey ("transaction " ++ t.quote (t.fold req.routingKey) ++ " 가 일시 차단됨")
  else if t.fold req.symbol ≠ "" ∧ t.fold req.symbol ∈ e.blockedSymbols then
    .block .symbol ("심볼 " ++ t.quote (t.fold req.symbol) ++ " 거래가 일시 차단됨")
  else .allow

/-- `Check`: the first test that refuses decides. -/
def check : Decision := (e.checkKillSwitch t req).getD (e.checkRest t now req)

end Engine

end Wtg.Policy.Operations
