import Mathlib.Data.List.Sort
import Mathlib.Data.String.Basic
import Wtg.Lib.GoMap
import Wtg.Mymq.Codec

/-! # Aliases of transactions

`Resolve` of `pkg/routing/registry.go`: a client names a transaction by an alias, and the rules that
operators keep say which exchange and routing key it stands for. -/

namespace Wtg.Routing.Rules

open Lib Mymq.Codec

structure Rule where
  aliasName : String
  exchange : String
  routingKey : String
  active : Bool
  deriving DecidableEq, Repr

/-- A pattern ends in a star. -/
def Rule.isPattern (r : Rule) : Bool := decide (r.aliasName.toList.getLast? = some '*')

/-- The alias without its star. -/
def Rule.stem (r : Rule) : List Char :=
  if r.isPattern then r.aliasName.toList.dropLast else r.aliasName.toList

inductive Err
  | routeNotFound
  | rkeyTooLong
  deriving DecidableEq, Repr

/-- Rules by alias. -/
structure Registry where
  rules : GoMap String Rule
  keyed : ∀ k r, rules.lookup k = some r → r.aliasName = k

namespace Registry

variable (reg : Registry)

def get (aliasName : String) : Except Err Rule :=
  match reg.rules.lookup aliasName with
  | some r => .ok r
  | none => .error .routeNotFound

def list : List Rule :=
  (reg.rules.entries.map Sigma.snd).insertionSort fun a b => a.aliasName ≤ b.aliasName

end Registry

def len (cs : List Char) : ℕ := (String.ofList cs).utf8ByteSize

/-- The longest stem wins; of two, the first. -/
def better (aliasName : String) (best : Option Rule) (r : Rule) : Option Rule :=
  if !r.active || !r.isPattern then best
  else if !r.stem.isPrefixOf aliasName.toList then best
  else
    match best with
    | none => some r
    | some b => if len b.stem < len r.stem then some r else best

/-- An exact rule goes before all patterns, even if it is not active. -/
def resolve (reg : Option Registry) (aliasName : String) : Except Err Rule :=
  match reg with
  | none => .error .routeNotFound
  | some reg =>
    if aliasName = "" then .error .routeNotFound
    else if '*' ∈ aliasName.toList then .error .routeNotFound
    else
      match reg.get aliasName with
      | .ok r => if !r.active then .error .routeNotFound else .ok r
      | .error _ =>
        match reg.list.foldl (better aliasName) none with
        | none => .error .routeNotFound
        | some best =>
          let routingKey := if best.routingKey = "" then aliasName else best.routingKey
          if LRkey < routingKey.utf8ByteSize then .error .rkeyTooLong
          else .ok { best with aliasName := aliasName, routingKey := routingKey }

end Wtg.Routing.Rules
