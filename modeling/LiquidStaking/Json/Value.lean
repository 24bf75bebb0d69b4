import LiquidStaking.Text.Digits

/-!
# JSON documents

Documents as stored and exchanged.  Numbers are whole: naturals of 64 bits, or
negative ones that a signed number of 64 bits can hold.  Members keep their
order and may repeat a name.  A document may hold words that say nothing, such
as a fraction; no type reads them, but a member that is skipped may be one.
-/

namespace LiquidStaking

inductive Json where
  | null
  | bool (value : Bool)
  | nat (value : Nat)
  /-- Minus this number. -/
  | negative (magnitude : Nat)
  | string (value : String)
  | array (items : List Json)
  | object (members : List (String × Json))
  /-- Text that stands where a value should and is none. -/
  | word (text : String)
  deriving Repr

namespace Json

def amount (n : Nat) : Json := .string (Digits.ofNat n)

def ofOption {α : Type} (f : α → Json) : Option α → Json
  | none => .null
  | some value => f value

mutual

def depth : Json → Nat
  | .array items => depthOfItems items + 1
  | .object members => depthOfMembers members + 1
  | _ => 0

def depthOfItems : List Json → Nat
  | [] => 0
  | item :: rest => max item.depth (depthOfItems rest)

def depthOfMembers : List (String × Json) → Nat
  | [] => 0
  | (_, value) :: rest => max value.depth (depthOfMembers rest)

end

end Json

end LiquidStaking
