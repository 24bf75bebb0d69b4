import LiquidStaking.Json.Printer
import LiquidStaking.Json.Reader
import LiquidStaking.Width

/-!
# Documents of a type

`Document` says how values of a type are written as JSON and which JSON is read
as one.  A record is an object; a member it needs must occur exactly once, one
that may be absent at most once, and members it does not know are skipped, even
if what they hold is no value, which is why records are read leniently.  A
variant is an object with a single member, named for the variant.
-/

namespace LiquidStaking

class Document (α : Type) where
  toJson : α → Json
  ofJson? : Json → Option α
  strictness : Json.Strictness := .lenient

abbrev Members := List (String × Json)

namespace Members

def named (members : Members) (name : String) : List Json :=
  members.filterMap fun (n, value) => if n = name then some value else none

def get? (members : Members) (name : String) : Option Json :=
  match members.named name with
  | [value] => some value
  | _ => none

def getOptional? (members : Members) (name : String) : Option Json :=
  match members.named name with
  | [] => some .null
  | [value] => some value
  | _ => none

def read? {α : Type} [Document α] (members : Members) (name : String) : Option α :=
  (members.get? name).bind Document.ofJson?

def onlyKnown (members : Members) (names : List String) : Bool :=
  members.all fun (name, _) => names.contains name

end Members

namespace Json

def asNat? : Json → Option Nat
  | .nat n => if n < Width.limit 64 then some n else none
  | _ => none

def asBool? : Json → Option Bool
  | .bool b => some b
  | _ => none

def asString? : Json → Option String
  | .string s => some s
  | _ => none

def asAmount? : Json → Option Amount
  | .string s => Digits.readPlain? 128 s.toList
  | _ => none

def asArray? : Json → Option (List Json)
  | .array items => some items
  | _ => none

def asObject? : Json → Option Members
  | .object members => some members
  | _ => none

def asVariant? : Json → Option (String × Json)
  | .object [member] => some member
  | _ => none

def variant (name : String) (members : Members) : Json := .object [(name, .object members)]

def asOptional? {α : Type} (f : Json → Option α) : Json → Option (Option α)
  | .null => some none
  | document => (f document).map some

end Json

namespace Members

def amount? (members : Members) (name : String) : Option Amount :=
  (members.get? name).bind Json.asAmount?

def nat? (members : Members) (name : String) : Option Nat :=
  (members.get? name).bind Json.asNat?

def string? (members : Members) (name : String) : Option String :=
  (members.get? name).bind Json.asString?

def bool? (members : Members) (name : String) : Option Bool :=
  (members.get? name).bind Json.asBool?

def optionalNat? (members : Members) (name : String) : Option (Option Nat) :=
  (members.getOptional? name).bind (Json.asOptional? Json.asNat?)

def optionalString? (members : Members) (name : String) : Option (Option String) :=
  (members.getOptional? name).bind (Json.asOptional? Json.asString?)

end Members

instance : Document String where
  toJson := Json.string
  ofJson? := Json.asString?

/-- A list is read as strictly as its items are. -/
instance {α : Type} [Document α] : Document (List α) where
  toJson values := .array (values.map Document.toJson)
  ofJson? document := document.asArray?.bind fun items => items.mapM Document.ofJson?
  strictness := Document.strictness α

/-- A list of epochs or of other whole numbers. -/
instance : Document Nat where
  toJson := Json.nat
  ofJson? := Json.asNat?
  strictness := .strict

namespace Document

variable {α : Type} [Document α]

def toBytes (value : α) : Bytes := Bytes.ofText (toJson value).toText

def ofText? (text : String) : Option α := (Json.ofText? (strictness α) text).bind ofJson?

def ofBytes? (bytes : Bytes) : Option α := (Bytes.toText? bytes).bind ofText?

end Document

end LiquidStaking
