import LiquidStaking.Json.Document

/-!
# Fields of requests

A request is a variant of named fields.  The fields of an execution or a query
may also be given in order, as an array, and a number among them may be minus
zero, which is zero.  Fields it does not know are refused, so nothing in a
request is skipped and its text is read strictly.
-/

namespace LiquidStaking

/-- Zero has no sign. -/
def Json.withoutSign : Json → Json
  | .negative 0 => .nat 0
  | document => document

def Members.ofFields? (names : List String) (document : Json) : Option Members :=
  let fields : Option Members :=
    match document with
    | .object members => if Members.onlyKnown members names then some members else none
    | .array items => if items.length = names.length then some (names.zip items) else none
    | _ => none
  fields.map fun members => members.map fun (name, value) => (name, value.withoutSign)

def Members.ofNamed? (names : List String) : Json → Option Members
  | .object members => if Members.onlyKnown members names then some members else none
  | _ => none

end LiquidStaking
