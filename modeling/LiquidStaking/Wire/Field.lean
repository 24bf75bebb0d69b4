import LiquidStaking.Text.Bytes

/-!
# Protocol buffers on the wire

A message is a sequence of fields.  A field starts with a key that names its
number and the shape of what follows: a varint, four or eight bytes, a length
and that many bytes, or a group of fields up to an end key.  Groups are read
over, not kept.

`fields?` cuts a message into its fields and refuses what is not well formed.
Its fuel is the number of bytes; every field and every key in a group takes one.
-/

namespace LiquidStaking.Wire

/-! ## Varints -/

/-- Seven bits a byte, the lowest first; every byte but the last has its high
bit set. -/
def putVarint (n : Nat) : Bytes :=
  if n < 128 then [UInt8.ofNat n] else UInt8.ofNat (n % 128 + 128) :: putVarint (n / 128)
termination_by n

/-- Read a varint of at most `limit` bytes, of which the last possible one
holds a single bit. -/
def varintWithin? : Nat → Bytes → Option (Nat × Bytes)
  | 0, _ => none
  | _ + 1, [] => none
  | more + 1, byte :: rest =>
      if byte.toNat < 128 then
        if more = 0 ∧ 2 ≤ byte.toNat then none else some (byte.toNat, rest)
      else (varintWithin? more rest).map fun (n, rest) => (byte.toNat - 128 + 128 * n, rest)

def varint? (bytes : Bytes) : Option (Nat × Bytes) := varintWithin? 10 bytes

/-! ## Fields -/

inductive Payload where
  | varint (value : Nat)
  | fixed64 (bytes : Bytes)
  | delimited (bytes : Bytes)
  | group
  | fixed32 (bytes : Bytes)
  deriving DecidableEq, Repr

structure Field where
  number : Nat
  payload : Payload
  deriving DecidableEq, Repr

def maxDepth : Nat := 100

def take? (count : Nat) (bytes : Bytes) : Option (Bytes × Bytes) :=
  if count ≤ bytes.length then some (bytes.take count, bytes.drop count) else none

def key? (bytes : Bytes) : Option ((Nat × Nat) × Bytes) := do
  let (key, rest) ← varint? bytes
  if key < Width.limit 32 ∧ key / 8 ≠ 0 then some ((key / 8, key % 8), rest) else none

def scalar? (shape : Nat) (bytes : Bytes) : Option (Payload × Bytes) :=
  match shape with
  | 0 => (varint? bytes).map fun (n, rest) => (.varint n, rest)
  | 1 => (take? 8 bytes).map fun (body, rest) => (.fixed64 body, rest)
  | 2 => do
      let (length, rest) ← varint? bytes
      let (body, rest) ← take? length rest
      return (.delimited body, rest)
  | 5 => (take? 4 bytes).map fun (body, rest) => (.fixed32 body, rest)
  | _ => none

/-- Read over the fields of a group up to the end key of the same number. -/
def skipGroup? : Nat → Nat → Nat → Bytes → Option Bytes
  | 0, _, _, _ => none
  | fuel + 1, depth, number, bytes => do
      let ((inner, shape), rest) ← key? bytes
      if shape = 4 then
        if inner = number then some rest else none
      else
        match depth with
        | 0 => none
        | below + 1 =>
            if shape = 3 then
              let rest ← skipGroup? fuel below inner rest
              skipGroup? fuel (below + 1) number rest
            else
              let (_, rest) ← scalar? shape rest
              skipGroup? fuel (below + 1) number rest

def field? (fuel depth : Nat) (bytes : Bytes) : Option (Field × Bytes) := do
  let ((number, shape), rest) ← key? bytes
  if shape = 3 then
    let rest ← skipGroup? fuel (depth - 1) number rest
    return (⟨number, .group⟩, rest)
  else
    let (payload, rest) ← scalar? shape rest
    return (⟨number, payload⟩, rest)

def fieldsWithin? : Nat → Nat → Bytes → Option (List Field)
  | _, _, [] => some []
  | 0, _, _ :: _ => none
  | fuel + 1, depth, bytes => do
      let (field, rest) ← field? fuel depth bytes
      let fields ← fieldsWithin? fuel depth rest
      return field :: fields

def fields? (depth : Nat) (bytes : Bytes) : Option (List Field) :=
  fieldsWithin? bytes.length depth bytes

namespace Field

def number? (field : Field) : Option Nat :=
  match field.payload with
  | .varint n => some n
  | _ => none

def bytes? (field : Field) : Option Bytes :=
  match field.payload with
  | .delimited bytes => some bytes
  | _ => none

def text? (field : Field) : Option String := field.bytes?.bind Bytes.toText?

end Field

def merge? {α : Type} (depth : Nat) (step : α → Field → Option α) (start : α) (bytes : Bytes) :
    Option α :=
  (fields? depth bytes).bind fun fields => fields.foldlM step start

/-! ## Writing -/

def putKey (number shape : Nat) : Bytes := putVarint (number * 8 + shape)

def putDelimited (number : Nat) (bytes : Bytes) : Bytes :=
  putKey number 2 ++ putVarint bytes.length ++ bytes

def putText (number : Nat) (text : String) : Bytes :=
  if text = "" then [] else putDelimited number (Bytes.ofText text)

def putNumber (number n : Nat) : Bytes :=
  if n = 0 then [] else putKey number 0 ++ putVarint n

end LiquidStaking.Wire
