import LiquidStaking.Json.Value
import LiquidStaking.Text.Bytes

/-!
# Reading JSON

A document may be surrounded by blanks and nothing else.  Objects are strict:
commas between members, none before the first or after the last.  In an array a
comma leads an item, and one item may do without, so that `[1,2]`, `[,1,2]` and
`[,1 2]` all hold two items; `[1,]` is refused.

A value that starts with neither quote nor bracket is a literal or a whole number
without superfluous zeros, signs or fractions.  That is all there is to it when a
document is read strictly.  When it is read leniently, such a value is whatever
stands before the next comma or closing bracket, and if that is no literal, it is
kept as a word that means nothing: `[,1 2]` then holds the one word `1 2`.

`value?` takes fuel, one unit for every value, item and member.  A document of
`n` characters needs at most `2 * n + 2` units: a bracket costs two, an item one
beside its comma, and a member one beside its name.
-/

namespace LiquidStaking.Json

def isBlank (c : Char) : Bool := c == ' ' || c == '\n' || c == '\t' || c == '\r'

def skipBlanks (text : List Char) : List Char := text.dropWhile isBlank

/-! ## Strings -/

/-- Cut a string at its closing quote, escapes left as they are. -/
def cutString? : List Char → Option (List Char × List Char)
  | [] => none
  | '"' :: rest => some ([], rest)
  | '\\' :: c :: rest => (cutString? rest).map fun (body, rest) => ('\\' :: c :: body, rest)
  | c :: rest => (cutString? rest).map fun (body, rest) => (c :: body, rest)

def hex4? (a b c d : Char) : Option Nat := do
  let a ← Bytes.hexValue? a
  let b ← Bytes.hexValue? b
  let c ← Bytes.hexValue? c
  let d ← Bytes.hexValue? d
  return ((a * 16 + b) * 16 + c) * 16 + d

def escaped? (c : Char) : Option Char :=
  if c = '"' ∨ c = '\\' ∨ c = '/' then some c
  else if c = 'b' then some (Char.ofNat 8)
  else if c = 'f' then some (Char.ofNat 12)
  else if c = 'n' then some (Char.ofNat 10)
  else if c = 'r' then some (Char.ofNat 13)
  else if c = 't' then some (Char.ofNat 9)
  else none

def isHighSurrogate (unit : Nat) : Bool := 0xD800 ≤ unit && unit < 0xDC00

def isLowSurrogate (unit : Nat) : Bool := 0xDC00 ≤ unit && unit < 0xE000

def joinSurrogates (high low : Nat) : Char :=
  Char.ofNat (0x10000 + (high - 0xD800) * 0x400 + (low - 0xDC00))

/-- The text that a body with escapes stands for.  A high surrogate stays open,
over other escaped characters if need be, until a low one closes it.  Characters
that are not escaped must not be control characters, nor stand in an open pair. -/
def unescape? : Option Nat → List Char → Option (List Char)
  | none, [] => some []
  | some _, [] => none
  | opened, '\\' :: 'u' :: a :: b :: c :: d :: rest => do
      let unit ← hex4? a b c d
      if isHighSurrogate unit then
        if opened.isNone then unescape? (some unit) rest else none
      else if isLowSurrogate unit then
        match opened with
        | some high => (unescape? none rest).map (joinSurrogates high unit :: ·)
        | none => none
      else (unescape? opened rest).map (Char.ofNat unit :: ·)
  | opened, '\\' :: c :: rest => do
      let c ← escaped? c
      (unescape? opened rest).map (c :: ·)
  | _, ['\\'] => none
  | opened, c :: rest =>
      if opened.isSome || c.toNat < 32 then none else (unescape? none rest).map (c :: ·)

def readBody? (body : List Char) : Option (List Char) :=
  if body.contains '\\' then unescape? none body else some body

def string? (text : List Char) : Option (String × List Char) := do
  let (body, rest) ← cutString? text
  let body ← readBody? body
  return (String.ofList body, rest)

/-! ## Literals and words -/

inductive Strictness where
  /-- Every value has to mean something. -/
  | strict
  /-- Values that nothing looks at may be words. -/
  | lenient
  deriving DecidableEq, Repr

def after? : List Char → List Char → Option (List Char)
  | [], text => some text
  | c :: wanted, d :: text => if c = d then after? wanted text else none
  | _ :: _, [] => none

def natural? : List Char → Option (Nat × List Char)
  | '0' :: rest => some (0, rest)
  | text =>
      (Digits.readPlain? 64 (text.takeWhile Digits.isDigit)).map fun n =>
        (n, text.dropWhile Digits.isDigit)

def literal? : List Char → Option (Json × List Char)
  | 'n' :: rest => (after? "ull".toList rest).map fun rest => (.null, rest)
  | 't' :: rest => (after? "rue".toList rest).map fun rest => (.bool true, rest)
  | 'f' :: rest => (after? "alse".toList rest).map fun rest => (.bool false, rest)
  | '-' :: rest =>
      (natural? rest).bind fun (n, rest) =>
        if n ≤ Width.limit 63 then some (.negative n, rest) else none
  | text => (natural? text).map fun (n, rest) => (.nat n, rest)

def endsWord (c : Char) : Bool := c == ',' || c == ']' || c == '\x7d'

def word? (text : List Char) : Option (Json × List Char) :=
  let body := (skipBlanks (text.takeWhile (!endsWord ·)).reverse).reverse
  let rest := text.dropWhile (!endsWord ·)
  match literal? body with
  | some (value, []) => some (value, rest)
  | _ => if body = [] ∨ rest = [] then none else some (.word (String.ofList body), rest)

def bare? : Strictness → List Char → Option (Json × List Char)
  | .strict, text => literal? text
  | .lenient, text => word? text

/-! ## Values -/

mutual

def value? (strictness : Strictness) : Nat → List Char → Option (Json × List Char)
  | 0, _ => none
  | fuel + 1, text =>
      match skipBlanks text with
      | '"' :: rest => (string? rest).map fun (value, rest) => (.string value, rest)
      | '[' :: rest =>
          (items? strictness fuel true rest).map fun (items, rest) => (.array items, rest)
      | '\x7b' :: rest =>
          match skipBlanks rest with
          | '\x7d' :: rest => some (.object [], rest)
          | _ =>
              (members? strictness fuel rest).map fun (members, rest) => (.object members, rest)
      | text => bare? strictness text

/-- The items up to the closing bracket, of which one may still come without a
comma before it if the flag says so. -/
def items? (strictness : Strictness) : Nat → Bool → List Char → Option (List Json × List Char)
  | 0, _, _ => none
  | fuel + 1, spare, text =>
      match skipBlanks text with
      | ']' :: rest => some ([], rest)
      | ',' :: rest =>
          match value? strictness fuel rest with
          | none => none
          | some (item, rest) =>
              (items? strictness fuel spare rest).map fun (items, rest) => (item :: items, rest)
      | text =>
          if spare then
            match value? strictness fuel text with
            | none => none
            | some (item, rest) =>
                (items? strictness fuel false rest).map fun (items, rest) => (item :: items, rest)
          else none

def members? (strictness : Strictness) :
    Nat → List Char → Option (List (String × Json) × List Char)
  | 0, _ => none
  | fuel + 1, text =>
      match member? strictness fuel text with
      | none => none
      | some (member, rest) =>
          match skipBlanks rest with
          | ',' :: rest =>
              (members? strictness fuel rest).map fun (members, rest) => (member :: members, rest)
          | '\x7d' :: rest => some ([member], rest)
          | _ => none

def member? (strictness : Strictness) : Nat → List Char → Option ((String × Json) × List Char)
  | 0, _ => none
  | fuel + 1, text =>
      match skipBlanks text with
      | '"' :: rest =>
          match string? rest with
          | none => none
          | some (name, rest) =>
              match skipBlanks rest with
              | ':' :: rest =>
                  (value? strictness fuel rest).map fun (value, rest) => ((name, value), rest)
              | _ => none
      | _ => none

end

/-- Arrays and objects stand in each other at most this deep. -/
def maxDepth : Nat := 127

def parse? (strictness : Strictness) (text : List Char) : Option Json := do
  let (document, rest) ← value? strictness (2 * text.length + 2) text
  if skipBlanks rest = [] ∧ document.depth ≤ maxDepth then some document else none

def ofText? (strictness : Strictness) (text : String) : Option Json :=
  parse? strictness text.toList

end LiquidStaking.Json
