import LiquidStaking.Text.Bytes

/-!
# Base64

The standard alphabet.  Writing pads to a multiple of four characters.  Reading
takes padding where it belongs and also does without it; it refuses characters
outside the alphabet, a lone character in the last group, and a last character
with bits that encode nothing.
-/

namespace LiquidStaking.Base64

def symbol (n : Nat) : Char :=
  if n < 26 then Char.ofNat (65 + n)
  else if n < 52 then Char.ofNat (71 + n)
  else if n < 62 then Char.ofNat (n - 4)
  else if n = 62 then '+' else '/'

def value? (c : Char) : Option Nat :=
  if 'A' ≤ c ∧ c ≤ 'Z' then some (c.toNat - 65)
  else if 'a' ≤ c ∧ c ≤ 'z' then some (c.toNat - 71)
  else if '0' ≤ c ∧ c ≤ '9' then some (c.toNat + 4)
  else if c = '+' then some 62
  else if c = '/' then some 63
  else none

def encode : Bytes → List Char
  | [] => []
  | [a] =>
      let n := a.toNat * 16
      [symbol (n / 64), symbol (n % 64), '=', '=']
  | [a, b] =>
      let n := (a.toNat * 256 + b.toNat) * 4
      [symbol (n / 4096), symbol (n / 64 % 64), symbol (n % 64), '=']
  | a :: b :: c :: rest =>
      let n := (a.toNat * 256 + b.toNat) * 256 + c.toNat
      symbol (n / 262144) :: symbol (n / 4096 % 64) :: symbol (n / 64 % 64) :: symbol (n % 64)
        :: encode rest

def decodeValues : List Nat → Option Bytes
  | [] => some []
  | [_] => none
  | [a, b] =>
      if b % 16 = 0 then some [UInt8.ofNat (a * 4 + b / 16)] else none
  | [a, b, c] =>
      if c % 4 = 0 then
        some [UInt8.ofNat (a * 4 + b / 16), UInt8.ofNat (b % 16 * 16 + c / 4)]
      else none
  | a :: b :: c :: d :: rest =>
      (decodeValues rest).map fun bytes =>
        UInt8.ofNat (a * 4 + b / 16) :: UInt8.ofNat (b % 16 * 16 + c / 4)
          :: UInt8.ofNat (c % 4 * 64 + d) :: bytes

/-- Padding belongs to the third and fourth place of the last group. -/
def paddingFits (symbols padding : Nat) : Bool :=
  padding == 0 || (2 ≤ symbols % 4 && symbols % 4 + padding ≤ 4)

def decode? (text : List Char) : Option Bytes :=
  let symbols := text.takeWhile (· != '=')
  let padding := text.dropWhile (· != '=')
  if padding.all (· == '=') && paddingFits symbols.length padding.length then
    (symbols.mapM value?).bind decodeValues
  else none

end LiquidStaking.Base64
