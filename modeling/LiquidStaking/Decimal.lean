import LiquidStaking.Width
import LiquidStaking.Text.Digits

/-!
# Fixed-point decimals

An unsigned number with eighteen decimal places, held as the integer it becomes
when multiplied by `10 ^ 18`.  The integer has 256 bits; products of two such
integers are formed in 512.  All results are rounded down.
-/

namespace LiquidStaking

structure Decimal where
  raw : Nat
  deriving DecidableEq, Repr

namespace Decimal

def places : Nat := 18

def scale : Nat := Nat.pow 10 places

def Fits (d : Decimal) : Prop := d.raw < Width.limit 256

instance (d : Decimal) : Decidable d.Fits := inferInstanceAs (Decidable (_ < _))

def ofRaw? (raw : Nat) : Option Decimal := (Width.narrow? 256 raw).map Decimal.mk

def zero : Decimal := ⟨0⟩

def one : Decimal := ⟨scale⟩

def isZero (d : Decimal) : Bool := d.raw == 0

def ofAmount (x : Amount) : Decimal := ⟨x * scale⟩

def ofRatio? (numer denom : Amount) : Option Decimal :=
  if denom = 0 then none else some ⟨numer * scale / denom⟩

def mul? (a b : Decimal) : Option Decimal :=
  (Width.mul? 512 a.raw b.raw).bind fun product => ofRaw? (product / scale)

def div? (a b : Decimal) : Option Decimal :=
  if b.raw = 0 then none
  else (Width.mul? 512 a.raw scale).bind fun product => ofRaw? (product / b.raw)

def floor? (d : Decimal) : Option Amount := Width.narrow? 128 (d.raw / scale)

def compare (a b : Decimal) : Ordering := Ord.compare a.raw b.raw

/-! ## Text -/

def dropTrailingZeros (digits : List Char) : List Char :=
  (digits.reverse.dropWhile (· == '0')).reverse

def padded (n : Nat) : List Char :=
  let digits := Digits.render n
  List.replicate (places - digits.length) '0' ++ digits

/-- The integer part, and unless the value is whole a point and the places up
to the last that is not zero. -/
def display (d : Decimal) : List Char :=
  let whole := Digits.render (d.raw / scale)
  let places := d.raw % scale
  if places = 0 then whole else whole ++ '.' :: dropTrailingZeros (padded places)

def toText (d : Decimal) : String := String.ofList d.display

/-- The stored form is the integer behind the value. -/
def rawText (d : Decimal) : String := Digits.ofNat d.raw

def ofRawText? (text : String) : Option Decimal :=
  (Digits.readWidth? 256 text.toList).map Decimal.mk

end Decimal

end LiquidStaking
