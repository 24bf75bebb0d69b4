import LiquidStaking.Width

/-!
# Bytes

Byte sequences, the UTF-8 form of text and the big-endian form of 64-bit
numbers.
-/

namespace LiquidStaking

abbrev Bytes := List UInt8

namespace Bytes

def ofText (text : String) : Bytes := text.toUTF8.data.toList

/-- The text these bytes encode; none unless they are valid UTF-8. -/
def toText? (bytes : Bytes) : Option String := String.fromUTF8? ⟨bytes.toArray⟩

def textLength (text : String) : Nat := text.utf8ByteSize

def littleEndian : Nat → Nat → Bytes
  | 0, _ => []
  | size + 1, n => UInt8.ofNat (n % 256) :: littleEndian size (n / 256)

def bigEndian (size n : Nat) : Bytes := (littleEndian size n).reverse

def ofBigEndian (bytes : Bytes) : Nat :=
  bytes.foldl (fun n byte => n * 256 + byte.toNat) 0

def toNumber? (bytes : Bytes) : Option Nat :=
  if bytes.length = 8 then some (ofBigEndian bytes) else none

theorem toText?_ofText (text : String) : toText? (ofText text) = some text := by
  simp only [toText?, ofText, String.fromUTF8?, String.toUTF8_eq_toByteArray, Array.toArray_toList]
  exact dif_pos text.isValidUTF8

theorem length_littleEndian (size n : Nat) : (littleEndian size n).length = size := by
  induction size generalizing n with
  | zero => rfl
  | succ size ih => simp [littleEndian, ih]

theorem foldr_littleEndian {size n : Nat} (fits : n < Nat.pow 256 size) :
    (littleEndian size n).foldr (fun byte n => n * 256 + byte.toNat) 0 = n := by
  induction size generalizing n with
  | zero =>
      have : n < 1 := fits
      simp only [littleEndian, List.foldr_nil]
      omega
  | succ size ih =>
      have fits : n < Nat.pow 256 size * 256 := fits
      have low : (UInt8.ofNat (n % 256)).toNat = n % 256 := by
        rw [UInt8.toNat_ofNat']
        omega
      rw [littleEndian, List.foldr_cons, ih (by omega), low]
      omega

theorem length_bigEndian (size n : Nat) : (bigEndian size n).length = size := by
  rw [bigEndian, List.length_reverse, length_littleEndian]

theorem toNumber?_bigEndian {n : Nat} (fits : n < Width.limit 64) :
    toNumber? (bigEndian 8 n) = some n := by
  have whole : ofBigEndian (bigEndian 8 n) = n := by
    rw [ofBigEndian, bigEndian, List.foldl_reverse]
    exact foldr_littleEndian fits
  rw [toNumber?, if_pos (length_bigEndian 8 n), whole]

/-! ## Hexadecimal text -/

def hexDigit (upper : Bool) (d : Nat) : Char :=
  if d < 10 then Char.ofNat (48 + d)
  else Char.ofNat ((if upper then 55 else 87) + d)

def toHex (upper : Bool) (bytes : Bytes) : String :=
  String.ofList (bytes.flatMap fun byte =>
    [hexDigit upper (byte.toNat / 16), hexDigit upper (byte.toNat % 16)])

def hexValue? (c : Char) : Option Nat :=
  if '0' ≤ c ∧ c ≤ '9' then some (c.toNat - 48)
  else if 'a' ≤ c ∧ c ≤ 'f' then some (c.toNat - 87)
  else if 'A' ≤ c ∧ c ≤ 'F' then some (c.toNat - 55)
  else none

def ofHex? : List Char → Option Bytes
  | [] => some []
  | [_] => none
  | high :: low :: rest => do
      let high ← hexValue? high
      let low ← hexValue? low
      let bytes ← ofHex? rest
      return UInt8.ofNat (16 * high + low) :: bytes

end Bytes

end LiquidStaking
