import LiquidStaking.Width

/-!
# Decimal digits

`render` writes a number without superfluous zeros; `read?` reads any digits,
leading zeros included, and the empty text as zero.  Reading back what was
written gives the number.
-/

namespace LiquidStaking.Digits

def isDigit (c : Char) : Bool := '0' ≤ c && c ≤ '9'

def digit (d : Nat) : Char := Char.ofNat (48 + d)

def digitValue (c : Char) : Nat := c.toNat - 48

def render (n : Nat) : List Char :=
  if n < 10 then [digit n] else render (n / 10) ++ [digit (n % 10)]
termination_by n

def readOn? (value : Nat) : List Char → Option Nat
  | [] => some value
  | c :: rest => if isDigit c then readOn? (10 * value + digitValue c) rest else none

def read? (text : List Char) : Option Nat := readOn? 0 text

def readWidth? (bits : Nat) (text : List Char) : Option Nat :=
  (read? text).bind (Width.narrow? bits)

/-- A number as people write it: at least one digit, a plus sign allowed. -/
def readSigned? (bits : Nat) : List Char → Option Nat
  | '+' :: c :: rest => readWidth? bits (c :: rest)
  | '+' :: [] => none
  | [] => none
  | text => readWidth? bits text

def readPlain? (bits : Nat) : List Char → Option Nat
  | [] => none
  | ['0'] => some 0
  | '0' :: _ => none
  | text => readWidth? bits text

def ofNat (n : Nat) : String := String.ofList (render n)

/-! ## Reading back -/

theorem readOn?_append (value : Nat) (front back : List Char) :
    readOn? value (front ++ back) = (readOn? value front).bind fun v => readOn? v back := by
  induction front generalizing value with
  | nil => rfl
  | cons c rest ih =>
      by_cases h : isDigit c
      · simp [readOn?, h, ih]
      · simp [readOn?, h]

theorem isDigit_digit (d : Nat) (small : d < 10) : isDigit (digit d) = true := by
  have := (by decide : ∀ d : Fin 10, isDigit (digit d.val) = true)
  exact this ⟨d, small⟩

theorem digitValue_digit (d : Nat) (small : d < 10) : digitValue (digit d) = d := by
  have := (by decide : ∀ d : Fin 10, digitValue (digit d.val) = d.val)
  exact this ⟨d, small⟩

theorem read?_render (n : Nat) : read? (render n) = some n := by
  unfold read?
  induction n using Nat.strongRecOn with
  | ind n ih =>
      rw [render]
      by_cases small : n < 10
      · simp [small, readOn?, isDigit_digit, digitValue_digit]
      · have low : n % 10 < 10 := Nat.mod_lt _ (by decide)
        rw [if_neg small, readOn?_append, ih (n / 10) (by omega)]
        simp [readOn?, isDigit_digit _ low, digitValue_digit _ low]
        omega

end LiquidStaking.Digits
