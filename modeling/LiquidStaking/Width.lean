/-!
# Numbers of fixed width

Amounts have 128 bits, clocks, epochs and weights 64, fixed-point values 256,
and products of fixed-point values 512.  Values are natural numbers; an
operation names the width its result has to fit and what happens when it does
not: `narrow?` and the operations ending in `?` give `none`, `clamp` and
`addSat` stop at the largest value.
-/

namespace LiquidStaking

/-- An amount of some token, below `2 ^ 128`. -/
abbrev Amount := Nat

abbrev Seconds := Nat

namespace Width

def limit (bits : Nat) : Nat := Nat.pow 2 bits

def max (bits : Nat) : Nat := limit bits - 1

def narrow? (bits n : Nat) : Option Nat :=
  if n < limit bits then some n else none

def clamp (bits n : Nat) : Nat := min n (max bits)

def add? (bits a b : Nat) : Option Nat := narrow? bits (a + b)

def sub? (a b : Nat) : Option Nat :=
  if b ≤ a then some (a - b) else none

def mul? (bits a b : Nat) : Option Nat := narrow? bits (a * b)

def addSat (bits a b : Nat) : Nat := clamp bits (a + b)

def total (ns : List Nat) : Nat := ns.foldr (· + ·) 0

def sum? (bits : Nat) (ns : List Nat) : Option Nat := narrow? bits (total ns)

/-- `x * numer / denom` rounded down, none if `denom` is zero or the quotient
is no amount.  The product is formed in 256 bits. -/
def mulDivFloor? (x numer denom : Amount) : Option Amount :=
  if denom = 0 then none
  else (mul? 256 x numer).bind fun product => narrow? 128 (product / denom)

theorem limit_pos (bits : Nat) : 0 < limit bits := Nat.two_pow_pos bits

theorem narrow?_eq_some {bits n m : Nat} :
    narrow? bits n = some m ↔ n = m ∧ n < limit bits := by
  unfold narrow?
  split
  · simp_all
  · simp_all
    omega

theorem narrow?_of_lt {bits n : Nat} (fits : n < limit bits) : narrow? bits n = some n := by
  simp [narrow?, fits]

theorem clamp_of_lt {bits n : Nat} (fits : n < limit bits) : clamp bits n = n := by
  unfold clamp max
  omega

theorem clamp_lt (bits n : Nat) : clamp bits n < limit bits := by
  have := limit_pos bits
  unfold clamp max
  omega

theorem addSat_le (bits a b : Nat) : addSat bits a b ≤ a + b := Nat.min_le_left _ _

theorem addSat_of_lt {bits a b : Nat} (fits : a + b < limit bits) : addSat bits a b = a + b :=
  clamp_of_lt fits

theorem le_addSat {bits a : Nat} (fits : a < limit bits) (b : Nat) : a ≤ addSat bits a b := by
  unfold addSat clamp max
  omega

@[simp] theorem total_nil : total [] = 0 := rfl

@[simp] theorem total_cons (n : Nat) (ns : List Nat) : total (n :: ns) = n + total ns := rfl

@[simp] theorem total_append (front back : List Nat) :
    total (front ++ back) = total front + total back := by
  induction front with
  | nil => simp
  | cons n front ih => simp [ih, Nat.add_assoc]

end Width

end LiquidStaking
