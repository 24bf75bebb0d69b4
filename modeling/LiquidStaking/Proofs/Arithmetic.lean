import LiquidStaking.Decimal
import LiquidStaking.Text.Bytes
import Mathlib.Algebra.Order.BigOperators.Group.List
import Mathlib.Algebra.Order.Group.Nat
import Mathlib.Data.Nat.Size

/-!
# Exact arithmetic

Every product is formed in a width that holds it, so an operation on amounts or
fixed-point values gives the exact quotient, rounded down, whenever the quotient
fits the width of the result, and gives nothing only when it does not.  A number
of 512 bits becomes one of 256 bits by its lowest bytes, and only if it is one.
-/

namespace LiquidStaking

namespace Width

/-- `n / d` rounded down: none without a divisor, or if it is wider than this. -/
def quotient? (bits n d : Nat) : Option Nat :=
  if 0 < d ∧ n / d < limit bits then some (n / d) else none

theorem quotient?_eq_some {bits n d q : Nat} :
    quotient? bits n d = some q ↔ 0 < d ∧ n / d = q ∧ q < limit bits := by
  unfold quotient?
  constructor
  · intro divided
    split at divided
    · rename_i fits
      cases divided
      exact ⟨fits.1, rfl, fits.2⟩
    · cases divided
  · rintro ⟨divisor, rfl, fits⟩
    exact if_pos ⟨divisor, fits⟩

theorem quotient?_of_pos {bits n d : Nat} (divisor : 0 < d) :
    quotient? bits n d = narrow? bits (n / d) := by
  unfold quotient? narrow?
  simp only [divisor, true_and]

theorem narrow?_of_le {bits n : Nat} (past : limit bits ≤ n) : narrow? bits n = none :=
  if_neg (Nat.not_lt.mpr past)

/-! ## Sums -/

theorem total_le {ns : List Nat} {bound : Nat} (bounded : ∀ n ∈ ns, n ≤ bound) :
    total ns ≤ ns.length * bound :=
  List.sum_le_card_nsmul ns bound bounded

theorem total_lt {ns : List Nat} (few : ns.length < limit 64)
    (light : ∀ n ∈ ns, n < limit 64) : total ns < limit 128 := by
  have whole : total ns ≤ ns.length * limit 64 :=
    total_le fun n member => Nat.le_of_lt (light n member)
  have room : ns.length * limit 64 < limit 64 * limit 64 :=
    Nat.mul_lt_mul_of_pos_right few (limit_pos 64)
  exact Nat.lt_of_le_of_lt whole room

theorem total_pos {ns : List Nat} (present : ns ≠ []) (positive : ∀ n ∈ ns, 0 < n) :
    0 < total ns := by
  cases ns with
  | nil => exact absurd rfl present
  | cons n ns =>
      have own := positive n List.mem_cons_self
      rw [total_cons]
      omega

theorem total_dropLast {α : Type} (f : α → Nat) {xs : List α} (present : xs ≠ []) :
    total (xs.map f) = total (xs.dropLast.map f) + f (xs.getLast present) := by
  calc total (xs.map f)
      = total ((xs.dropLast ++ [xs.getLast present]).map f) := by
        rw [List.dropLast_append_getLast]
    _ = total (xs.dropLast.map f) + f (xs.getLast present) := by
        rw [List.map_append, total_append, List.map_singleton, total_cons, total_nil, Nat.add_zero]

/-! ## Products -/

theorem limit_mul (bits more : Nat) : limit bits * limit more = limit (bits + more) :=
  (Nat.pow_add 2 bits more).symm

theorem mul_lt_limit {bits more wide a b : Nat} (left : a < limit bits) (right : b < limit more)
    (wider : bits + more ≤ wide) : a * b < limit wide := by
  have product : a * b < limit (bits + more) := by
    rw [← limit_mul]
    exact Nat.mul_lt_mul'' left right
  exact Nat.lt_of_lt_of_le product (Nat.pow_le_pow_right (by decide) wider)

theorem mul?_of_lt {bits a b : Nat} (fits : a * b < limit bits) : mul? bits a b = some (a * b) :=
  narrow?_of_lt fits

theorem mulDivFloor?_of_lt {x numer : Amount} (product : x * numer < limit 256)
    (denom : Amount) : mulDivFloor? x numer denom = quotient? 128 (x * numer) denom := by
  unfold mulDivFloor?
  split
  · rename_i zero
    simp [quotient?, zero]
  · rename_i divisor
    rw [mul?_of_lt product, Option.bind_some, quotient?_of_pos (Nat.pos_of_ne_zero divisor)]

theorem floor_of_mulDivFloor? {x numer denom q : Amount}
    (divided : mulDivFloor? x numer denom = some q) : x * numer / denom = q := by
  unfold mulDivFloor? at divided
  split at divided
  · cases divided
  · obtain ⟨product, formed, quotient⟩ := Option.bind_eq_some_iff.mp divided
    obtain ⟨rfl, -⟩ := narrow?_eq_some.mp formed
    exact (narrow?_eq_some.mp quotient).1

end Width

/-! ## Bytes of a wide number -/

namespace Bytes

def ofLittleEndian (bytes : Bytes) : Nat :=
  bytes.foldr (fun byte n => n * 256 + byte.toNat) 0

theorem take_littleEndian (size more n : Nat) :
    (littleEndian (size + more) n).take size = littleEndian size n := by
  induction size generalizing n with
  | zero => rfl
  | succ size ih =>
      rw [Nat.succ_add, littleEndian, littleEndian, List.take_succ_cons, ih]

def widen (n : Nat) : Nat := ofLittleEndian (littleEndian 32 n)

def narrowed? (n : Nat) : Option Nat :=
  if 256 < n.size then none else some (ofLittleEndian ((littleEndian 64 n).take 32))

theorem widen_eq {n : Nat} (fits : n < Width.limit 256) : widen n = n :=
  foldr_littleEndian ((by decide : Nat.pow 256 32 = Width.limit 256) ▸ fits)

theorem narrowed?_eq (n : Nat) : narrowed? n = Width.narrow? 256 n := by
  unfold narrowed? Width.narrow?
  by_cases fits : n < Width.limit 256
  · have short : n.size ≤ 256 := Nat.size_le.mpr fits
    have lower : ofLittleEndian ((littleEndian 64 n).take 32) = n := by
      rw [take_littleEndian 32 32]
      exact widen_eq fits
    rw [if_neg (Nat.not_lt.mpr short), if_pos fits, lower]
  · have long : 256 < n.size := Nat.lt_of_not_le fun short => fits (Nat.size_le.mp short)
    rw [if_pos long, if_neg fits]

end Bytes

/-! ## Fixed-point values -/

namespace Decimal

open Width

theorem scale_pos : 0 < scale := Nat.pow_pos (by decide)

theorem scale_lt : scale < limit 60 := by decide

theorem ofAmount_fits {x : Amount} (amount : x < limit 128) : (ofAmount x).Fits :=
  mul_lt_limit amount scale_lt (by decide)

theorem mul_raw_lt {a b : Decimal} (left : a.Fits) (right : b.Fits) :
    a.raw * b.raw < limit 512 :=
  mul_lt_limit left right (by decide)

theorem mul_scale_lt {a : Decimal} (fits : a.Fits) : a.raw * scale < limit 512 :=
  mul_lt_limit fits scale_lt (by decide)

theorem mul?_eq {a b : Decimal} (left : a.Fits) (right : b.Fits) :
    a.mul? b = (quotient? 256 (a.raw * b.raw) scale).map mk := by
  rw [mul?, mul?_of_lt (mul_raw_lt left right), Option.bind_some, ofRaw?,
    quotient?_of_pos scale_pos]

theorem div?_eq {a : Decimal} (fits : a.Fits) (b : Decimal) :
    a.div? b = (quotient? 256 (a.raw * scale) b.raw).map mk := by
  unfold div?
  split
  · rename_i zero
    simp [quotient?, zero]
  · rename_i divisor
    rw [mul?_of_lt (mul_scale_lt fits), Option.bind_some, ofRaw?,
      quotient?_of_pos (Nat.pos_of_ne_zero divisor)]

theorem floor?_eq (d : Decimal) : d.floor? = quotient? 128 d.raw scale :=
  (quotient?_of_pos scale_pos).symm

/-- The operations are exact division, rounded down.  Each product they divide is
formed in full, so they refuse only a division by zero and a result of too many
bits; and what is narrowed from 512 bits to 256 keeps its value. -/
theorem arithmetic_exact {x numer : Amount} {a b : Decimal} (amount : x < limit 128)
    (factor : numer < limit 128) (left : a.Fits) (right : b.Fits) (denom wide : Nat) :
    mulDivFloor? x numer denom = quotient? 128 (x * numer) denom ∧
      a.mul? b = (quotient? 256 (a.raw * b.raw) scale).map mk ∧
      a.div? b = (quotient? 256 (a.raw * scale) b.raw).map mk ∧
      a.floor? = quotient? 128 a.raw scale ∧
      (0 < denom → ofRatio? x denom = some ⟨x * scale / denom⟩) ∧
      (Width.mul? 256 x numer = some (x * numer) ∧ Width.mul? 256 x scale = some (x * scale) ∧
        Width.mul? 512 a.raw b.raw = some (a.raw * b.raw) ∧
        Width.mul? 512 a.raw scale = some (a.raw * scale)) ∧
      Bytes.narrowed? wide = narrow? 256 wide ∧
      (∀ n, Bytes.narrowed? wide = some n ↔ wide = n ∧ wide < limit 256) ∧
      Bytes.widen a.raw = a.raw := by
  have ratio : 0 < denom → ofRatio? x denom = some ⟨x * scale / denom⟩ := by
    intro divisor
    exact if_neg (Nat.ne_of_gt divisor)
  have narrowed (n : Nat) : Bytes.narrowed? wide = some n ↔ wide = n ∧ wide < limit 256 := by
    rw [Bytes.narrowed?_eq]
    exact narrow?_eq_some
  have products : Width.mul? 256 x numer = some (x * numer) ∧
      Width.mul? 256 x scale = some (x * scale) ∧
      Width.mul? 512 a.raw b.raw = some (a.raw * b.raw) ∧
      Width.mul? 512 a.raw scale = some (a.raw * scale) :=
    ⟨mul?_of_lt (mul_lt_limit amount factor (by decide)), mul?_of_lt (ofAmount_fits amount),
      mul?_of_lt (mul_raw_lt left right), mul?_of_lt (mul_scale_lt left)⟩
  exact ⟨mulDivFloor?_of_lt (mul_lt_limit amount factor (by decide)) denom, mul?_eq left right,
    div?_eq left b, floor?_eq a, ratio, products, Bytes.narrowed?_eq wide, narrowed,
    Bytes.widen_eq left⟩

/-- The largest amount survives a factor of three thirds and not one of two, the
largest value survives a factor of one and not itself, and the first number past
256 bits is not narrowed. -/
theorem arithmetic_exact_extreme :
    (Width.max 128 < limit 128 ∧ 3 < limit 128 ∧ Decimal.Fits ⟨Width.max 256⟩ ∧ one.Fits) ∧
      mulDivFloor? (Width.max 128) 3 3 = some (Width.max 128) ∧
      mulDivFloor? (Width.max 128) 2 1 = none ∧
      mul? ⟨Width.max 256⟩ one = some ⟨Width.max 256⟩ ∧
      mul? ⟨Width.max 256⟩ ⟨Width.max 256⟩ = none ∧
      div? ⟨Width.max 256⟩ one = some ⟨Width.max 256⟩ ∧
      Bytes.narrowed? (limit 256) = none := by
  have amount : Width.max 128 < limit 128 := by decide
  have three : 3 < limit 128 := by decide
  have value : Decimal.Fits ⟨Width.max 256⟩ := by decide
  have unit : one.Fits := by decide
  obtain ⟨thirds, kept, divided, -, -, -, narrowed, -⟩ :=
    arithmetic_exact amount three value unit 3 (limit 256)
  obtain ⟨doubled, squared, -⟩ :=
    arithmetic_exact amount (by decide : 2 < limit 128) value value 1 0
  exact ⟨⟨amount, three, value, unit⟩, thirds.trans (by decide), doubled.trans (by decide),
    kept.trans (by decide), squared.trans (by decide), divided.trans (by decide),
    narrowed.trans (by decide)⟩

end Decimal

end LiquidStaking
