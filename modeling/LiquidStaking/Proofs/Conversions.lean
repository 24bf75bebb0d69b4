import LiquidStaking.Proofs.Arithmetic
import LiquidStaking.Rate
import Mathlib.Algebra.Order.Floor.Div

/-!
# Conversions

A conversion goes through fixed-point values and back, and rounds only once: it is
the exact quotient rounded down, or nothing where that is no amount.  So more is
never converted to less, and what is converted there and back has not grown.  A
whole supply converted at the rate of its backing gives the backing back, up to
what the eighteen places of the rate cut off.
-/

namespace LiquidStaking

theorem Width.quotient?_mono {bits n m d q : Nat} (le : n ≤ m)
    (divided : quotient? bits m d = some q) : ∃ p ≤ q, quotient? bits n d = some p := by
  obtain ⟨divisor, rfl, fits⟩ := quotient?_eq_some.mp divided
  have less : n / d ≤ m / d := Nat.div_le_div_right le
  exact ⟨n / d, less, quotient?_eq_some.mpr ⟨divisor, rfl, Nat.lt_of_le_of_lt less fits⟩⟩

namespace Rate

open Width Decimal

variable {rate : Rate} {x y : Amount}

theorem floor_twice (x raw : Nat) : x * scale * scale / raw / scale = x * scale / raw := by
  rw [Nat.div_div_eq_div_mul, Nat.mul_div_mul_right _ _ scale_pos]

theorem places_cancel (x raw : Nat) : x * scale * raw / scale = x * raw := by
  rw [Nat.mul_right_comm, Nat.mul_div_cancel _ scale_pos]

theorem toDerivative?_eq (amount : x < limit 128) (rate : Rate) :
    rate.toDerivative? x = quotient? 128 (x * scale) rate.value.raw := by
  have whole : x * scale < limit 188 := mul_lt_limit amount scale_lt (by decide)
  have raised : x * scale * scale < limit 256 := mul_lt_limit whole scale_lt (by decide)
  rw [toDerivative?, div?_eq (ofAmount_fits amount), ofAmount]
  by_cases divisor : 0 < rate.value.raw
  · rw [quotient?_of_pos divisor, quotient?_of_pos divisor,
      narrow?_of_lt (Nat.lt_of_le_of_lt (Nat.div_le_self _ _) raised), Option.map_some,
      Option.bind_some, floor?, floor_twice]
  · simp [quotient?, divisor]

theorem toNative?_eq (fits : rate.value.Fits) (amount : x < limit 128) :
    rate.toNative? x = quotient? 128 (x * rate.value.raw) scale := by
  rw [toNative?, mul?_eq (ofAmount_fits amount) fits, ofAmount, quotient?_of_pos scale_pos,
    quotient?_of_pos scale_pos, places_cancel]
  by_cases within : x * rate.value.raw < limit 256
  · rw [narrow?_of_lt within, Option.map_some, Option.bind_some, floor?]
  · -- A product past 256 bits is refused early, and would be no amount.
    have past : limit 128 ≤ x * rate.value.raw / scale := by
      rw [Nat.le_div_iff_mul_le scale_pos]
      exact Nat.le_trans (by decide) (Nat.le_of_not_lt within)
    rw [narrow?_of_le (Nat.le_of_not_lt within), narrow?_of_le past, Option.map_none,
      Option.bind_none]

theorem floor_of_toDerivative? {m : Amount} (priced : rate.toDerivative? x = some m) :
    x * scale / rate.value.raw = m := by
  simp only [toDerivative?, Decimal.div?, Option.bind_eq_some_iff] at priced
  obtain ⟨value, divided, floored⟩ := priced
  split at divided
  · cases divided
  · simp only [Option.bind_eq_some_iff, ofRaw?, Option.map_eq_some_iff] at divided
    obtain ⟨product, formed, raw, narrowed, rfl⟩ := divided
    obtain ⟨rfl, -⟩ := narrow?_eq_some.mp formed
    obtain ⟨rfl, -⟩ := narrow?_eq_some.mp narrowed
    exact (floor_twice x rate.value.raw).symm.trans (narrow?_eq_some.mp floored).1

theorem floor_of_toNative? {n : Amount} (priced : rate.toNative? x = some n) :
    x * rate.value.raw / scale = n := by
  simp only [toNative?, Decimal.mul?, Option.bind_eq_some_iff, ofRaw?,
    Option.map_eq_some_iff] at priced
  obtain ⟨value, ⟨product, formed, raw, narrowed, rfl⟩, floored⟩ := priced
  obtain ⟨rfl, -⟩ := narrow?_eq_some.mp formed
  obtain ⟨rfl, -⟩ := narrow?_eq_some.mp narrowed
  have floored := (narrow?_eq_some.mp floored).1
  rwa [ofAmount, places_cancel] at floored

theorem toNative?_toDerivative? (fits : rate.value.Fits) (amount : x < limit 128) {m : Amount}
    (priced : rate.toDerivative? x = some m) : ∃ n ≤ x, rate.toNative? m = some n := by
  rw [toDerivative?_eq amount] at priced
  obtain ⟨-, rfl, small⟩ := quotient?_eq_some.mp priced
  have worth : x * scale / rate.value.raw * rate.value.raw / scale ≤ x := by
    apply Nat.div_le_of_le_mul
    rw [Nat.mul_comm scale]
    exact Nat.div_mul_le_self _ _
  refine ⟨_, worth, ?_⟩
  rw [toNative?_eq fits small]
  exact quotient?_eq_some.mpr ⟨scale_pos, rfl, Nat.lt_of_le_of_lt worth amount⟩

/-! ## The rate of a backing -/

theorem ofBacking?_eq (backing : Amount) {supply : Amount} (issued : 0 < supply) :
    ofBacking? backing supply = some ⟨⟨backing * scale / supply⟩⟩ := by
  rw [ofBacking?, ofRatio?, if_neg (Nat.ne_of_gt issued), Option.map_some]

/-- The rate loses less than one unit of its last place, so the supply loses less
than one such unit for each of its own. -/
theorem supply_mul_rate (backing : Nat) {supply : Nat} (issued : 0 < supply) :
    supply * (backing * scale / supply) ≤ backing * scale ∧
      backing * scale ≤ supply * (backing * scale / supply) + (supply - 1) := by
  have parts := Nat.div_add_mod (backing * scale) supply
  have rest := Nat.mod_lt (backing * scale) issued
  constructor
  · exact Nat.mul_div_le _ _
  · omega

theorem backing_restored (backing : Nat) {supply : Nat} (issued : 0 < supply) :
    supply * (backing * scale / supply) / scale ≤ backing ∧
      backing - supply * (backing * scale / supply) / scale ≤ (supply - 1) ⌈/⌉ scale := by
  obtain ⟨below, above⟩ := supply_mul_rate backing issued
  generalize supply * (backing * scale / supply) = worth at below above ⊢
  have rounded : supply - 1 ≤ scale * ((supply - 1) ⌈/⌉ scale) :=
    (ceilDiv_le_iff_le_mul scale_pos).mp (Nat.le_refl _)
  generalize (supply - 1) ⌈/⌉ scale = lost at rounded ⊢
  have floor := Nat.lt_mul_div_succ worth scale_pos
  constructor
  · exact Nat.div_le_of_le_mul (Nat.mul_comm _ scale ▸ below)
  · have close : backing < worth / scale + 1 + lost := by
      apply Nat.lt_of_mul_lt_mul_left (a := scale)
      rw [Nat.mul_add, Nat.mul_comm scale backing]
      omega
    omega

/-- Both conversions are exact quotients rounded down, so they keep the order of
amounts and never bring back more than went in; and a supply converted at the rate
of its backing brings back all of it that eighteen places can hold. -/
theorem conversions_exact {rate : Rate} {x : Amount} (fits : rate.value.Fits)
    (amount : x < limit 128) :
    rate.toDerivative? x = quotient? 128 (x * scale) rate.value.raw ∧
      rate.toNative? x = quotient? 128 (x * rate.value.raw) scale ∧
      (∀ m, rate.toDerivative? x = some m →
        ∀ y ≤ x, ∃ m' ≤ m, rate.toDerivative? y = some m') ∧
      (∀ n, rate.toNative? x = some n → ∀ y ≤ x, ∃ n' ≤ n, rate.toNative? y = some n') ∧
      (∀ m, rate.toDerivative? x = some m → ∃ n ≤ x, rate.toNative? m = some n) ∧
      ∀ backing supply, backing < limit 128 → 0 < supply → supply < limit 128 →
        ∃ price : Rate, ∃ n ≤ backing, ofBacking? backing supply = some price ∧
          price.value.Fits ∧ price.toNative? supply = some n ∧
          backing - n ≤ (supply - 1) ⌈/⌉ scale := by
  refine ⟨toDerivative?_eq amount rate, toNative?_eq fits amount, ?_, ?_, ?_, ?_⟩
  · intro m priced y le
    rw [toDerivative?_eq amount] at priced
    rw [toDerivative?_eq (Nat.lt_of_le_of_lt le amount)]
    exact quotient?_mono (Nat.mul_le_mul_right scale le) priced
  · intro n priced y le
    rw [toNative?_eq fits amount] at priced
    rw [toNative?_eq fits (Nat.lt_of_le_of_lt le amount)]
    exact quotient?_mono (Nat.mul_le_mul_right rate.value.raw le) priced
  · intro m priced
    exact toNative?_toDerivative? fits amount priced
  · intro backing supply backed issued small
    have value : Decimal.Fits ⟨backing * scale / supply⟩ :=
      Nat.lt_of_le_of_lt (Nat.div_le_self _ _) (ofAmount_fits backed)
    obtain ⟨below, close⟩ := backing_restored backing issued
    refine ⟨_, _, below, ofBacking?_eq backing issued, value, ?_, close⟩
    rw [toNative?_eq value small]
    exact quotient?_eq_some.mpr ⟨scale_pos, rfl, Nat.lt_of_le_of_lt below backed⟩

/-- At a rate of 1.1, 1000 buys 909, which is worth no more than 1000; and of a backing
of 7 shared by `3 * 10 ^ 18`, at most 3 is cut off. -/
theorem conversions_exact_sample :
    Decimal.Fits ⟨11 * Nat.pow 10 17⟩ ∧ 1000 < limit 128 ∧
      toDerivative? ⟨⟨11 * Nat.pow 10 17⟩⟩ 1000 = some 909 ∧
      (∃ n ≤ 1000, toNative? ⟨⟨11 * Nat.pow 10 17⟩⟩ 909 = some n) ∧
      ∃ price : Rate, ∃ n ≤ 7, ofBacking? 7 (3 * scale) = some price ∧ price.value.Fits ∧
        price.toNative? (3 * scale) = some n ∧ 7 - n ≤ 3 := by
  have fits : Decimal.Fits ⟨11 * Nat.pow 10 17⟩ := by decide
  have amount : 1000 < limit 128 := by decide
  obtain ⟨bought, -, -, -, back, shared⟩ :=
    @conversions_exact ⟨⟨11 * Nat.pow 10 17⟩⟩ 1000 fits amount
  have minted := bought.trans (by decide : _ = some 909)
  obtain ⟨price, n, below, priced, value, worth, close⟩ :=
    shared 7 (3 * scale) (by decide) (by decide) (by decide)
  exact ⟨fits, amount, minted, back 909 minted, price, n, below, priced, value, worth,
    Nat.le_trans close (by decide)⟩

end Rate

end LiquidStaking
