import LiquidStaking.Decimal

/-!
# Redemption rates

What one unit of a derivative is worth in the staked token.  Both conversions
round down, so a deposit never receives more derivative than it pays for and a
redemption never takes more than its share.
-/

namespace LiquidStaking

structure Rate where
  value : Decimal
  deriving DecidableEq, Repr

namespace Rate

def par : Rate := ⟨.one⟩

def ofBacking? (backing supply : Amount) : Option Rate :=
  (Decimal.ofRatio? backing supply).map Rate.mk

def toDerivative? (rate : Rate) (native : Amount) : Option Amount :=
  (Decimal.div? (.ofAmount native) rate.value).bind Decimal.floor?

def toNative? (rate : Rate) (derivative : Amount) : Option Amount :=
  (Decimal.mul? (.ofAmount derivative) rate.value).bind Decimal.floor?

def toText (rate : Rate) : String := rate.value.toText

end Rate

end LiquidStaking
