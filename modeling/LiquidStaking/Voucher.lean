import LiquidStaking.Chain
import LiquidStaking.Text.Sha256

/-!
# Vouchers

What a token received over a transfer channel is called on the hub's ledger.
-/

namespace LiquidStaking

def voucherDenom (channel : String) (denom : Denom) : Denom :=
  "ibc/" ++ Bytes.toHex true
    (Sha256.hash (Bytes.ofText ("transfer/" ++ channel ++ "/" ++ denom)))

end LiquidStaking
