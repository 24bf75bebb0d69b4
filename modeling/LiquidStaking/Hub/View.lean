import LiquidStaking.Attempt
import LiquidStaking.Hub.Error

/-!
# What the hub can see

`View` is read access to recorded state, `Surroundings` what the ledger reports.
A read gives `none` when what is stored cannot be read back, which aborts the
operation; a record that was never written is an ordinary answer.
-/

namespace LiquidStaking

structure View where
  chainIds : Readable (List ChainId)
  chain? : ChainId → Readable (Option Chain)
  epoch? : EpochKind → Readable (Option Epoch)
  deposit? : ChainId → Epoch → Readable (Option DepositBatch)
  /-- Deposit batches not yet done, by epoch. -/
  openDeposits : ChainId → Readable (List DepositBatch)
  redemption? : ChainId → Epoch → Readable (Option RedemptionBatch)
  /-- Redemption batches not yet done, by epoch. -/
  openRedemptions : ChainId → Readable (List RedemptionBatch)
  claim? : String → Readable (Option Claim)

structure Surroundings where
  now : Seconds
  supply : Denom → Amount
  balance : Denom → Amount

namespace View

def chain (v : View) (id : ChainId) : Attempt HubError Chain := do
  let found ← Attempt.promised (v.chain? id)
  Attempt.orRefuse found (.unknownChain id)

def epoch (v : View) (kind : EpochKind) : Attempt HubError Epoch := do
  let found ← Attempt.promised (v.epoch? kind)
  Attempt.orRefuse found (.noEpoch kind)

def deposit (v : View) (chain : ChainId) (epoch : Epoch) : Attempt HubError DepositBatch := do
  let found ← Attempt.promised (v.deposit? chain epoch)
  Attempt.orRefuse found (.noDepositBatch chain epoch)

def redemption (v : View) (chain : ChainId) (epoch : Epoch) :
    Attempt HubError RedemptionBatch := do
  let found ← Attempt.promised (v.redemption? chain epoch)
  Attempt.orRefuse found (.noRedemptionBatch chain epoch)

end View

end LiquidStaking
