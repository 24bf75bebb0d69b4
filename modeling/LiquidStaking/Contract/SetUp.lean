import LiquidStaking.Contract.Config
import LiquidStaking.Contract.Message
import LiquidStaking.Contract.Request.Setup
import LiquidStaking.Roles

/-!
# Setting the contract up

The sender becomes the creator.  Timeouts that are not given take their usual
values: half an hour for an account to execute, a minute for a transfer.
-/

namespace LiquidStaking

def usualAccountTimeout : Seconds := 1800

def usualTransferTimeout : Seconds := 60

def Setup.config (setup : Setup) : Config where
  delegationEpoch := setup.delegationEpoch
  undelegationEpoch := setup.undelegationEpoch
  accountTimeout := setup.accountTimeout.getD usualAccountTimeout
  transferTimeout := setup.transferTimeout.getD usualTransferTimeout

def Config.check (config : Config) : Attempt ContractError Unit := do
  Attempt.require (config.delegationEpoch ≠ "") (.blankEpoch .delegation)
  Attempt.require (config.undelegationEpoch ≠ "") (.blankEpoch .undelegation)
  Attempt.require (config.delegationEpoch ≠ config.undelegationEpoch) .sameEpochs
  Attempt.require (config.accountTimeout ≠ 0) .zeroAccountTimeout
  Attempt.require (config.transferTimeout ≠ 0) .zeroTransferTimeout

namespace Contract

def recordKeeper (host : Host) (store : Store) : Option Address → Attempt ContractError Store
  | none => return store
  | some keeper => do
      host.requireAddress keeper
      Attempt.promised (store.applyRole? (.setKeeper keeper))

def recordConfig? (store : Store) (config : Config) : Option Store := do
  let store ← store.setText? Key.delegationEpoch.render config.delegationEpoch
  let store ← store.setText? Key.undelegationEpoch.render config.undelegationEpoch
  return (store.setAccountTimeout config.accountTimeout).setTransferTimeout
    config.transferTimeout

def setUp (host : Host) (sender : Address) (store : Store) (setup : Setup) :
    Attempt ContractError (Answer × Store) := do
  let config := setup.config
  config.check
  let store ← Attempt.promised (store.setCreator? sender)
  let store ← recordKeeper host store setup.keeper
  let store ← Attempt.promised (recordConfig? store config)
  return (Answer.ofAttributes [("kind", "instantiate")], store)

end Contract

end LiquidStaking
