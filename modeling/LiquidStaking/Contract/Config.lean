import LiquidStaking.Contract.Error
import LiquidStaking.Store.Basic

/-!
# Configuration

The identifiers of the two epochs and the timeouts of remote operations, all
recorded when the contract is set up; a read before that breaks a promise.
-/

namespace LiquidStaking

structure Config where
  delegationEpoch : String
  undelegationEpoch : String
  accountTimeout : Seconds
  transferTimeout : Seconds
  deriving DecidableEq, Repr

namespace Store

def delegationEpoch? (store : Store) : Readable String :=
  (store.text? Key.delegationEpoch.render).bind id

def undelegationEpoch? (store : Store) : Readable String :=
  (store.text? Key.undelegationEpoch.render).bind id

def accountTimeout? (store : Store) : Readable Seconds :=
  (store.number? Key.accountTimeout.render).bind id

def transferTimeout? (store : Store) : Readable Seconds :=
  (store.number? Key.transferTimeout.render).bind id

def setAccountTimeout (store : Store) (seconds : Seconds) : Store :=
  store.setNumber Key.accountTimeout.render seconds

def setTransferTimeout (store : Store) (seconds : Seconds) : Store :=
  store.setNumber Key.transferTimeout.render seconds

def config? (store : Store) : Readable Config := do
  return {
    delegationEpoch := ← store.delegationEpoch?
    undelegationEpoch := ← store.undelegationEpoch?
    accountTimeout := ← store.accountTimeout?
    transferTimeout := ← store.transferTimeout? }

def epochKind? (store : Store) (identifier : String) : Readable (Option EpochKind) := do
  let delegation ← store.delegationEpoch?
  if identifier = delegation then return some .delegation
  else
    let undelegation ← store.undelegationEpoch?
    if identifier = undelegation then return some .undelegation else return none

end Store

def requireEpochKind (store : Store) (identifier : String) : Attempt ContractError EpochKind := do
  let kind ← Attempt.promised (store.epochKind? identifier)
  Attempt.orRefuse kind (.unknownIdentifier identifier)

end LiquidStaking
