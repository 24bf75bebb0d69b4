import LiquidStaking.Contract.Effects
import LiquidStaking.Contract.Request.Execution
import LiquidStaking.Hub.Registration
import LiquidStaking.Roles
import LiquidStaking.Voucher

/-!
# Registering chains and their accounts

A registration creates the derivative, asks for both control accounts, and
records the chain.  The sender deposits exactly the fees of the two accounts and
of the first transaction, which sets the withdraw address.  An account whose
channel closed is asked for again, for exactly its fee.
-/

namespace LiquidStaking.Contract

/-- The fee for a control account: the first coin the host asks for. -/
def accountFee (host : Host) : Attempt ContractError Coin := do
  let fees ← Attempt.orRefuse host.registerFee .registerFeeUnavailable
  Attempt.orRefuse fees.head? .registerFeeUnset

def registration (host : Host) (request : ChainRequest) : Registration where
  chainId := request.chain
  connection := request.connection
  transferChannel := request.transferChannel
  remoteTransferChannel := request.remoteTransferChannel
  escrow := host.contract
  nativeDenom := request.nativeDenom
  voucherDenom := voucherDenom request.transferChannel request.nativeDenom
  derivativeDenom := host.derivativeDenom request.subdenom
  validators := request.validators
  unbondingPeriod := request.unbondingPeriod

def registrationDeposit (host : Host) (fee : Coin) : Attempt ContractError Amount := do
  let relayers ← relayerFee host
  let first ← Attempt.promised relayers.perTransaction?
  let accounts ← Attempt.promised (Width.mul? 128 fee.amount ControlAccount.all.length)
  Attempt.promised (Width.add? 128 accounts first)

def requestAccount (chain : ChainId) (connection : String) (fee : Coin)
    (account : ControlAccount) : Message :=
  .registerAccount connection (ControlPort.accountId chain account) [fee]

def registerChain (host : Host) (caller : Caller) (store : Store) (request : ChainRequest) :
    Attempt ContractError (Answer × Store) := do
  match ControlPort.chainIdError? request.chain with
  | some cause => Attempt.refuse (.chainId cause)
  | none =>
      Attempt.require (request.subdenom ≠ "") .blankSubdenom
      let fee ← accountFee host
      let required ← registrationDeposit host fee
      let paid ← ofPayment (requiredPayment caller.funds fee.denom)
      Attempt.require (paid = required) (.registerDeposit required fee.denom)
      ofRoles (Roles.authorizeAdmin store caller.sender)
      let registration := registration host request
      let response ← ofHub (Hub.register store.view registration)
      let answer := Answer.report
        [("kind", "register_chain"), ("chain_id", request.chain),
          ("derivative_denom", registration.derivativeDenom)] response.notices
      let messages := Message.createDenom request.subdenom ::
        ControlAccount.all.map (requestAccount request.chain request.connection fee)
      carryOut host store response.commands (answer.addMessages messages)

def restoreAccount (host : Host) (caller : Caller) (store : Store) (id : ChainId)
    (name : String) : Attempt ContractError (Answer × Store) := do
  ofRoles (Roles.authorizeAdmin store caller.sender)
  let account ← Attempt.orRefuse (ControlAccount.ofName? name) (.unknownAccount name)
  let found ← Attempt.promised (store.chain? id)
  let chain ← Attempt.orRefuse found (.unknownChain id)
  let fee ← accountFee host
  let paid ← ofPayment (requiredPayment caller.funds fee.denom)
  Attempt.require (paid = fee.amount) (.restoreDeposit fee.amount fee.denom)
  let answer := Answer.ofAttributes
    [("kind", "restore_control_account"), ("chain_id", id), ("control_account", account.name)]
  return (answer.addMessages [requestAccount id chain.connection fee account], store)

end LiquidStaking.Contract
