import LiquidStaking.Contract.Config
import LiquidStaking.Contract.Message
import LiquidStaking.Store.Records
import LiquidStaking.Store.Registry

/-!
# Issuing operations

A remote operation leaves the hub either as a transfer of its own or as messages
that a control account executes.  Before it is issued it is stashed under the id
of the reply that will tell its sequence.

What an operation needs (the recorded chain, the addresses of its accounts, the
timeouts) is always there when one is dispatched; `none` says it was not.
-/

namespace LiquidStaking

def transferPort : String := "transfer"

namespace Chain

def paysRewards (chain : Chain) (validator : Address) : Bool :=
  chain.withdrawAddressSet &&
    chain.validators.any fun v => v.address == validator && 0 < v.delegated

/-- Change the stake with every validator that has a share.  A change of stake
pays out rewards; they are withdrawn first, so that they are reported. -/
def stakeMessages? (chain : Chain)
    (change : Address → Address → Amount → Denom → Wire.Envelope) (shares : Allocation) :
    Option (List Wire.Envelope) := do
  let messages ← (shares.filter fun share => 0 < share.amount).mapM fun share => do
    let delegator ← chain.delegateAddress
    let changed := change delegator share.validator share.amount chain.nativeDenom
    if chain.paysRewards share.validator then
      return [Wire.withdrawReward delegator share.validator, changed]
    else return [changed]
  return messages.flatten

def rewardMessages? (chain : Chain) (validators : List Address) : Option (List Wire.Envelope) :=
  validators.mapM fun validator => do
    let delegator ← chain.delegateAddress
    return Wire.withdrawReward delegator validator

end Chain

namespace Contract

/-- Send unbonded funds to the hub.  The transfer starts only once the account
executes it, so both timeouts are granted. -/
def returnMessage? (host : Host) (store : Store) (chain : Chain) (amount : Amount) :
    Option Wire.Envelope := do
  let execution ← store.accountTimeout?
  let transfer ← store.transferTimeout?
  let delegator ← chain.delegateAddress
  let timeout ← host.later? (execution + transfer)
  return Wire.transfer transferPort chain.remoteTransferChannel amount chain.nativeDenom
    delegator chain.escrow timeout

def accountMessages? (host : Host) (store : Store) (chain : Chain) :
    RemoteOp → Option (List Wire.Envelope)
  | .transferDeposit .. => some []
  | .delegate _ _ shares => chain.stakeMessages? Wire.delegate shares
  | .undelegate _ _ shares => chain.stakeMessages? Wire.undelegate shares
  | .withdrawUnbonded _ _ amount =>
      (returnMessage? host store chain amount).map fun message => [message]
  | .withdrawRewards _ validators => chain.rewardMessages? validators
  | .transferRewards _ amount => do
      let sender ← chain.unbondAddress
      let receiver ← chain.delegateAddress
      return [Wire.send sender receiver amount chain.nativeDenom]
  | .setWithdrawAddress _ => do
      let delegator ← chain.delegateAddress
      let receiver ← chain.unbondAddress
      return [Wire.setWithdrawAddress delegator receiver]

def depositTransfer? (host : Host) (store : Store) (fee : RelayerFee) (chain : Chain)
    (amount : Amount) : Option Message := do
  let seconds ← store.transferTimeout?
  let receiver ← chain.delegateAddress
  let timeout ← host.later? seconds
  return .transfer transferPort chain.transferChannel ⟨chain.voucherDenom, amount⟩ host.contract
    receiver timeout fee

def outbound? (host : Host) (store : Store) (fee : RelayerFee) (chain : Chain) (op : RemoteOp) :
    Option (String × Message) :=
  match op.account?, op with
  | none, .transferDeposit _ _ amount => do
      let message ← depositTransfer? host store fee chain amount
      return (transferPort, message)
  | none, _ => none
  | some account, op => do
      let messages ← accountMessages? host store chain op
      let timeout ← store.accountTimeout?
      return (ControlPort.portId host.contract chain.id account,
        .submit chain.connection (ControlPort.accountId chain.id account) messages timeout fee)

def issue? (host : Host) (fee : RelayerFee) (store : Store) (op : RemoteOp) :
    Readable (Submission × Store) := do
  let found ← store.chain? op.chain
  let chain ← found
  let (port, message) ← outbound? host store fee chain op
  let (replyId, store) ← store.stash port op
  return (⟨message, some replyId⟩, store)

def issueAll? (host : Host) (fee : RelayerFee) (store : Store) :
    List RemoteOp → Readable (List Submission × Store)
  | [] => some ([], store)
  | op :: rest => do
      let (submission, store) ← issue? host fee store op
      let (submissions, store) ← issueAll? host fee store rest
      return (submission :: submissions, store)

end Contract

end LiquidStaking
