import LiquidStaking.Json.Document
import LiquidStaking.Batch
import LiquidStaking.Remote

/-!
# Stored records

How chains, batches, claims and remote operations are written as JSON.  Amounts
and rates are quoted numbers, epochs, weights and times plain ones, statuses
their names.
-/

namespace LiquidStaking

instance : Document Rate where
  toJson rate := .string rate.value.rawText
  ofJson? document := (document.asString?.bind Decimal.ofRawText?).map Rate.mk

instance : Document Validator where
  toJson v := .object [("address", .string v.address), ("weight", .nat v.weight),
    ("delegated", .amount v.delegated)]
  ofJson? document := do
    let m ← document.asObject?
    return {
      address := ← m.string? "address"
      weight := ← m.nat? "weight"
      delegated := ← m.amount? "delegated" }

instance : Document Chain where
  toJson c := .object [("chain_id", .string c.id), ("connection_id", .string c.connection),
    ("transfer_channel", .string c.transferChannel),
    ("remote_transfer_channel", .string c.remoteTransferChannel),
    ("escrow_address", .string c.escrow),
    ("delegate_address", Json.ofOption .string c.delegateAddress),
    ("unbond_address", Json.ofOption .string c.unbondAddress),
    ("withdraw_address_set", .bool c.withdrawAddressSet),
    ("validators", Document.toJson c.validators),
    ("native_denom", .string c.nativeDenom), ("ibc_denom", .string c.voucherDenom),
    ("derivative_denom", .string c.derivativeDenom),
    ("redemption_ratio", Document.toJson c.rate), ("staked", .amount c.staked),
    ("unbonding_period", .nat c.unbondingPeriod),
    ("pending_rewards", .amount c.pendingRewards)]
  ofJson? document := do
    let m ← document.asObject?
    return {
      id := ← m.string? "chain_id"
      connection := ← m.string? "connection_id"
      transferChannel := ← m.string? "transfer_channel"
      remoteTransferChannel := ← m.string? "remote_transfer_channel"
      escrow := ← m.string? "escrow_address"
      delegateAddress := ← m.optionalString? "delegate_address"
      unbondAddress := ← m.optionalString? "unbond_address"
      withdrawAddressSet := ← m.bool? "withdraw_address_set"
      validators := ← m.read? "validators"
      nativeDenom := ← m.string? "native_denom"
      voucherDenom := ← m.string? "ibc_denom"
      derivativeDenom := ← m.string? "derivative_denom"
      rate := ← m.read? "redemption_ratio"
      staked := ← m.amount? "staked"
      unbondingPeriod := ← m.nat? "unbonding_period"
      pendingRewards := ← m.amount? "pending_rewards" }

instance : Document DepositStatus where
  toJson status := .string status.name
  ofJson? document := document.asString?.bind DepositStatus.ofName?

instance : Document DepositBatch where
  toJson b := .object [("id", .string b.id), ("chain_id", .string b.chain),
    ("epoch", .nat b.epoch), ("amount", .amount b.amount),
    ("reinvested", .amount b.reinvested), ("status", Document.toJson b.status)]
  ofJson? document := do
    let m ← document.asObject?
    return {
      id := ← m.string? "id"
      chain := ← m.string? "chain_id"
      epoch := ← m.nat? "epoch"
      amount := ← m.amount? "amount"
      reinvested := ← m.amount? "reinvested"
      status := ← m.read? "status" }

instance : Document RedemptionStatus where
  toJson status := .string status.name
  ofJson? document := document.asString?.bind RedemptionStatus.ofName?

instance : Document RedemptionBatch where
  toJson b := .object [("id", .string b.id), ("chain_id", .string b.chain),
    ("epoch", .nat b.epoch), ("burned", .amount b.burned),
    ("redeemable", .amount b.redeemable), ("completion_time", Json.ofOption .nat b.completion),
    ("status", Document.toJson b.status), ("members", Document.toJson b.members)]
  ofJson? document := do
    let m ← document.asObject?
    return {
      id := ← m.string? "id"
      chain := ← m.string? "chain_id"
      epoch := ← m.nat? "epoch"
      burned := ← m.amount? "burned"
      redeemable := ← m.amount? "redeemable"
      completion := ← m.optionalNat? "completion_time"
      status := ← m.read? "status"
      members := ← m.read? "members" }

instance : Document ClaimStatus where
  toJson status := .string status.name
  ofJson? document := document.asString?.bind ClaimStatus.ofName?

instance : Document Claim where
  toJson c := .object [("id", .string c.id), ("chain_id", .string c.chain),
    ("epoch", .nat c.epoch), ("delegator", .string c.owner),
    ("redeem_amount", .amount c.amount), ("redeem_denom", .string c.denom),
    ("status", Document.toJson c.status)]
  ofJson? document := do
    let m ← document.asObject?
    return {
      id := ← m.string? "id"
      chain := ← m.string? "chain_id"
      epoch := ← m.nat? "epoch"
      owner := ← m.string? "delegator"
      amount := ← m.amount? "redeem_amount"
      denom := ← m.string? "redeem_denom"
      status := ← m.read? "status" }

/-! ## Remote operations -/

instance : Document Share where
  toJson s := .object [("validator", .string s.validator), ("amount", .amount s.amount)]
  ofJson? document := do
    let m ← document.asObject?
    return { validator := ← m.string? "validator", amount := ← m.amount? "amount" }

namespace RemoteOp

def members : RemoteOp → Members
  | .transferDeposit chain epoch amount =>
      [("chain_id", .string chain), ("epoch", .nat epoch), ("amount", .amount amount)]
  | .delegate chain epoch shares =>
      [("chain_id", .string chain), ("epoch", .nat epoch), ("allocation", Document.toJson shares)]
  | .undelegate chain epoch shares =>
      [("chain_id", .string chain), ("epoch", .nat epoch), ("allocation", Document.toJson shares)]
  | .withdrawUnbonded chain epoch amount =>
      [("chain_id", .string chain), ("epoch", .nat epoch), ("amount", .amount amount)]
  | .withdrawRewards chain validators =>
      [("chain_id", .string chain), ("validators", Document.toJson validators)]
  | .transferRewards chain amount => [("chain_id", .string chain), ("amount", .amount amount)]
  | .setWithdrawAddress chain => [("chain_id", .string chain)]

def ofMembers? (name : String) (m : Members) : Option RemoteOp :=
  if name = "transfer_for_delegation" then do
    return .transferDeposit (← m.string? "chain_id") (← m.nat? "epoch") (← m.amount? "amount")
  else if name = "delegate" then do
    return .delegate (← m.string? "chain_id") (← m.nat? "epoch") (← m.read? "allocation")
  else if name = "undelegate" then do
    return .undelegate (← m.string? "chain_id") (← m.nat? "epoch") (← m.read? "allocation")
  else if name = "withdraw_settled_unbond" then do
    return .withdrawUnbonded (← m.string? "chain_id") (← m.nat? "epoch") (← m.amount? "amount")
  else if name = "withdraw_reward" then do
    return .withdrawRewards (← m.string? "chain_id") (← m.read? "validators")
  else if name = "transfer_reward" then do
    return .transferRewards (← m.string? "chain_id") (← m.amount? "amount")
  else if name = "set_withdraw_address" then do
    return .setWithdrawAddress (← m.string? "chain_id")
  else none

end RemoteOp

instance : Document RemoteOp where
  toJson op := Json.variant op.name op.members
  ofJson? document := do
    let (name, held) ← document.asVariant?
    RemoteOp.ofMembers? name (← held.asObject?)

end LiquidStaking
