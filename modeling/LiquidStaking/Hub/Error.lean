import LiquidStaking.Batch

/-!
# Refusals of the hub

Each cause for which an operation is refused, and its wording.
-/

namespace LiquidStaking

inductive HubError where
  | unknownChain (chain : ChainId)
  | alreadyRegistered (chain : ChainId)
  | defective (defect : ProfileDefect)
  | validatorInUse (validator : Address)
  | batchesInFlight (chain : ChainId)
  | noEpoch (kind : EpochKind)
  | epochNotAdvanced (kind : EpochKind) (current requested : Epoch)
  | noDepositBatch (chain : ChainId) (epoch : Epoch)
  | noRedemptionBatch (chain : ChainId) (epoch : Epoch)
  | zeroAmount
  | amountTooSmall
  | rateOverflow
  | amountOverflow
  | alreadyRedeemed (chain : ChainId) (epoch : Epoch) (owner : Address)
  | exceedsStake (requested available : Amount)
  | notClaimable
  | exceedsFunds (requested available : Amount)
  | notFailed (status : DepositStatus)
  | depositNotAwaited (status : DepositStatus)
  | redemptionNotAwaited (status : RedemptionStatus)
  | accountNotOpen (chain : ChainId) (account : ControlAccount)
  deriving DecidableEq, Repr

def ProfileDefect.message : ProfileDefect → String
  | .blank field => "invalid chain profile: " ++ field ++ " is empty"
  | .sameDenoms => "invalid chain profile: native and derivative denoms must differ"
  | .noUnbondingPeriod => "invalid chain profile: unbonding period is zero"
  | .noValidators => "validator set must contain at least one validator"
  | .zeroWeight validator => "validator " ++ validator ++ " must have a positive weight"
  | .repeated validator =>
      "validator " ++ validator ++ " occurs more than once in the validator set"

def HubError.message : HubError → String
  | .unknownChain chain => "unknown source chain: " ++ chain
  | .alreadyRegistered chain => "chain already registered: " ++ chain
  | .defective defect => defect.message
  | .validatorInUse validator =>
      "validator " ++ validator ++ " still has delegations and cannot be removed"
  | .batchesInFlight chain =>
      "validator set cannot change while batches are in flight on " ++ chain
  | .noEpoch kind => "no " ++ kind.name ++ " epoch has started"
  | .epochNotAdvanced kind current requested =>
      kind.name ++ " epoch " ++ Digits.ofNat requested ++ " does not advance current epoch "
        ++ Digits.ofNat current
  | .noDepositBatch chain epoch =>
      "no proxy delegation for epoch " ++ Digits.ofNat epoch ++ " on " ++ chain
  | .noRedemptionBatch chain epoch =>
      "no proxy unbonding for epoch " ++ Digits.ofNat epoch ++ " on " ++ chain
  | .zeroAmount => "amount must be greater than zero"
  | .amountTooSmall => "amount is too small to convert at the current redemption ratio"
  | .rateOverflow => "redemption ratio arithmetic overflow"
  | .amountOverflow => "amount overflow"
  | .alreadyRedeemed chain epoch owner =>
      owner ++ " has already undelegated in epoch " ++ Digits.ofNat epoch ++ " on " ++ chain
  | .exceedsStake requested available =>
      "redeemable amount " ++ Digits.ofNat requested ++ " exceeds available stake "
        ++ Digits.ofNat available
  | .notClaimable => "unbonding is not claimable"
  | .exceedsFunds requested available =>
      "claim of " ++ Digits.ofNat requested ++ " exceeds redeemable funds "
        ++ Digits.ofNat available
  | .notFailed status => "proxy delegation in status " ++ status.label ++ " cannot be re-driven"
  | .depositNotAwaited status =>
      "proxy delegation in status " ++ status.label ++ " is not awaiting an acknowledgement"
  | .redemptionNotAwaited status =>
      "proxy unbonding in status " ++ status.label ++ " is not awaiting an acknowledgement"
  | .accountNotOpen chain account =>
      account.name ++ " control account of " ++ chain ++ " is not open"

end LiquidStaking
