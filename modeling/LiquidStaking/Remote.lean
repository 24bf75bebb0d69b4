import LiquidStaking.Allocation

/-!
# Remote operations

What the hub asks of a remote chain, and what it hears back.  An operation
carries all that is needed to go on when its acknowledgement arrives.
-/

namespace LiquidStaking

inductive RemoteOp where
  /-- Move a deposit batch from escrow to the delegate account. -/
  | transferDeposit (chain : ChainId) (epoch : Epoch) (amount : Amount)
  | delegate (chain : ChainId) (epoch : Epoch) (shares : Allocation)
  | undelegate (chain : ChainId) (epoch : Epoch) (shares : Allocation)
  /-- Move unbonded funds from the delegate account back to the hub. -/
  | withdrawUnbonded (chain : ChainId) (epoch : Epoch) (amount : Amount)
  | withdrawRewards (chain : ChainId) (validators : List Address)
  /-- Move withdrawn rewards from the unbond account to the delegate account. -/
  | transferRewards (chain : ChainId) (amount : Amount)
  | setWithdrawAddress (chain : ChainId)
  deriving DecidableEq, Repr

namespace RemoteOp

def chain : RemoteOp → ChainId
  | .transferDeposit chain _ _ => chain
  | .delegate chain _ _ => chain
  | .undelegate chain _ _ => chain
  | .withdrawUnbonded chain _ _ => chain
  | .withdrawRewards chain _ => chain
  | .transferRewards chain _ => chain
  | .setWithdrawAddress chain => chain

def name : RemoteOp → String
  | .transferDeposit .. => "transfer_for_delegation"
  | .delegate .. => "delegate"
  | .undelegate .. => "undelegate"
  | .withdrawUnbonded .. => "withdraw_settled_unbond"
  | .withdrawRewards .. => "withdraw_reward"
  | .transferRewards .. => "transfer_reward"
  | .setWithdrawAddress .. => "set_withdraw_address"

def account? : RemoteOp → Option ControlAccount
  | .transferDeposit .. => none
  | .transferRewards .. => some .unbond
  | _ => some .delegate

/-- Transactions paid for by whoever starts the operation, the one that its
acknowledgement leads to included. -/
def transactions : RemoteOp → Nat
  | .transferDeposit .. => 2
  | .withdrawRewards .. => 2
  | _ => 1

end RemoteOp

inductive Receipt where
  | unbondsAt (time : Seconds)
  | rewards (amount : Amount)
  deriving DecidableEq, Repr

namespace Receipt

def totalRewards (receipts : List Receipt) : Amount :=
  Width.clamp 128 (Width.total (receipts.filterMap fun
    | .rewards amount => some amount
    | .unbondsAt _ => none))

def latestCompletion? (receipts : List Receipt) : Option Seconds :=
  (receipts.filterMap fun
    | .unbondsAt time => some time
    | .rewards _ => none).max?

end Receipt

inductive Outcome where
  | success (receipts : List Receipt)
  | failure
  /-- The operation never ran, and an ordered channel closed over it. -/
  | timeout
  deriving DecidableEq, Repr

def Outcome.isSuccess : Outcome → Bool
  | .success _ => true
  | _ => false

end LiquidStaking
