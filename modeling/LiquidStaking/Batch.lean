import LiquidStaking.Chain

/-!
# Batches

Deposits and redemptions of one chain and one epoch travel together.  A deposit
batch collects deposits and reinvested rewards until they are delegated; a
redemption batch collects redemptions until the stake is unbonded and back.  A
claim is one depositor's part of a redemption batch.
-/

namespace LiquidStaking

def batchId (chain : ChainId) (epoch : Epoch) : String :=
  chain ++ "/" ++ Digits.ofNat epoch

def claimId (chain : ChainId) (epoch : Epoch) (owner : Address) : String :=
  batchId chain epoch ++ "/" ++ owner

/-! ## Deposits -/

inductive DepositStatus where
  /-- Collecting deposits, or waiting to be transferred. -/
  | pending
  | transferring
  | transferFailed
  | delegating
  | done
  /-- The remote delegation failed; an operator has to drive it again. -/
  | failed
  deriving DecidableEq, Repr

namespace DepositStatus

def all : List DepositStatus :=
  [.pending, .transferring, .transferFailed, .delegating, .done, .failed]

def label : DepositStatus → String
  | .pending => "Pending"
  | .transferring => "Transferring"
  | .transferFailed => "TransferFailed"
  | .delegating => "Delegating"
  | .done => "Done"
  | .failed => "Failed"

def name : DepositStatus → String
  | .pending => "pending"
  | .transferring => "transferring"
  | .transferFailed => "transfer_failed"
  | .delegating => "delegating"
  | .done => "done"
  | .failed => "failed"

def ofName? (name : String) : Option DepositStatus := all.find? fun s => s.name == name

def inFlight (status : DepositStatus) : Bool := status != .done && status != .failed

def awaitsEpoch (status : DepositStatus) : Bool :=
  status == .pending || status == .transferFailed

end DepositStatus

structure DepositBatch where
  id : String
  chain : ChainId
  epoch : Epoch
  /-- All there is to delegate: deposits and reinvested rewards. -/
  amount : Amount
  /-- The part of it that the delegate account already holds. -/
  reinvested : Amount
  status : DepositStatus
  deriving DecidableEq, Repr

namespace DepositBatch

def empty (chain : ChainId) (epoch : Epoch) : DepositBatch :=
  ⟨batchId chain epoch, chain, epoch, 0, 0, .pending⟩

def net (batch : DepositBatch) : Amount := batch.amount - batch.reinvested

def isOpen (batch : DepositBatch) : Bool := batch.status != .done

end DepositBatch

/-! ## Redemptions -/

inductive RedemptionStatus where
  /-- Collecting redemptions, or waiting to be started. -/
  | pending
  | starting
  | startFailed
  /-- Unbonding on the remote chain. -/
  | waiting
  | withdrawing
  /-- The unbonded funds did not leave the remote chain. -/
  | transferFailed
  | done
  deriving DecidableEq, Repr

namespace RedemptionStatus

def all : List RedemptionStatus :=
  [.pending, .starting, .startFailed, .waiting, .withdrawing, .transferFailed, .done]

def label : RedemptionStatus → String
  | .pending => "Pending"
  | .starting => "Start"
  | .startFailed => "StartFailed"
  | .waiting => "Waiting"
  | .withdrawing => "Withdraw"
  | .transferFailed => "TransferFailed"
  | .done => "Done"

def name : RedemptionStatus → String
  | .pending => "pending"
  | .starting => "start"
  | .startFailed => "start_failed"
  | .waiting => "waiting"
  | .withdrawing => "withdraw"
  | .transferFailed => "transfer_failed"
  | .done => "done"

def ofName? (name : String) : Option RedemptionStatus := all.find? fun s => s.name == name

/-- What is to be redeemed still counts as staked. -/
def holdsStake (status : RedemptionStatus) : Bool :=
  status == .pending || status == .starting || status == .startFailed

end RedemptionStatus

structure RedemptionBatch where
  id : String
  chain : ChainId
  epoch : Epoch
  /-- Derivative held by the hub, burned once the unbonding starts. -/
  burned : Amount
  /-- Staked token owed to the members. -/
  redeemable : Amount
  completion : Option Seconds
  status : RedemptionStatus
  /-- Ids of the members' claims. -/
  members : List String
  deriving DecidableEq, Repr

namespace RedemptionBatch

def empty (chain : ChainId) (epoch : Epoch) : RedemptionBatch :=
  ⟨batchId chain epoch, chain, epoch, 0, 0, none, .pending, []⟩

def isOpen (batch : RedemptionBatch) : Bool := batch.status != .done

end RedemptionBatch

/-! ## Claims -/

inductive ClaimStatus where
  | pending
  | claimable
  | complete
  deriving DecidableEq, Repr

namespace ClaimStatus

def all : List ClaimStatus := [.pending, .claimable, .complete]

def label : ClaimStatus → String
  | .pending => "Pending"
  | .claimable => "Claimable"
  | .complete => "Complete"

def name : ClaimStatus → String
  | .pending => "pending"
  | .claimable => "claimable"
  | .complete => "complete"

def ofName? (name : String) : Option ClaimStatus := all.find? fun s => s.name == name

end ClaimStatus

structure Claim where
  id : String
  chain : ChainId
  epoch : Epoch
  owner : Address
  amount : Amount
  denom : Denom
  status : ClaimStatus
  deriving DecidableEq, Repr

end LiquidStaking
