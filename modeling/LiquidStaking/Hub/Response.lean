import LiquidStaking.Batch
import LiquidStaking.Remote

/-!
# Responses

An operation of the hub changes nothing itself.  It answers with commands, to be
applied in order, and with notices of what happened.
-/

namespace LiquidStaking

inductive TokenOrder where
  | mint (denom : Denom) (amount : Amount) (recipient : Address)
  /-- Burn derivative that the hub holds. -/
  | burn (denom : Denom) (amount : Amount)
  | send (denom : Denom) (amount : Amount) (recipient : Address)
  deriving DecidableEq, Repr

inductive Command where
  | chain (record : Chain)
  | epoch (kind : EpochKind) (epoch : Epoch)
  | deposit (record : DepositBatch)
  | redemption (record : RedemptionBatch)
  | claim (record : Claim)
  | token (order : TokenOrder)
  | dispatch (op : RemoteOp)
  deriving DecidableEq, Repr

inductive Notice where
  | depositStatus (chain : ChainId) (epoch : Epoch) (status : DepositStatus)
  | redemptionStatus (chain : ChainId) (epoch : Epoch) (status : RedemptionStatus)
  | rateUpdated (chain : ChainId) (rate : Rate)
  | rateUpdateSkipped (chain : ChainId)
  | awaitingAccount (chain : ChainId) (account : ControlAccount)
  | accountClosed (chain : ChainId) (account : ControlAccount)
  | withdrawAddressSet (chain : ChainId) (success : Bool)
  | rewardsWithdrawn (chain : ChainId) (amount : Amount)
  | rewardsReinvested (chain : ChainId) (epoch : Epoch) (amount : Amount)
  deriving DecidableEq, Repr

def DepositBatch.notice (batch : DepositBatch) : Notice :=
  .depositStatus batch.chain batch.epoch batch.status

def RedemptionBatch.notice (batch : RedemptionBatch) : Notice :=
  .redemptionStatus batch.chain batch.epoch batch.status

structure Response where
  commands : List Command
  notices : List Notice
  deriving DecidableEq, Repr

namespace Response

def empty : Response := ⟨[], []⟩

def append (first second : Response) : Response :=
  ⟨first.commands ++ second.commands, first.notices ++ second.notices⟩

instance : Append Response := ⟨append⟩

def concat (parts : List Response) : Response :=
  ⟨parts.flatMap commands, parts.flatMap notices⟩

def dispatched (response : Response) : List RemoteOp :=
  response.commands.filterMap fun
    | .dispatch op => some op
    | _ => none

@[simp] theorem commands_append (first second : Response) :
    (first ++ second).commands = first.commands ++ second.commands := rfl

@[simp] theorem notices_append (first second : Response) :
    (first ++ second).notices = first.notices ++ second.notices := rfl

end Response

end LiquidStaking
