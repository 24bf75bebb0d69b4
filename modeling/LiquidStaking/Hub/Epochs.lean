import LiquidStaking.Hub.Deposits
import LiquidStaking.Hub.Redemptions

/-!
# Epochs

Starting an epoch moves the batches of every chain, in registration order.
Starting the current epoch again does nothing, an earlier one is refused.
-/

namespace LiquidStaking.Hub

def advance? (v : View) (s : Surroundings) (kind : EpochKind) (chain : Chain) (epoch : Epoch) :
    Option Response :=
  match kind with
  | .delegation => advanceDeposits? v s chain epoch
  | .undelegation => advanceRedemptions? v s chain epoch

def advanceChain (v : View) (s : Surroundings) (kind : EpochKind) (epoch : Epoch)
    (id : ChainId) : Attempt HubError Response := do
  let chain ← v.chain id
  Attempt.promised (advance? v s kind chain epoch)

def advanceAll (v : View) (s : Surroundings) (kind : EpochKind) (epoch : Epoch) :
    Attempt HubError Response := do
  let ids ← Attempt.promised v.chainIds
  let parts ← ids.mapM (advanceChain v s kind epoch)
  return ⟨[.epoch kind epoch], []⟩ ++ Response.concat parts

def startEpoch (v : View) (s : Surroundings) (kind : EpochKind) (epoch : Epoch) :
    Attempt HubError Response := do
  match ← Attempt.promised (v.epoch? kind) with
  | none => advanceAll v s kind epoch
  | some current =>
      if epoch = current then return .empty
      else if epoch < current then Attempt.refuse (.epochNotAdvanced kind current epoch)
      else advanceAll v s kind epoch

end LiquidStaking.Hub
