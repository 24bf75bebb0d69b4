import LiquidStaking.Hub.Epochs
import LiquidStaking.Hub.Registration

/-!
# Requests

The operations that can be asked of the hub, each answered from what it can see.
-/

namespace LiquidStaking

inductive Request where
  | register (registration : Registration)
  | accountOpened (chain : ChainId) (account : ControlAccount) (address : Address)
  | updateValidators (chain : ChainId) (validators : List (Address × Nat))
  | deposit (chain : ChainId) (amount : Amount) (depositor : Address)
  | redeem (chain : ChainId) (amount : Amount) (owner : Address)
  | payClaim (owner : Address) (epoch : Epoch) (chain : ChainId)
  | redriveDeposit (chain : ChainId) (epoch : Epoch)
  | resetDeposit (chain : ChainId) (epoch : Epoch)
  | resetRedemption (chain : ChainId) (epoch : Epoch)
  | startEpoch (kind : EpochKind) (epoch : Epoch)
  deriving DecidableEq, Repr

def Request.answer (v : View) (s : Surroundings) : Request → Attempt HubError Response
  | .register registration => Hub.register v registration
  | .accountOpened chain account address => Hub.accountOpened v chain account address
  | .updateValidators chain validators => Hub.updateValidators v chain validators
  | .deposit chain amount depositor => Hub.deposit v chain amount depositor
  | .redeem chain amount owner => Hub.redeem v chain amount owner
  | .payClaim owner epoch chain => Hub.payClaim v s owner epoch chain
  | .redriveDeposit chain epoch => Hub.redriveDeposit v chain epoch
  | .resetDeposit chain epoch => Hub.resetDeposit v chain epoch
  | .resetRedemption chain epoch => Hub.resetRedemption v chain epoch
  | .startEpoch kind epoch => Hub.startEpoch v s kind epoch

end LiquidStaking
