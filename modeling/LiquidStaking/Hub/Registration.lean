import LiquidStaking.Hub.Response
import LiquidStaking.Hub.View

/-!
# Registering chains

Recording a chain, opening its accounts, and replacing its validators.
-/

namespace LiquidStaking.Hub

def register (v : View) (registration : Registration) : Attempt HubError Response := do
  match registration.defect? with
  | some defect => Attempt.refuse (.defective defect)
  | none =>
      let known ← Attempt.promised (v.chain? registration.chainId)
      Attempt.require (known = none) (.alreadyRegistered registration.chainId)
      return ⟨[.chain registration.profile], []⟩

def accountOpened (v : View) (chainId : ChainId) (account : ControlAccount)
    (address : Address) : Attempt HubError Response := do
  let chain ← v.chain chainId
  let chain := chain.setAddress account (some address)
  let next : List Command :=
    if chain.bothOpen && !chain.withdrawAddressSet then
      [.dispatch (.setWithdrawAddress chain.id)]
    else []
  return ⟨.chain chain :: next, []⟩

def abandoned? (current : List Validator) (next : List (Address × Nat)) : Option Validator :=
  current.find? fun validator =>
    0 < validator.delegated && !next.any fun (address, _) => address == validator.address

/-- The new set; a validator that stays keeps what is delegated to it. -/
def retained (current : List Validator) (next : List (Address × Nat)) : List Validator :=
  next.map fun (address, weight) =>
    let delegated := (current.find? fun v => v.address == address).elim 0 Validator.delegated
    ⟨address, weight, delegated⟩

def updateValidators (v : View) (chainId : ChainId) (validators : List (Address × Nat)) :
    Attempt HubError Response := do
  let chain ← v.chain chainId
  match validatorSetDefect? validators with
  | some defect => Attempt.refuse (.defective defect)
  | none =>
      let deposits ← Attempt.promised (v.openDeposits chainId)
      let redemptions ← Attempt.promised (v.openRedemptions chainId)
      Attempt.require
        ((deposits.all fun batch => batch.status != .delegating) ∧
          redemptions.all fun batch => batch.status != .starting)
        (.batchesInFlight chain.id)
      match abandoned? chain.validators validators with
      | some validator => Attempt.refuse (.validatorInUse validator.address)
      | none =>
          let chain := { chain with validators := retained chain.validators validators }
          return ⟨[.chain chain], []⟩

end LiquidStaking.Hub
