import LiquidStaking.Hub.Response
import LiquidStaking.Hub.View

/-!
# Rewards

Staking rewards are withdrawn into the unbond account, moved on to the delegate
account, and reinvested with the current deposit batch.  Rewards that cannot be
moved yet are kept as pending.
-/

namespace LiquidStaking.Hub

def holdRewards (chain : Chain) (receipts : List Receipt) : Chain × List Notice :=
  let withdrawn := Receipt.totalRewards receipts
  if withdrawn = 0 then (chain, [])
  else
    ({ chain with pendingRewards := Width.addSat 128 chain.pendingRewards withdrawn },
      [.rewardsWithdrawn chain.id withdrawn])

def moveRewards (chain : Chain) (amount : Amount) : Chain × Response :=
  let chain := { chain with pendingRewards := 0 }
  (chain, ⟨[.chain chain, .dispatch (.transferRewards chain.id amount)], []⟩)

/-- Withdraw rewards, setting the withdraw address first if it is not set.
Without any delegation, rewards already held are moved straight away. -/
def collectRewards (chain : Chain) : Chain × Response :=
  if !chain.bothOpen then (chain, .empty)
  else if !chain.withdrawAddressSet then
    (chain, ⟨[.dispatch (.setWithdrawAddress chain.id)], []⟩)
  else
    let staking := chain.validators.filter fun validator => 0 < validator.delegated
    if staking ≠ [] then
      (chain, ⟨[.dispatch (.withdrawRewards chain.id (staking.map Validator.address))], []⟩)
    else if 0 < chain.pendingRewards then moveRewards chain chain.pendingRewards
    else (chain, .empty)

def withdrawAddressSet (v : View) (chainId : ChainId) (outcome : Outcome) :
    Attempt HubError Response := do
  let notice : Notice := .withdrawAddressSet chainId outcome.isSuccess
  if outcome.isSuccess then
    let chain ← v.chain chainId
    return ⟨[.chain { chain with withdrawAddressSet := true }], [notice]⟩
  else return ⟨[], [notice]⟩

/-- Rewards reached the unbond account.  They are moved on together with what is
pending, or kept until both accounts are open. -/
def rewardsWithdrawn (v : View) (chainId : ChainId) : Outcome → Attempt HubError Response
  | .success receipts => do
      let chain ← v.chain chainId
      let withdrawn := Receipt.totalRewards receipts
      let notice : Notice := .rewardsWithdrawn chain.id withdrawn
      let amount := Width.addSat 128 withdrawn chain.pendingRewards
      if amount = 0 then return ⟨[], [notice]⟩
      else if !chain.bothOpen then
        return ⟨[.chain { chain with pendingRewards := amount }], [notice]⟩
      else return ⟨(moveRewards chain amount).2.commands, [notice]⟩
  | _ => return .empty

/-- Rewards reached the delegate account and join the current deposit batch;
otherwise they are pending again. -/
def rewardsTransferred (v : View) (chainId : ChainId) (amount : Amount) (outcome : Outcome) :
    Attempt HubError Response := do
  let current ← Attempt.promised (v.epoch? .delegation)
  match outcome, current with
  | .success _, some epoch =>
      let found ← Attempt.promised (v.deposit? chainId epoch)
      let batch := found.getD (.empty chainId epoch)
      let batch := { batch with
        amount := Width.addSat 128 batch.amount amount
        reinvested := Width.addSat 128 batch.reinvested amount }
      return ⟨[.deposit batch], [.rewardsReinvested chainId batch.epoch amount]⟩
  | _, _ =>
      let chain ← v.chain chainId
      let chain := { chain with
        pendingRewards := Width.addSat 128 chain.pendingRewards amount }
      return ⟨[.chain chain], []⟩

end LiquidStaking.Hub
