import LiquidStaking.Hub.Deposits
import LiquidStaking.Hub.Redemptions

/-!
# Resolution

An acknowledgement goes on with the work of its operation.  One that no longer
fits the status of its batch is ignored.  A timeout counts as a failure; if a
control account carried the operation out, its channel closed, and the account's
address is forgotten on top of whatever else changed.
-/

namespace LiquidStaking.Hub

def proceed (v : View) (s : Surroundings) (op : RemoteOp) (outcome : Outcome) :
    Attempt HubError Response :=
  match op with
  | .transferDeposit chain epoch _ => depositTransferred v chain epoch outcome
  | .delegate chain epoch shares => depositDelegated v chain epoch shares outcome
  | .undelegate chain epoch shares => redemptionStarted v s chain epoch shares outcome
  | .withdrawUnbonded chain epoch _ => redemptionWithdrawn v chain epoch outcome
  | .withdrawRewards chain _ => rewardsWithdrawn v chain outcome
  | .transferRewards chain amount => rewardsTransferred v chain amount outcome
  | .setWithdrawAddress chain => withdrawAddressSet v chain outcome

def lastWritten? (id : ChainId) (commands : List Command) : Option Chain :=
  (commands.filterMap fun
    | .chain record => if record.id = id then some record else none
    | _ => none).getLast?

def closeAccount (v : View) (id : ChainId) (account : ControlAccount) (response : Response) :
    Attempt HubError Response := do
  let chain ← match lastWritten? id response.commands with
    | some chain => pure chain
    | none => v.chain id
  return response ++ ⟨[.chain (chain.setAddress account none)], [.accountClosed id account]⟩

def resolve (v : View) (s : Surroundings) (op : RemoteOp) (outcome : Outcome) :
    Attempt HubError Response := do
  let response ← proceed v s op outcome
  match outcome, op.account? with
  | .timeout, some account => closeAccount v op.chain account response
  | _, _ => return response

end LiquidStaking.Hub
