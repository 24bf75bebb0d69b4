import LiquidStaking.Chain
import LiquidStaking.Contract.Request.Fields

/-!
# Queries

What the contract can be asked to show, and how each query is written.
-/

namespace LiquidStaking

inductive Query where
  | currentAdmin
  | pendingAdmin
  | keeper
  | chain (chain : ChainId)
  | chains
  | currentEpochs
  | deposit (chain : ChainId) (epoch : Epoch)
  | redemption (chain : ChainId) (epoch : Epoch)
  | claim (chain : ChainId) (epoch : Epoch) (owner : Address)
  | claims (owner : Address) (chain : Option ChainId)
  | registered (channel port : String) (sequence : Nat)
  | config
  | epochCost (identifier : String) (epoch : Epoch)
  deriving DecidableEq, Repr

def Query.ofFields? (name : String) (fields : Json) : Option Query :=
  let plain (query : Query) : Option Query :=
    (Members.ofFields? [] fields).map fun _ => query
  if name = "current_admin" then plain .currentAdmin
  else if name = "pending_admin" then plain .pendingAdmin
  else if name = "epoch_keeper" then plain .keeper
  else if name = "chain" then do
    let m ← Members.ofFields? ["chain_id"] fields
    return .chain (← m.string? "chain_id")
  else if name = "chains" then plain .chains
  else if name = "current_epochs" then plain .currentEpochs
  else if name = "proxy_delegation" then do
    let m ← Members.ofFields? ["chain_id", "epoch"] fields
    return .deposit (← m.string? "chain_id") (← m.nat? "epoch")
  else if name = "proxy_unbonding" then do
    let m ← Members.ofFields? ["chain_id", "epoch"] fields
    return .redemption (← m.string? "chain_id") (← m.nat? "epoch")
  else if name = "user_unbonding" then do
    let m ← Members.ofFields? ["chain_id", "epoch", "delegator"] fields
    return .claim (← m.string? "chain_id") (← m.nat? "epoch") (← m.string? "delegator")
  else if name = "user_unbondings" then do
    let m ← Members.ofFields? ["delegator", "chain_id"] fields
    return .claims (← m.string? "delegator") (← m.optionalString? "chain_id")
  else if name = "registered_callback" then do
    let m ← Members.ofFields? ["channel", "port", "sequence"] fields
    return .registered (← m.string? "channel") (← m.string? "port") (← m.nat? "sequence")
  else if name = "config" then plain .config
  else if name = "epoch_start_cost" then do
    let m ← Members.ofFields? ["identifier", "epoch_number"] fields
    return .epochCost (← m.string? "identifier") (← m.nat? "epoch_number")
  else none

def Query.ofJson? (document : Json) : Option Query := do
  let (name, fields) ← document.asVariant?
  Query.ofFields? name fields

def Query.ofText? (text : String) : Option Query := (Json.ofText? .strict text).bind Query.ofJson?

end LiquidStaking
