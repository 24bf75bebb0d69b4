import LiquidStaking.Chain
import LiquidStaking.Contract.Request.Fields

/-!
# Executions

What the contract can be asked to do, and how each request is written.
-/

namespace LiquidStaking

inductive RoleRequest where
  | nominateAdmin (nominee : Address)
  | claimAdmin
  | cancelNomination
  | setKeeper (keeper : Address)
  deriving DecidableEq, Repr

def RoleRequest.name : RoleRequest → String
  | .nominateAdmin _ => "transfer_admin_role"
  | .claimAdmin => "claim_admin_role"
  | .cancelNomination => "cancel_role_transfer"
  | .setKeeper _ => "set_epoch_keeper"

inductive AdminRequest where
  | updateValidators (chain : ChainId) (validators : List (Address × Nat))
  | redriveDeposit (chain : ChainId) (epoch : Epoch)
  | resetDeposit (chain : ChainId) (epoch : Epoch)
  | resetRedemption (chain : ChainId) (epoch : Epoch)
  deriving DecidableEq, Repr

def AdminRequest.name : AdminRequest → String
  | .updateValidators .. => "update_validators"
  | .redriveDeposit .. => "redrive_delegation"
  | .resetDeposit .. => "reset_delegation"
  | .resetRedemption .. => "reset_unbonding"

inductive UserRequest where
  | deposit (chain : ChainId)
  | redeem (chain : ChainId)
  | payClaim (chain : ChainId) (epoch : Epoch)
  deriving DecidableEq, Repr

def UserRequest.name : UserRequest → String
  | .deposit _ => "delegate"
  | .redeem _ => "undelegate"
  | .payClaim .. => "claim_unbonding"

/-- A chain as the admin describes it; denoms and escrow follow. -/
structure ChainRequest where
  chain : ChainId
  connection : String
  transferChannel : String
  remoteTransferChannel : String
  nativeDenom : Denom
  subdenom : String
  validators : List (Address × Nat)
  unbondingPeriod : Seconds
  deriving DecidableEq, Repr

inductive Execution where
  | role (request : RoleRequest)
  | admin (request : AdminRequest)
  | user (request : UserRequest)
  | registerChain (request : ChainRequest)
  | restoreAccount (chain : ChainId) (account : String)
  | startEpoch (identifier : String) (epoch : Epoch)
  | updateConfig (accountTimeout transferTimeout : Option Seconds)
  deriving DecidableEq, Repr

def weightOfJson? (document : Json) : Option (Address × Nat) := do
  let m ← Members.ofFields? ["address", "weight"] document
  return (← m.string? "address", ← m.nat? "weight")

def weightsOfJson? (document : Json) : Option (List (Address × Nat)) :=
  document.asArray?.bind fun items => items.mapM weightOfJson?

def Members.weights? (m : Members) : Option (List (Address × Nat)) :=
  (m.get? "validators").bind weightsOfJson?

def ChainRequest.ofFields? (fields : Json) : Option ChainRequest := do
  let m ← Members.ofFields? ["chain_id", "connection_id", "transfer_channel",
    "remote_transfer_channel", "native_denom", "derivative_subdenom", "validators",
    "unbonding_period"] fields
  return {
    chain := ← m.string? "chain_id"
    connection := ← m.string? "connection_id"
    transferChannel := ← m.string? "transfer_channel"
    remoteTransferChannel := ← m.string? "remote_transfer_channel"
    nativeDenom := ← m.string? "native_denom"
    subdenom := ← m.string? "derivative_subdenom"
    validators := ← m.weights?
    unbondingPeriod := ← m.nat? "unbonding_period" }

def Execution.ofFields? (name : String) (fields : Json) : Option Execution :=
  if name = "transfer_admin_role" then do
    let m ← Members.ofFields? ["next_admin"] fields
    return .role (.nominateAdmin (← m.string? "next_admin"))
  else if name = "claim_admin_role" then do
    let _ ← Members.ofFields? [] fields
    return .role .claimAdmin
  else if name = "cancel_role_transfer" then do
    let _ ← Members.ofFields? [] fields
    return .role .cancelNomination
  else if name = "set_epoch_keeper" then do
    let m ← Members.ofFields? ["keeper"] fields
    return .role (.setKeeper (← m.string? "keeper"))
  else if name = "update_validators" then do
    let m ← Members.ofFields? ["chain_id", "validators"] fields
    return .admin (.updateValidators (← m.string? "chain_id") (← m.weights?))
  else if name = "redrive_delegation" then do
    let m ← Members.ofFields? ["chain_id", "epoch"] fields
    return .admin (.redriveDeposit (← m.string? "chain_id") (← m.nat? "epoch"))
  else if name = "reset_delegation" then do
    let m ← Members.ofFields? ["chain_id", "epoch"] fields
    return .admin (.resetDeposit (← m.string? "chain_id") (← m.nat? "epoch"))
  else if name = "reset_unbonding" then do
    let m ← Members.ofFields? ["chain_id", "epoch"] fields
    return .admin (.resetRedemption (← m.string? "chain_id") (← m.nat? "epoch"))
  else if name = "delegate" then do
    let m ← Members.ofFields? ["chain_id"] fields
    return .user (.deposit (← m.string? "chain_id"))
  else if name = "undelegate" then do
    let m ← Members.ofFields? ["chain_id"] fields
    return .user (.redeem (← m.string? "chain_id"))
  else if name = "claim_unbonding" then do
    let m ← Members.ofFields? ["chain_id", "epoch"] fields
    return .user (.payClaim (← m.string? "chain_id") (← m.nat? "epoch"))
  else if name = "register_chain" then
    (ChainRequest.ofFields? fields).map .registerChain
  else if name = "restore_control_account" then do
    let m ← Members.ofFields? ["chain_id", "account"] fields
    return .restoreAccount (← m.string? "chain_id") (← m.string? "account")
  else if name = "before_epoch_start" then do
    let m ← Members.ofFields? ["identifier", "epoch_number"] fields
    return .startEpoch (← m.string? "identifier") (← m.nat? "epoch_number")
  else if name = "update_config" then do
    let m ← Members.ofFields? ["ica_timeout_seconds", "transfer_timeout_seconds"] fields
    return .updateConfig (← m.optionalNat? "ica_timeout_seconds")
      (← m.optionalNat? "transfer_timeout_seconds")
  else none

def Execution.ofJson? (document : Json) : Option Execution := do
  let (name, fields) ← document.asVariant?
  Execution.ofFields? name fields

def Execution.ofText? (text : String) : Option Execution :=
  (Json.ofText? .strict text).bind Execution.ofJson?

end LiquidStaking
