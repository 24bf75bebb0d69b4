import LiquidStaking.Contract.Registration
import LiquidStaking.Hub.Request

/-!
# Executions

What can be asked of the contract once it is set up.  Depositors deposit, redeem
and claim; the keeper starts epochs; all else takes the admin.  A refused
execution changes nothing.
-/

namespace LiquidStaking

def AdminRequest.request : AdminRequest → Request
  | .updateValidators chain validators => .updateValidators chain validators
  | .redriveDeposit chain epoch => .redriveDeposit chain epoch
  | .resetDeposit chain epoch => .resetDeposit chain epoch
  | .resetRedemption chain epoch => .resetRedemption chain epoch

def AdminRequest.attributes (request : AdminRequest) : List Attribute :=
  ("kind", request.name) ::
    match request with
    | .updateValidators chain validators =>
        [("chain_id", chain), ("validators", Digits.ofNat validators.length)]
    | .redriveDeposit chain epoch => [("chain_id", chain), ("epoch", Digits.ofNat epoch)]
    | .resetDeposit chain epoch => [("chain_id", chain), ("epoch", Digits.ofNat epoch)]
    | .resetRedemption chain epoch => [("chain_id", chain), ("epoch", Digits.ofNat epoch)]

namespace Contract

/-! ## Roles -/

def roleCommands (host : Host) (store : Store) (sender : Address) :
    RoleRequest → Attempt ContractError (List RoleCommand)
  | .nominateAdmin nominee => do
      let commands ← ofRoles (Roles.nominate store sender nominee)
      host.requireAddress nominee
      return commands
  | .claimAdmin => ofRoles (Roles.claimAdmin store sender)
  | .cancelNomination => ofRoles (Roles.cancelNomination store sender)
  | .setKeeper keeper => do
      let commands ← ofRoles (Roles.setKeeper store sender keeper)
      host.requireAddress keeper
      return commands

def changeRoles (host : Host) (caller : Caller) (store : Store) (request : RoleRequest) :
    Attempt ContractError (Answer × Store) := do
  let commands ← roleCommands host store caller.sender request
  let store ← Attempt.promised (store.applyRoles? commands)
  return (Answer.ofAttributes [("kind", request.name)], store)

/-! ## Administration -/

def administer (host : Host) (caller : Caller) (store : Store) (request : AdminRequest) :
    Attempt ContractError (Answer × Store) := do
  ofRoles (Roles.authorizeAdmin store caller.sender)
  let response ← ofHub (request.request.answer store.view host.surroundings)
  carryOutPaid host caller store response (Answer.report request.attributes response.notices)

def updateConfig (caller : Caller) (store : Store)
    (accountTimeout transferTimeout : Option Seconds) :
    Attempt ContractError (Answer × Store) := do
  ofRoles (Roles.authorizeAdmin store caller.sender)
  Attempt.require (accountTimeout ≠ some 0) .zeroAccountTimeout
  Attempt.require (transferTimeout ≠ some 0) .zeroTransferTimeout
  let store := accountTimeout.elim store store.setAccountTimeout
  let store := transferTimeout.elim store store.setTransferTimeout
  return (Answer.ofAttributes [("kind", "update_config")], store)

/-! ## Depositors -/

def payment (caller : Caller) (store : Store) (id : ChainId) (denom : Chain → Denom) :
    Attempt ContractError Amount := do
  let found ← Attempt.promised (store.chain? id)
  let chain ← ofHub (Attempt.orRefuse found (.unknownChain id))
  ofPayment (requiredPayment caller.funds (denom chain))

def userRequest (caller : Caller) (store : Store) :
    UserRequest → Attempt ContractError (Request × List Attribute)
  | .deposit chain => do
      let amount ← payment caller store chain Chain.voucherDenom
      return (.deposit chain amount caller.sender,
        [("chain_id", chain), ("amount", Digits.ofNat amount)])
  | .redeem chain => do
      let amount ← payment caller store chain Chain.derivativeDenom
      return (.redeem chain amount caller.sender,
        [("chain_id", chain), ("amount", Digits.ofNat amount)])
  | .payClaim chain epoch =>
      return (.payClaim caller.sender epoch chain,
        [("chain_id", chain), ("epoch", Digits.ofNat epoch)])

def serve (host : Host) (caller : Caller) (store : Store) (request : UserRequest) :
    Attempt ContractError (Answer × Store) := do
  let (asked, attributes) ← userRequest caller store request
  let response ← ofHub (asked.answer store.view host.surroundings)
  let attributes := ("kind", request.name) :: ("account", caller.sender) :: attributes
  carryOut host store response.commands (Answer.report attributes response.notices)

/-! ## Epochs -/

def startEpoch (host : Host) (caller : Caller) (store : Store) (identifier : String)
    (epoch : Epoch) : Attempt ContractError (Answer × Store) := do
  let kind ← requireEpochKind store identifier
  ofRoles (Roles.authorizeKeeper store caller.sender)
  let response ← ofHub (Hub.startEpoch store.view host.surroundings kind epoch)
  let attributes := [("kind", "before_epoch_start"), ("epoch_kind", kind.name),
    ("epoch", Digits.ofNat epoch)]
  carryOutPaid host caller store response (Answer.report attributes response.notices)

/-! ## All executions -/

def execute (host : Host) (caller : Caller) (store : Store) :
    Execution → Attempt ContractError (Answer × Store)
  | .role request => changeRoles host caller store request
  | .admin request => administer host caller store request
  | .user request => serve host caller store request
  | .registerChain request => registerChain host caller store request
  | .restoreAccount chain account => restoreAccount host caller store chain account
  | .startEpoch identifier epoch => startEpoch host caller store identifier epoch
  | .updateConfig accountTimeout transferTimeout =>
      updateConfig caller store accountTimeout transferTimeout

end Contract

end LiquidStaking
