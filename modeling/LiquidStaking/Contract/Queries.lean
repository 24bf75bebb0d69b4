import LiquidStaking.Contract.Effects
import LiquidStaking.Contract.Request.Query
import LiquidStaking.Hub.Epochs
import LiquidStaking.Roles

/-!
# Answers to queries

Queries change nothing.  A record is shown as it is stored, except that rates
are shown in their display form, statuses by their labels, and the escrow of a
chain not at all.
-/

namespace LiquidStaking.Contract

/-! ## Records -/

def withMember (name : String) (value : Json) : Json → Members
  | .object members => members.map fun (n, v) => if n = name then (n, value) else (n, v)
  | _ => []

def showChain (chain : Chain) : Json :=
  .object ((withMember "redemption_ratio" (.string chain.rate.toText)
    (Document.toJson chain)).filter fun (name, _) => name != "escrow_address")

def showDeposit (batch : DepositBatch) : Json :=
  .object (withMember "status" (.string batch.status.label) (Document.toJson batch))

def showRedemption (batch : RedemptionBatch) : Json :=
  .object (withMember "status" (.string batch.status.label) (Document.toJson batch))

def showClaim (claim : Claim) : Json :=
  .object (withMember "status" (.string claim.status.label) (Document.toJson claim))

def showConfig (config : Config) : Json :=
  .object [("delegation_epoch", .string config.delegationEpoch),
    ("undelegation_epoch", .string config.undelegationEpoch),
    ("ica_timeout_seconds", .nat config.accountTimeout),
    ("transfer_timeout_seconds", .nat config.transferTimeout)]

/-! ## Epoch costs -/

def epochCost (host : Host) (store : Store) (identifier : String) (epoch : Epoch) :
    Attempt ContractError (Amount × Nat) := do
  let kind ← requireEpochKind store identifier
  let response ← ofHub (Hub.startEpoch store.view host.surroundings kind epoch)
  let cost ← relayerCost host response.transactions
  return (cost, response.transactions)

/-! ## All queries -/

def found {α : Type} (read : Readable (Option α)) (what : String) :
    Attempt ContractError α := do
  let record ← Attempt.promised read
  Attempt.orRefuse record (.notFound what)

def query (host : Host) (store : Store) : Query → Attempt ContractError Json
  | .currentAdmin => do
      let admin ← Attempt.promised store.currentAdmin?
      return .object [("current_admin", .string admin)]
  | .pendingAdmin => do
      let nominee ← Attempt.promised store.pendingAdmin?
      return .object [("pending_admin", Json.ofOption .string nominee)]
  | .keeper => do
      let keeper ← Attempt.promised store.keeper?
      return .object [("epoch_keeper", Json.ofOption .string keeper)]
  | .chain id => do
      let chain ← found (store.chain? id) "chain"
      return showChain chain
  | .chains => do
      let ids ← Attempt.promised store.chainIds
      let chains ← Attempt.promised (ids.mapM store.chain?)
      return .object [("chains", .array ((chains.filterMap id).map showChain))]
  | .currentEpochs => do
      let delegation ← Attempt.promised (store.epoch? .delegation)
      let undelegation ← Attempt.promised (store.epoch? .undelegation)
      return .object [("delegation", Json.ofOption .nat delegation),
        ("undelegation", Json.ofOption .nat undelegation)]
  | .deposit chain epoch => do
      let batch ← found (store.deposit? chain epoch) "proxy delegation"
      return showDeposit batch
  | .redemption chain epoch => do
      let batch ← found (store.redemption? chain epoch) "proxy unbonding"
      return showRedemption batch
  | .claim chain epoch owner => do
      let claim ← found (store.claim? (claimId chain epoch owner)) "user unbonding"
      return showClaim claim
  | .claims owner chain => do
      let claims ← Attempt.promised (store.claimsOf owner chain)
      return .object [("unbondings", .array (claims.map showClaim))]
  | .registered channel port sequence => do
      let op ← Attempt.promised (store.registered? channel port sequence)
      return .object [("call_type", Json.ofOption .string (op.map RemoteOp.name)),
        ("chain_id", Json.ofOption .string (op.map RemoteOp.chain))]
  | .config => do
      let config ← Attempt.promised store.config?
      return showConfig config
  | .epochCost identifier epoch => do
      let (cost, transactions) ← epochCost host store identifier epoch
      return .object [("cost", .amount cost), ("tx_count", .nat transactions)]

end LiquidStaking.Contract
