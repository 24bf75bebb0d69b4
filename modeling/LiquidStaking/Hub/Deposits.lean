import LiquidStaking.Hub.Rewards

/-!
# Deposits

A deposit joins the current batch and is paid for in derivative at the current
rate.  With every delegation epoch each earlier batch moves one step: out of
escrow to the delegate account, then into delegations.  A delegation that failed
waits until an operator drives it again.
-/

namespace LiquidStaking.Hub

def deposit (v : View) (chainId : ChainId) (amount : Amount) (depositor : Address) :
    Attempt HubError Response := do
  let chain ← v.chain chainId
  let epoch ← v.epoch .delegation
  let batch ← v.deposit chainId epoch
  Attempt.require (amount ≠ 0) .zeroAmount
  let minted ← Attempt.orRefuse (chain.rate.toDerivative? amount) .rateOverflow
  Attempt.require (minted ≠ 0) .amountTooSmall
  let amount ← Attempt.orRefuse (Width.add? 128 batch.amount amount) .amountOverflow
  return ⟨[.deposit { batch with amount }, .token (.mint chain.derivativeDenom minted depositor)],
    []⟩

def delegation? (chain : Chain) (batch : DepositBatch) : Option RemoteOp := do
  let shares ← Allocation.byWeight? batch.amount chain.validators
  return .delegate chain.id batch.epoch shares

def moveDeposit (batch : DepositBatch) (status : DepositStatus) (op : Option RemoteOp) :
    DepositBatch × Response :=
  let batch := { batch with status }
  (batch, ⟨.deposit batch :: (op.map Command.dispatch).toList, [batch.notice]⟩)

def redriveDeposit (v : View) (chainId : ChainId) (epoch : Epoch) :
    Attempt HubError Response := do
  let chain ← v.chain chainId
  let batch ← v.deposit chainId epoch
  Attempt.require (batch.status = .failed) (.notFailed batch.status)
  Attempt.require (chain.delegateAddress.isSome) (.accountNotOpen chain.id .delegate)
  let op ← Attempt.promised (delegation? chain batch)
  return (moveDeposit batch .delegating (some op)).2

def resetDeposit (v : View) (chainId : ChainId) (epoch : Epoch) :
    Attempt HubError Response := do
  let _ ← v.chain chainId
  let batch ← v.deposit chainId epoch
  match batch.status with
  | .transferring => return (moveDeposit batch .transferFailed none).2
  | .delegating => return (moveDeposit batch .failed none).2
  | status => Attempt.refuse (.depositNotAwaited status)

/-- One step for a batch of an earlier epoch.  Reinvested rewards already sit
with the delegate account, so only the net amount is transferred. -/
def advanceDeposit? (chain : Chain) (batch : DepositBatch) : Option (DepositBatch × Response) :=
  if !batch.status.awaitsEpoch then some (batch, .empty)
  else if batch.amount = 0 then some (moveDeposit batch .done none)
  else if chain.delegateAddress.isNone then
    some (batch, ⟨[], [.awaitingAccount chain.id .delegate]⟩)
  else if batch.net = 0 then
    (delegation? chain batch).map fun op => moveDeposit batch .delegating (some op)
  else
    some (moveDeposit batch .transferring
      (some (.transferDeposit chain.id batch.epoch batch.net)))

/-- What settled stake and unsettled batches are worth per derivative; skipped
without backing or supply. -/
def updateRate (chain : Chain) (inFlight supply : Amount) : Response :=
  let backing := Width.addSat 128 chain.staked inFlight
  match if 0 < backing then Rate.ofBacking? backing supply else none with
  | some rate => ⟨[.chain { chain with rate }], [.rateUpdated chain.id rate]⟩
  | none => ⟨[], [.rateUpdateSkipped chain.id]⟩

/-- Open the batch of the epoch, move every earlier batch one step, collect
rewards, and refresh the rate last. -/
def advanceDeposits? (v : View) (s : Surroundings) (chain : Chain) (epoch : Epoch) :
    Option Response := do
  let current ← v.deposit? chain.id epoch
  let opened : Response :=
    if current.isNone then ⟨[.deposit (.empty chain.id epoch)], []⟩ else .empty
  let batches ← v.openDeposits chain.id
  let moved ← batches.mapM fun batch =>
    if batch.epoch < epoch then advanceDeposit? chain batch else some (batch, .empty)
  let unsettled := moved.filter fun (batch, _) => batch.status.inFlight
  let inFlight := Width.clamp 128 (Width.total (unsettled.map fun (batch, _) => batch.amount))
  let (chain, collected) := collectRewards chain
  return opened ++ Response.concat (moved.map Prod.snd) ++ collected
    ++ updateRate chain inFlight (s.supply chain.derivativeDenom)

/-! ## Acknowledgements -/

def depositTransferred (v : View) (chainId : ChainId) (epoch : Epoch) (outcome : Outcome) :
    Attempt HubError Response := do
  let found ← Attempt.promised (v.deposit? chainId epoch)
  match found.filter fun batch => batch.status == .transferring with
  | none => return .empty
  | some batch =>
      if !outcome.isSuccess then return (moveDeposit batch .transferFailed none).2
      else
        let chain ← v.chain chainId
        if chain.delegateAddress.isNone then
          let (_, response) := moveDeposit batch .failed none
          return ⟨[], [.awaitingAccount chain.id .delegate]⟩ ++ response
        else
          let op ← Attempt.promised (delegation? chain batch)
          return (moveDeposit batch .delegating (some op)).2

def depositDelegated (v : View) (chainId : ChainId) (epoch : Epoch) (shares : Allocation)
    (outcome : Outcome) : Attempt HubError Response := do
  let found ← Attempt.promised (v.deposit? chainId epoch)
  match found.filter fun batch => batch.status == .delegating with
  | none => return .empty
  | some batch =>
      match outcome with
      | .success receipts =>
          let chain ← v.chain chainId
          let (chain, notices) := holdRewards chain receipts
          let total ← Attempt.promised (Allocation.total? shares)
          let chain := { chain with
            validators := Allocation.book (Width.addSat 128) shares chain.validators
            staked := Width.addSat 128 chain.staked total }
          return ⟨[.chain chain], notices⟩ ++ (moveDeposit batch .done none).2
      | _ => return (moveDeposit batch .failed none).2

end LiquidStaking.Hub
