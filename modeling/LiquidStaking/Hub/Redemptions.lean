import LiquidStaking.Hub.Rewards

/-!
# Redemptions

A redemption locks derivative for its share of the stake and joins the current
batch.  The next undelegation epoch starts unbonding it; once the stake has
matured, plus a margin, it is withdrawn to the hub, where every member claims
its part.
-/

namespace LiquidStaking.Hub

/-- Seconds to wait past the completion time before unbonded funds are withdrawn. -/
def withdrawMargin : Seconds := 300

/-- Stake not yet promised to a redemption that still has to start. -/
def availableStake? (v : View) (chain : Chain) : Option Amount := do
  let batches ← v.openRedemptions chain.id
  let promised ← Width.sum? 128
    ((batches.filter fun batch => batch.status.holdsStake).map RedemptionBatch.redeemable)
  return chain.staked - promised

def escrowed? (v : View) (chain : Chain) : Option Amount := do
  let batches ← v.openDeposits chain.id
  return Width.clamp 128 (Width.total
    ((batches.filter fun batch => batch.status.awaitsEpoch).map DepositBatch.net))

def redeem (v : View) (chainId : ChainId) (amount : Amount) (owner : Address) :
    Attempt HubError Response := do
  let chain ← v.chain chainId
  let epoch ← v.epoch .undelegation
  Attempt.require (amount ≠ 0) .zeroAmount
  let id := claimId chainId epoch owner
  let earlier ← Attempt.promised (v.claim? id)
  Attempt.require (earlier = none) (.alreadyRedeemed chainId epoch owner)
  let owed ← Attempt.orRefuse (chain.rate.toNative? amount) .rateOverflow
  Attempt.require (owed ≠ 0) .amountTooSmall
  let available ← Attempt.promised (availableStake? v chain)
  Attempt.require (owed ≤ available) (.exceedsStake owed available)
  let found ← Attempt.promised (v.redemption? chainId epoch)
  let batch := found.getD (.empty chainId epoch)
  let burned ← Attempt.orRefuse (Width.add? 128 batch.burned amount) .amountOverflow
  let redeemable ← Attempt.orRefuse (Width.add? 128 batch.redeemable owed) .amountOverflow
  let batch := { batch with burned, redeemable, members := batch.members ++ [id] }
  let claim : Claim := ⟨id, chain.id, epoch, owner, owed, chain.voucherDenom, .pending⟩
  return ⟨[.redemption batch, .claim claim], []⟩

def payClaim (v : View) (s : Surroundings) (owner : Address) (epoch : Epoch)
    (chainId : ChainId) : Attempt HubError Response := do
  let chain ← v.chain chainId
  let found ← Attempt.promised (v.claim? (claimId chainId epoch owner))
  let claim ← Attempt.orRefuse (found.filter fun claim => claim.status == .claimable)
    .notClaimable
  let escrowed ← Attempt.promised (escrowed? v chain)
  let available := s.balance claim.denom - escrowed
  Attempt.require (claim.amount ≤ available) (.exceedsFunds claim.amount available)
  return ⟨[.claim { claim with status := .complete },
    .token (.send claim.denom claim.amount claim.owner)], []⟩

def moveRedemption (batch : RedemptionBatch) (status : RedemptionStatus)
    (op : Option RemoteOp) : Response :=
  let batch := { batch with status }
  ⟨.redemption batch :: (op.map Command.dispatch).toList, [batch.notice]⟩

def resetRedemption (v : View) (chainId : ChainId) (epoch : Epoch) :
    Attempt HubError Response := do
  let _ ← v.chain chainId
  let batch ← v.redemption chainId epoch
  match batch.status with
  | .starting => return moveRedemption batch .startFailed none
  | .withdrawing => return moveRedemption batch .transferFailed none
  | status => Attempt.refuse (.redemptionNotAwaited status)

def matured (now : Seconds) (batch : RedemptionBatch) : Bool :=
  batch.completion.any fun time => Width.addSat 64 time withdrawMargin ≤ now

/-- The operation a batch of an earlier epoch is ready for, and the status it
waits in; none for a batch that is not ready. -/
def nextRedemptionStep? (now : Seconds) (chain : Chain) (batch : RedemptionBatch) :
    Option (Option (RemoteOp × RedemptionStatus)) :=
  let start := do
    let shares ← Allocation.withinHoldings? batch.redeemable chain.validators
    return some (.undelegate chain.id batch.epoch shares, .starting)
  let withdraw :=
    some (some (.withdrawUnbonded chain.id batch.epoch batch.redeemable, .withdrawing))
  match batch.status with
  | .pending => start
  | .startFailed => start
  | .waiting => if matured now batch then withdraw else some none
  | .transferFailed => withdraw
  | _ => some none

def advanceRedemption? (now : Seconds) (chain : Chain) (batch : RedemptionBatch) :
    Option Response := do
  match ← nextRedemptionStep? now chain batch with
  | none => return .empty
  | some (op, status) =>
      if chain.delegateAddress.isNone then return ⟨[], [.awaitingAccount chain.id .delegate]⟩
      else return moveRedemption batch status (some op)

def advanceRedemptions? (v : View) (s : Surroundings) (chain : Chain) (epoch : Epoch) :
    Option Response := do
  let batches ← v.openRedemptions chain.id
  let moved ← (batches.filter fun batch => batch.epoch < epoch).mapM fun batch =>
    advanceRedemption? s.now chain batch
  return Response.concat moved

/-! ## Acknowledgements -/

def completionTime (now : Seconds) (chain : Chain) (receipts : List Receipt) : Seconds :=
  (Receipt.latestCompletion? receipts).getD (Width.addSat 64 now chain.unbondingPeriod)

def redemptionStarted (v : View) (s : Surroundings) (chainId : ChainId) (epoch : Epoch)
    (shares : Allocation) (outcome : Outcome) : Attempt HubError Response := do
  let found ← Attempt.promised (v.redemption? chainId epoch)
  match found.filter fun batch => batch.status == .starting with
  | none => return .empty
  | some batch =>
      match outcome with
      | .success receipts =>
          let chain ← v.chain chainId
          let (chain, notices) := holdRewards chain receipts
          let completion := completionTime s.now chain receipts
          let total ← Attempt.promised (Allocation.total? shares)
          let chain := { chain with
            validators := Allocation.book (fun held share => held - share) shares chain.validators
            staked := chain.staked - total }
          let response := moveRedemption { batch with completion := some completion } .waiting none
          return ⟨[.chain chain], notices⟩ ++ response
            ++ ⟨[.token (.burn chain.derivativeDenom batch.burned)], []⟩
      | _ => return moveRedemption batch .startFailed none

def redemptionWithdrawn (v : View) (chainId : ChainId) (epoch : Epoch) (outcome : Outcome) :
    Attempt HubError Response := do
  let found ← Attempt.promised (v.redemption? chainId epoch)
  match found.filter fun batch => batch.status == .withdrawing with
  | none => return .empty
  | some batch =>
      if !outcome.isSuccess then return moveRedemption batch .transferFailed none
      else
        let members ← Attempt.promised (batch.members.mapM v.claim?)
        let claims := (members.filterMap id).map fun claim =>
          Command.claim { claim with status := .claimable }
        return ⟨claims, []⟩ ++ moveRedemption batch .done none

end LiquidStaking.Hub
