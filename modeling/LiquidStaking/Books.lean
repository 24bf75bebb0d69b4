import LiquidStaking.Hub.Response
import LiquidStaking.Hub.View

/-!
# Books

The recorded state as plain maps: chains by id, batches by chain and epoch,
claims by id.  The batches of a chain are kept in the order of their epochs,
the claims of an owner in the order they were first written.
-/

namespace LiquidStaking

def setAt {κ α : Type} [DecidableEq κ] (f : κ → α) (key : κ) (value : α) : κ → α :=
  fun other => if other = key then value else f other

@[simp] theorem setAt_same {κ α : Type} [DecidableEq κ] (f : κ → α) (key : κ) (value : α) :
    setAt f key value key = value := by
  simp [setAt]

theorem setAt_other {κ α : Type} [DecidableEq κ] (f : κ → α) {key other : κ} (value : α)
    (differ : other ≠ key) : setAt f key value other = f other := by
  simp [setAt, differ]

def putByEpoch {α : Type} (epoch : α → Epoch) (record : α) : List α → List α
  | [] => [record]
  | first :: rest =>
      if epoch record < epoch first then record :: first :: rest
      else if epoch record = epoch first then record :: rest
      else first :: putByEpoch epoch record rest

structure Books where
  chainIds : List ChainId
  chain? : ChainId → Option Chain
  epoch? : EpochKind → Option Epoch
  deposits : ChainId → List DepositBatch
  redemptions : ChainId → List RedemptionBatch
  claim? : String → Option Claim
  /-- Ids of the claims of an owner, as first written. -/
  claimIds : Address → List String

namespace Books

def empty : Books where
  chainIds := []
  chain? := fun _ => none
  epoch? := fun _ => none
  deposits := fun _ => []
  redemptions := fun _ => []
  claim? := fun _ => none
  claimIds := fun _ => []

def deposit? (b : Books) (chain : ChainId) (epoch : Epoch) : Option DepositBatch :=
  (b.deposits chain).find? fun batch => batch.epoch == epoch

def redemption? (b : Books) (chain : ChainId) (epoch : Epoch) : Option RedemptionBatch :=
  (b.redemptions chain).find? fun batch => batch.epoch == epoch

def openDeposits (b : Books) (chain : ChainId) : List DepositBatch :=
  (b.deposits chain).filter DepositBatch.isOpen

def openRedemptions (b : Books) (chain : ChainId) : List RedemptionBatch :=
  (b.redemptions chain).filter RedemptionBatch.isOpen

def claimsOf (b : Books) (owner : Address) (chain : Option ChainId) : List Claim :=
  ((b.claimIds owner).filterMap b.claim?).filter fun claim =>
    chain.all fun id => claim.chain == id

def view (b : Books) : View where
  chainIds := some b.chainIds
  chain? := fun id => some (b.chain? id)
  epoch? := fun kind => some (b.epoch? kind)
  deposit? := fun chain epoch => some (b.deposit? chain epoch)
  openDeposits := fun chain => some (b.openDeposits chain)
  redemption? := fun chain epoch => some (b.redemption? chain epoch)
  openRedemptions := fun chain => some (b.openRedemptions chain)
  claim? := fun id => some (b.claim? id)

/-! ## Writing -/

def putChain (b : Books) (record : Chain) : Books :=
  { b with
    chainIds := if record.id ∈ b.chainIds then b.chainIds else b.chainIds ++ [record.id]
    chain? := setAt b.chain? record.id (some record) }

def putDeposit (b : Books) (record : DepositBatch) : Books :=
  { b with
    deposits := setAt b.deposits record.chain
      (putByEpoch DepositBatch.epoch record (b.deposits record.chain)) }

def putRedemption (b : Books) (record : RedemptionBatch) : Books :=
  { b with
    redemptions := setAt b.redemptions record.chain
      (putByEpoch RedemptionBatch.epoch record (b.redemptions record.chain)) }

def putClaim (b : Books) (record : Claim) : Books :=
  { b with
    claim? := setAt b.claim? record.id (some record)
    claimIds :=
      if (b.claim? record.id).isSome then b.claimIds
      else setAt b.claimIds record.owner (b.claimIds record.owner ++ [record.id]) }

/-- Token orders and dispatches are carried out elsewhere and write nothing. -/
def apply (b : Books) : Command → Books
  | .chain record => b.putChain record
  | .epoch kind epoch => { b with epoch? := setAt b.epoch? kind (some epoch) }
  | .deposit record => b.putDeposit record
  | .redemption record => b.putRedemption record
  | .claim record => b.putClaim record
  | .token _ => b
  | .dispatch _ => b

def applyAll (b : Books) (commands : List Command) : Books := commands.foldl apply b

end Books

end LiquidStaking
