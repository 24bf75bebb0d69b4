import LiquidStaking.Books
import LiquidStaking.Records
import LiquidStaking.Store.Basic

/-!
# The books in storage

Chains, batches and claims as stored documents.  The open batches of a chain are
found through a stored index of their epochs, in ascending order; the claims of
an owner through an index of their ids, in the order they were first written.
-/

namespace LiquidStaking.Store

def chainIds (store : Store) : Readable (List ChainId) :=
  (store.document? Key.chainIds.render).map (·.getD [])

def chain? (store : Store) (id : ChainId) : Readable (Option Chain) :=
  store.document? (Key.chain id).render

def epoch? (store : Store) (kind : EpochKind) : Readable (Option Epoch) :=
  store.number? (Key.epoch kind).render

def deposit? (store : Store) (chain : ChainId) (epoch : Epoch) :
    Readable (Option DepositBatch) :=
  store.document? (Key.deposit chain epoch).render

def redemption? (store : Store) (chain : ChainId) (epoch : Epoch) :
    Readable (Option RedemptionBatch) :=
  store.document? (Key.redemption chain epoch).render

def openEpochs (store : Store) (index : Key) : Readable (List Epoch) :=
  (store.document? index.render).map (·.getD [])

/-- Indexed batches are always stored. -/
def openDeposits (store : Store) (chain : ChainId) : Readable (List DepositBatch) := do
  let epochs ← store.openEpochs (.openDeposits chain)
  epochs.mapM fun epoch => (store.deposit? chain epoch).bind id

def openRedemptions (store : Store) (chain : ChainId) : Readable (List RedemptionBatch) := do
  let epochs ← store.openEpochs (.openRedemptions chain)
  epochs.mapM fun epoch => (store.redemption? chain epoch).bind id

def claim? (store : Store) (id : String) : Readable (Option Claim) :=
  store.document? (Key.claim id).render

def claimIds (store : Store) (owner : Address) : Readable (List String) :=
  (store.document? (Key.claimIds owner).render).map (·.getD [])

def claimsOf (store : Store) (owner : Address) (chain : Option ChainId) :
    Readable (List Claim) := do
  let ids ← store.claimIds owner
  let claims ← ids.mapM store.claim?
  return (claims.filterMap id).filter fun claim => chain.all fun id => claim.chain == id

def view (store : Store) : View where
  chainIds := store.chainIds
  chain? := store.chain?
  epoch? := store.epoch?
  deposit? := store.deposit?
  openDeposits := store.openDeposits
  redemption? := store.redemption?
  openRedemptions := store.openRedemptions
  claim? := store.claim?

/-! ## Writing -/

def updateIndex (store : Store) (index : Key) (epoch : Epoch) (isOpen : Bool) :
    Readable Store := do
  let epochs ← store.openEpochs index
  if isOpen then
    if epoch ∈ epochs then return store
    else return store.setDocument index.render (putByEpoch id epoch epochs)
  else
    if epoch ∈ epochs then return store.setDocument index.render (epochs.erase epoch)
    else return store

def putChain (store : Store) (record : Chain) : Readable Store := do
  let ids ← store.chainIds
  let store :=
    if record.id ∈ ids then store
    else store.setDocument Key.chainIds.render (ids ++ [record.id])
  return store.setDocument (Key.chain record.id).render record

def putDeposit (store : Store) (record : DepositBatch) : Readable Store := do
  let store ← store.updateIndex (.openDeposits record.chain) record.epoch record.isOpen
  return store.setDocument (Key.deposit record.chain record.epoch).render record

def putRedemption (store : Store) (record : RedemptionBatch) : Readable Store := do
  let store ← store.updateIndex (.openRedemptions record.chain) record.epoch record.isOpen
  return store.setDocument (Key.redemption record.chain record.epoch).render record

def putClaim (store : Store) (record : Claim) : Readable Store := do
  let key := (Key.claim record.id).render
  if store.has key then return store.setDocument key record
  else
    let ids ← store.claimIds record.owner
    let store := store.setDocument (Key.claimIds record.owner).render (ids ++ [record.id])
    return store.setDocument key record

inductive Effect where
  | token (order : TokenOrder)
  | dispatch (op : RemoteOp)
  deriving DecidableEq, Repr

def apply (store : Store) : Command → Readable (Store × Option Effect)
  | .chain record => (store.putChain record).map (·, none)
  | .epoch kind epoch => some (store.setNumber (Key.epoch kind).render epoch, none)
  | .deposit record => (store.putDeposit record).map (·, none)
  | .redemption record => (store.putRedemption record).map (·, none)
  | .claim record => (store.putClaim record).map (·, none)
  | .token order => some (store, some (.token order))
  | .dispatch op => some (store, some (.dispatch op))

def applyAll (store : Store) : List Command → Readable (Store × List Effect)
  | [] => some (store, [])
  | command :: rest => do
      let (store, effect) ← store.apply command
      let (store, effects) ← store.applyAll rest
      return (store, effect.toList ++ effects)

end LiquidStaking.Store
