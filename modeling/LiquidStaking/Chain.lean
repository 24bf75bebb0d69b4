import LiquidStaking.Rate

/-!
# Remote chains

A chain the hub stakes on: how it is reached, the two accounts the hub controls
there, the validators it delegates to, and what it has staked so far.  A
registration is checked field by field, in the order of the fields; the first
defect found is the one reported.
-/

namespace LiquidStaking

abbrev Address := String
abbrev ChainId := String
abbrev Denom := String
abbrev Epoch := Nat

inductive EpochKind where
  | delegation
  | undelegation
  deriving DecidableEq, Repr

def EpochKind.name : EpochKind → String
  | .delegation => "delegation"
  | .undelegation => "undelegation"

def EpochKind.ofName? (name : String) : Option EpochKind :=
  if name = "delegation" then some .delegation
  else if name = "undelegation" then some .undelegation
  else none

/-- The remote accounts the hub drives: one holds the stake, the other receives
its rewards. -/
inductive ControlAccount where
  | delegate
  | unbond
  deriving DecidableEq, Repr

def ControlAccount.name : ControlAccount → String
  | .delegate => "delegate"
  | .unbond => "unbond"

def ControlAccount.ofName? (name : String) : Option ControlAccount :=
  if name = "delegate" then some .delegate
  else if name = "unbond" then some .unbond
  else none

def ControlAccount.all : List ControlAccount := [.delegate, .unbond]

structure Validator where
  address : Address
  weight : Nat
  delegated : Amount
  deriving DecidableEq, Repr

structure Chain where
  id : ChainId
  connection : String
  /-- Channel from the hub's ledger to the remote chain. -/
  transferChannel : String
  /-- Channel from the remote chain to the hub's ledger. -/
  remoteTransferChannel : String
  /-- Holds deposits on the hub's ledger until they are transferred. -/
  escrow : Address
  delegateAddress : Option Address
  unbondAddress : Option Address
  withdrawAddressSet : Bool
  validators : List Validator
  nativeDenom : Denom
  /-- What the native token is called on the hub's ledger. -/
  voucherDenom : Denom
  derivativeDenom : Denom
  rate : Rate
  /-- Delegated and settled on the remote chain. -/
  staked : Amount
  unbondingPeriod : Seconds
  /-- Rewards held by the unbond account, not yet moved for reinvestment. -/
  pendingRewards : Amount
  deriving DecidableEq, Repr

namespace Chain

def address? (chain : Chain) : ControlAccount → Option Address
  | .delegate => chain.delegateAddress
  | .unbond => chain.unbondAddress

def setAddress (chain : Chain) (account : ControlAccount) (address : Option Address) : Chain :=
  match account with
  | .delegate => { chain with delegateAddress := address }
  | .unbond => { chain with unbondAddress := address }

def bothOpen (chain : Chain) : Bool :=
  chain.delegateAddress.isSome && chain.unbondAddress.isSome

end Chain

structure Registration where
  chainId : ChainId
  connection : String
  transferChannel : String
  remoteTransferChannel : String
  escrow : Address
  nativeDenom : Denom
  voucherDenom : Denom
  derivativeDenom : Denom
  /-- Addresses and weights, in the order shares are allocated. -/
  validators : List (Address × Nat)
  unbondingPeriod : Seconds
  deriving DecidableEq, Repr

inductive ProfileDefect where
  | blank (field : String)
  | sameDenoms
  | noUnbondingPeriod
  | noValidators
  | zeroWeight (validator : Address)
  | repeated (validator : Address)
  deriving DecidableEq, Repr

def validatorDefect? (seen : List Address) : List (Address × Nat) → Option ProfileDefect
  | [] => none
  | (address, weight) :: rest =>
      if address = "" then some (.blank "validator address")
      else if weight = 0 then some (.zeroWeight address)
      else if address ∈ seen then some (.repeated address)
      else validatorDefect? (address :: seen) rest

def validatorSetDefect? (validators : List (Address × Nat)) : Option ProfileDefect :=
  if validators = [] then some .noValidators else validatorDefect? [] validators

namespace Registration

def blankField? : List (String × String) → Option ProfileDefect
  | [] => none
  | (field, value) :: rest => if value = "" then some (.blank field) else blankField? rest

def texts (r : Registration) : List (String × String) :=
  [("chain id", r.chainId), ("connection id", r.connection),
    ("transfer channel", r.transferChannel),
    ("remote transfer channel", r.remoteTransferChannel), ("escrow address", r.escrow),
    ("native denom", r.nativeDenom), ("ibc denom", r.voucherDenom),
    ("derivative denom", r.derivativeDenom)]

def defect? (r : Registration) : Option ProfileDefect :=
  (blankField? r.texts).or <|
    if r.nativeDenom = r.derivativeDenom ∨ r.voucherDenom = r.derivativeDenom then
      some .sameDenoms
    else if r.unbondingPeriod = 0 then some .noUnbondingPeriod
    else validatorSetDefect? r.validators

/-- The chain as it is first recorded: nothing staked, no account open. -/
def profile (r : Registration) : Chain where
  id := r.chainId
  connection := r.connection
  transferChannel := r.transferChannel
  remoteTransferChannel := r.remoteTransferChannel
  escrow := r.escrow
  delegateAddress := none
  unbondAddress := none
  withdrawAddressSet := false
  validators := r.validators.map fun (address, weight) => ⟨address, weight, 0⟩
  nativeDenom := r.nativeDenom
  voucherDenom := r.voucherDenom
  derivativeDenom := r.derivativeDenom
  rate := .par
  staked := 0
  unbondingPeriod := r.unbondingPeriod
  pendingRewards := 0

end Registration

end LiquidStaking
