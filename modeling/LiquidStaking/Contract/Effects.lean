import LiquidStaking.Contract.Dispatch

/-!
# Carrying out responses

The commands of a response are recorded, its token orders become messages, and
its operations are issued last, so that they see all that was recorded.  Whoever
starts operations on purpose pays their relayers, for the operations that follow
from their acknowledgements too, and gets back what is left.
-/

namespace LiquidStaking

def Response.transactions (response : Response) : Nat :=
  Width.total (response.dispatched.map RemoteOp.transactions)

namespace Contract

variable {α : Type}

def ofHub (answer : Attempt HubError α) : Attempt ContractError α := Attempt.mapCause .hub answer

def ofRoles (answer : Attempt RoleError α) : Attempt ContractError α :=
  Attempt.mapCause .role answer

def ofPayment (answer : Attempt PaymentError α) : Attempt ContractError α :=
  Attempt.mapCause .payment answer

def relayerFee (host : Host) : Attempt ContractError RelayerFee :=
  Attempt.orRefuse host.minFee .minFeeUnavailable

def relayerCost (host : Host) (transactions : Nat) : Attempt ContractError Amount := do
  if transactions = 0 then return 0
  else
    let fee ← relayerFee host
    let each ← Attempt.promised fee.perTransaction?
    Attempt.promised (Width.mul? 128 each transactions)

def issueOperations (host : Host) (store : Store) (ops : List RemoteOp) (answer : Answer) :
    Attempt ContractError (Answer × Store) := do
  if ops = [] then return (answer, store)
  else
    let fee ← relayerFee host
    let cost ← relayerCost host ops.length
    let (submissions, store) ← Attempt.promised (issueAll? host fee store ops)
    let answer := answer.addAttribute "ibc_fees" (Digits.ofNat cost)
    return (answer.addSubmissions submissions, store)

def orders (effects : List Store.Effect) : List TokenOrder :=
  effects.filterMap fun
    | .token order => some order
    | .dispatch _ => none

def operations (effects : List Store.Effect) : List RemoteOp :=
  effects.filterMap fun
    | .token _ => none
    | .dispatch op => some op

def carryOut (host : Host) (store : Store) (commands : List Command) (answer : Answer) :
    Attempt ContractError (Answer × Store) := do
  let (store, effects) ← Attempt.promised (store.applyAll commands)
  let answer := answer.addMessages ((orders effects).map TokenOrder.message)
  issueOperations host store (operations effects) answer

structure Caller where
  sender : Address
  funds : List Coin
  deriving DecidableEq, Repr

def carryOutPaid (host : Host) (caller : Caller) (store : Store) (response : Response)
    (answer : Answer) : Attempt ContractError (Answer × Store) := do
  let cost ← relayerCost host response.transactions
  let paid ← ofPayment (allowedPayment caller.funds feeDenom)
  Attempt.require (cost ≤ paid) (.underpaid cost paid)
  let (answer, store) ← carryOut host store response.commands answer
  if cost < paid then
    return (answer.addMessages [.send caller.sender [⟨feeDenom, paid - cost⟩]], store)
  else return (answer, store)

end Contract

end LiquidStaking
