import LiquidStaking.Chain

/-!
# Allocations

How a batch is divided among validators.  `byWeight?` gives every validator but
the last its weighted share rounded down, and the last what remains, so the
shares sum to the whole.  `withinHoldings?` starts from the same shares but asks
no validator for more than it holds, moving the excess to validators with
something to spare, in the order of the set.

Both give `none` where a sum or a quotient leaves its width.
-/

namespace LiquidStaking

structure Share where
  validator : Address
  amount : Amount
  deriving DecidableEq, Repr

abbrev Allocation := List Share

namespace Allocation

def total? (shares : Allocation) : Option Amount :=
  Width.sum? 128 (shares.map Share.amount)

/-- The shares of validators still to be served when `allocated` of `total` is
given out. -/
def split? (total weights allocated : Nat) : List Validator → Option Allocation
  | [] => some []
  | [last] => do
      let amount ← Width.sub? total allocated
      return [⟨last.address, amount⟩]
  | validator :: rest => do
      let amount ← Width.mulDivFloor? total validator.weight weights
      let allocated ← Width.add? 128 allocated amount
      let shares ← split? total weights allocated rest
      return ⟨validator.address, amount⟩ :: shares

def byWeight? (total : Amount) (validators : List Validator) : Option Allocation := do
  let weights ← Width.sum? 128 (validators.map Validator.weight)
  split? total weights 0 validators

/-! ## Undelegations -/

def capped (shares : Allocation) (validators : List Validator) : Allocation :=
  List.zipWith (fun share validator =>
    { share with amount := min share.amount validator.delegated }) shares validators

def excess? (shares : Allocation) (validators : List Validator) : Option Amount :=
  Width.sum? 128 (List.zipWith (fun share validator => share.amount - validator.delegated)
    shares validators)

/-- Place `excess` with the validators that hold more than their share, the
first ones first; also what could not be placed. -/
def spread (excess : Amount) : Allocation → List Validator → Allocation × Amount
  | share :: shares, validator :: validators =>
      let moved := min excess (validator.delegated - share.amount)
      let (rest, left) := spread (excess - moved) shares validators
      ({ share with amount := share.amount + moved } :: rest, left)
  | shares, _ => (shares, excess)

def addToLast? (extra : Amount) : Allocation → Option Allocation
  | [] => some []
  | [last] => do
      let amount ← Width.add? 128 last.amount extra
      return [{ last with amount }]
  | share :: rest => do
      let rest ← addToLast? extra rest
      return share :: rest

def withinHoldings? (total : Amount) (validators : List Validator) : Option Allocation := do
  let shares ← byWeight? total validators
  let excess ← excess? shares validators
  let (placed, left) := spread excess (capped shares validators) validators
  addToLast? left placed

/-! ## Booking -/

def book (change : Amount → Amount → Amount) (shares : Allocation)
    (validators : List Validator) : List Validator :=
  shares.foldl (fun validators share => bookShare share validators) validators
where
  bookShare (share : Share) : List Validator → List Validator
    | [] => []
    | validator :: rest =>
        if validator.address = share.validator then
          { validator with delegated := change validator.delegated share.amount } :: rest
        else validator :: bookShare share rest

end Allocation

end LiquidStaking
