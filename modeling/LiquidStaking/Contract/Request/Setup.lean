import LiquidStaking.Chain
import LiquidStaking.Contract.Request.Fields

/-!
# Setting up and migrating

What is given when the contract is set up, by name; a migration takes nothing.
-/

namespace LiquidStaking

structure Setup where
  delegationEpoch : String
  undelegationEpoch : String
  keeper : Option Address
  accountTimeout : Option Seconds
  transferTimeout : Option Seconds
  deriving DecidableEq, Repr

def Setup.ofJson? (document : Json) : Option Setup := do
  let m ← Members.ofNamed? ["delegation_epoch", "undelegation_epoch", "epoch_keeper",
    "ica_timeout_seconds", "transfer_timeout_seconds"] document
  return {
    delegationEpoch := ← m.string? "delegation_epoch"
    undelegationEpoch := ← m.string? "undelegation_epoch"
    keeper := ← m.optionalString? "epoch_keeper"
    accountTimeout := ← m.optionalNat? "ica_timeout_seconds"
    transferTimeout := ← m.optionalNat? "transfer_timeout_seconds" }

def Setup.ofText? (text : String) : Option Setup := (Json.ofText? .strict text).bind Setup.ofJson?

def isMigration (document : Json) : Bool := (Members.ofNamed? [] document).isSome

def isMigrationText (text : String) : Bool := (Json.ofText? .strict text).any isMigration

end LiquidStaking
