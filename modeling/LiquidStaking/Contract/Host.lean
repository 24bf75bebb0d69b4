import LiquidStaking.Contract.Error
import LiquidStaking.Hub.View

/-!
# The host

What the chain that runs the contract tells it: its own address, the time, the
bank, the fees in force, and which texts are addresses.
-/

namespace LiquidStaking

/-- The host refuses a text, or what it makes of it is no text. -/
inductive AddressFault where
  | invalid
  | broken
  deriving DecidableEq, Repr

def AddressFault.error (text : String) : AddressFault → ContractError
  | .invalid => .invalidAddress text
  | .broken => .brokenAddress text

structure Host where
  contract : Address
  /-- Block time in nanoseconds since the start of 1970. -/
  nanos : Nat
  supply : Denom → Amount
  balance : Denom → Amount
  /-- The least relayer fee; none while it cannot be asked for. -/
  minFee : Option RelayerFee
  /-- The fee for an interchain account; none while it cannot be asked for. -/
  registerFee : Option (List Coin)
  /-- What is wrong with a text; none of an address. -/
  addressFault : String → Option AddressFault

namespace Host

def nanosPerSecond : Nat := 1000000000

def surroundings (host : Host) : Surroundings where
  now := host.nanos / nanosPerSecond
  supply := host.supply
  balance := host.balance

def later? (host : Host) (seconds : Seconds) : Option Nat :=
  Width.add? 64 host.nanos (seconds * nanosPerSecond)

def derivativeDenom (host : Host) (subdenom : String) : Denom :=
  "factory/" ++ host.contract ++ "/" ++ subdenom

def requireAddress (host : Host) (text : String) : Attempt ContractError Unit :=
  match host.addressFault text with
  | none => return ()
  | some fault => Attempt.refuse (fault.error text)

end Host

end LiquidStaking
