import LiquidStaking.Attempt
import LiquidStaking.Chain
import LiquidStaking.Json.Document

/-!
# Coins, payments and relayer fees

A call carries coins.  A payment of one denom is either required, and then it is
the only coin and not zero, or allowed, and then there may be no coin at all.
Relayers are paid in one denom for every transaction they carry.
-/

namespace LiquidStaking

structure Coin where
  denom : Denom
  amount : Amount
  deriving DecidableEq, Repr

/-- The amount of a coin may be written with a plus sign and leading zeros. -/
instance : Document Coin where
  toJson c := .object [("denom", .string c.denom), ("amount", .amount c.amount)]
  ofJson? document := do
    let m ← document.asObject?
    return {
      denom := ← m.string? "denom"
      amount := ← (m.string? "amount").bind fun text => Digits.readSigned? 128 text.toList }

/-! ## Payments -/

inductive PaymentError where
  | noFunds
  | missingDenom (denom : Denom)
  | extraDenom (denom : Denom)
  | multipleDenoms
  deriving DecidableEq, Repr

def PaymentError.message : PaymentError → String
  | .noFunds => "No funds sent"
  | .missingDenom denom => "Must send reserve token '" ++ denom ++ "'"
  | .extraDenom denom => "Received unsupported denom '" ++ denom ++ "'"
  | .multipleDenoms => "Sent more than one denomination"

def requiredPayment (funds : List Coin) (denom : Denom) : Attempt PaymentError Amount :=
  match funds with
  | [] => Attempt.refuse .noFunds
  | [coin] =>
      if coin.amount = 0 then Attempt.refuse .noFunds
      else if coin.denom = denom then .ok coin.amount
      else Attempt.refuse (.missingDenom denom)
  | _ => Attempt.refuse .multipleDenoms

/-- Several coins that are all of the denom are never attached. -/
def allowedPayment (funds : List Coin) (denom : Denom) : Attempt PaymentError Amount :=
  match funds with
  | [] => .ok 0
  | coins =>
      match coins.find? fun coin => coin.denom != denom with
      | some other => Attempt.refuse (.extraDenom other.denom)
      | none =>
          match coins with
          | [coin] => .ok coin.amount
          | _ => Attempt.abort

/-! ## Relayer fees -/

structure RelayerFee where
  recv : List Coin
  ack : List Coin
  timeout : List Coin
  deriving DecidableEq, Repr

instance : Document RelayerFee where
  toJson f := .object [("recv_fee", Document.toJson f.recv), ("ack_fee", Document.toJson f.ack),
    ("timeout_fee", Document.toJson f.timeout)]
  ofJson? document := do
    let m ← document.asObject?
    return {
      recv := ← m.read? "recv_fee"
      ack := ← m.read? "ack_fee"
      timeout := ← m.read? "timeout_fee" }

def feeDenom : Denom := "untrn"

/-- What one transaction costs: both the acknowledgement and the timeout are
provided for. -/
def RelayerFee.perTransaction? (fee : RelayerFee) : Option Amount :=
  Width.sum? 128 (((fee.timeout ++ fee.ack).filter fun coin => coin.denom == feeDenom).map
    Coin.amount)

end LiquidStaking
