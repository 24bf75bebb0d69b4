import LiquidStaking.Remote
import LiquidStaking.Text.Digits
import LiquidStaking.Wire.Field

/-!
# Acknowledgements on the wire

What a remote transaction reports, entry by entry: when undelegated stake is
free, and how much reward was withdrawn.  Entries come in two lists, current
responses and those of older chains, which name the request instead.
-/

namespace LiquidStaking.Wire

structure Entry where
  typeUrl : String
  value : Bytes
  deriving DecidableEq, Repr

def Entry.step (entry : Entry) (field : Field) : Option Entry :=
  match field.number with
  | 1 => field.text?.map fun typeUrl => { entry with typeUrl }
  | 2 => field.bytes?.map fun value => { entry with value }
  | _ => some entry

structure Report where
  legacy : List Entry
  responses : List Entry
  deriving DecidableEq, Repr

def Report.step (report : Report) (field : Field) : Option Report :=
  let entry? := field.bytes?.bind (merge? (maxDepth - 1) Entry.step ⟨"", []⟩)
  match field.number with
  | 1 => entry?.map fun entry => { report with legacy := report.legacy ++ [entry] }
  | 2 => entry?.map fun entry => { report with responses := report.responses ++ [entry] }
  | _ => some report

/-! ## Responses -/

/-- Seconds as a number of 64 bits in two's complement, and nanoseconds. -/
structure Timestamp where
  seconds : Nat
  nanos : Nat
  deriving DecidableEq, Repr

def Timestamp.step (time : Timestamp) (field : Field) : Option Timestamp :=
  match field.number with
  | 1 => field.number?.map fun seconds => { time with seconds }
  | 2 => field.number?.map fun nanos => { time with nanos }
  | _ => some time

/-- A repeated timestamp is merged with the one before. -/
def undelegatedStep (found : Option Timestamp) (field : Field) : Option (Option Timestamp) :=
  match field.number with
  | 1 => do
      let bytes ← field.bytes?
      let time ← merge? (maxDepth - 1) Timestamp.step (found.getD ⟨0, 0⟩) bytes
      return some time
  | _ => some found

structure CoinText where
  denom : String
  amount : String
  deriving DecidableEq, Repr

def CoinText.step (coin : CoinText) (field : Field) : Option CoinText :=
  match field.number with
  | 1 => field.text?.map fun denom => { coin with denom }
  | 2 => field.text?.map fun amount => { coin with amount }
  | _ => some coin

def withdrawnStep (coins : List CoinText) (field : Field) : Option (List CoinText) :=
  match field.number with
  | 1 => do
      let bytes ← field.bytes?
      let coin ← merge? (maxDepth - 1) CoinText.step ⟨"", ""⟩ bytes
      return coins ++ [coin]
  | _ => some coins

/-- The sum of the coins of a denom, as far as it is an amount; a coin whose
amount cannot be read counts nothing. -/
def rewardOf (denom : Denom) (coins : List CoinText) : Amount :=
  Width.clamp 128 (Width.total ((coins.filter fun coin => coin.denom == denom).filterMap fun coin =>
    Digits.readSigned? 128 coin.amount.toList))

def undelegateUrls : List String :=
  ["/cosmos.staking.v1beta1.MsgUndelegateResponse", "/cosmos.staking.v1beta1.MsgUndelegate"]

def withdrawUrls : List String :=
  ["/cosmos.distribution.v1beta1.MsgWithdrawDelegatorRewardResponse",
    "/cosmos.distribution.v1beta1.MsgWithdrawDelegatorReward"]

/-- What an entry reports: nothing for a type that is not acted upon, or for a
time before 1970. -/
def receipt? (denom : Denom) (entry : Entry) : Option (Option Receipt) :=
  if entry.typeUrl ∈ undelegateUrls then
    (merge? maxDepth undelegatedStep none entry.value).map fun time =>
      (time.filter fun time => time.seconds < Width.limit 63).map fun time =>
        .unbondsAt time.seconds
  else if entry.typeUrl ∈ withdrawUrls then
    (merge? maxDepth withdrawnStep [] entry.value).map fun coins =>
      some (.rewards (rewardOf denom coins))
  else some none

def receipts? (denom : Denom) (bytes : Bytes) : Option (List Receipt) := do
  let report ← merge? maxDepth Report.step ⟨[], []⟩ bytes
  let found ← (report.responses ++ report.legacy).mapM (receipt? denom)
  return found.filterMap id

end LiquidStaking.Wire
