import LiquidStaking.Contract.Host
import LiquidStaking.Hub.Response
import LiquidStaking.Wire.Message

/-!
# Messages and answers

What the contract asks of its host, and what it reports of a call.
-/

namespace LiquidStaking

inductive Message where
  | send (recipient : Address) (coins : List Coin)
  | createDenom (subdenom : String)
  | mint (denom : Denom) (amount : Amount) (recipient : Address)
  | burn (denom : Denom) (amount : Amount)
  | registerAccount (connection accountId : String) (fee : List Coin)
  | transfer (port channel : String) (token : Coin) (sender receiver : Address)
      (timeoutNanos : Nat) (fee : RelayerFee)
  | submit (connection accountId : String) (messages : List Wire.Envelope)
      (timeout : Seconds) (fee : RelayerFee)
  deriving DecidableEq, Repr

structure Submission where
  message : Message
  replyId : Option Nat
  deriving DecidableEq, Repr

abbrev Attribute := String × String

structure Event where
  name : String
  attributes : List Attribute
  deriving DecidableEq, Repr

structure Answer where
  submissions : List Submission
  attributes : List Attribute
  events : List Event
  deriving DecidableEq, Repr

namespace Answer

def empty : Answer := ⟨[], [], []⟩

def ofAttributes (attributes : List Attribute) : Answer := ⟨[], attributes, []⟩

def addAttribute (answer : Answer) (name value : String) : Answer :=
  { answer with attributes := answer.attributes ++ [(name, value)] }

def addMessages (answer : Answer) (messages : List Message) : Answer :=
  { answer with
    submissions := answer.submissions ++ messages.map fun message => ⟨message, none⟩ }

def addSubmissions (answer : Answer) (submissions : List Submission) : Answer :=
  { answer with submissions := answer.submissions ++ submissions }

end Answer

def TokenOrder.message : TokenOrder → Message
  | .mint denom amount recipient => .mint denom amount recipient
  | .burn denom amount => .burn denom amount
  | .send denom amount recipient => .send recipient [⟨denom, amount⟩]

/-! ## Notices -/

def Notice.event : Notice → Event
  | .depositStatus chain epoch status =>
      ⟨"xstake/delegation_status",
        [("chain_id", chain), ("epoch", Digits.ofNat epoch), ("status", status.label)]⟩
  | .redemptionStatus chain epoch status =>
      ⟨"xstake/unbonding_status",
        [("chain_id", chain), ("epoch", Digits.ofNat epoch), ("status", status.label)]⟩
  | .rateUpdated chain rate =>
      ⟨"xstake/ratio_updated", [("chain_id", chain), ("ratio", rate.toText)]⟩
  | .rateUpdateSkipped chain => ⟨"xstake/ratio_update_skipped", [("chain_id", chain)]⟩
  | .awaitingAccount chain account =>
      ⟨"xstake/awaiting_control_account", [("chain_id", chain), ("account", account.name)]⟩
  | .accountClosed chain account =>
      ⟨"xstake/control_account_closed", [("chain_id", chain), ("account", account.name)]⟩
  | .withdrawAddressSet chain success =>
      ⟨"xstake/withdraw_address_set",
        [("chain_id", chain), ("success", if success then "true" else "false")]⟩
  | .rewardsWithdrawn chain amount =>
      ⟨"xstake/rewards_withdrawn", [("chain_id", chain), ("amount", Digits.ofNat amount)]⟩
  | .rewardsReinvested chain epoch amount =>
      ⟨"xstake/rewards_reinvested",
        [("chain_id", chain), ("epoch", Digits.ofNat epoch), ("amount", Digits.ofNat amount)]⟩

def Answer.report (attributes : List Attribute) (notices : List Notice) : Answer :=
  ⟨[], attributes, notices.map Notice.event⟩

end LiquidStaking
