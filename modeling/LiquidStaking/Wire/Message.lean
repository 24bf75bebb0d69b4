import LiquidStaking.Chain
import LiquidStaking.Wire.Field

/-!
# Messages to remote chains

The staking, distribution and transfer messages that control accounts execute,
each written with its fields in order.
-/

namespace LiquidStaking.Wire

structure Envelope where
  typeUrl : String
  value : Bytes
  deriving DecidableEq, Repr

def putCoin (amount : Amount) (denom : Denom) : Bytes :=
  putText 1 denom ++ putText 2 (Digits.ofNat amount)

def delegate (delegator validator : Address) (amount : Amount) (denom : Denom) : Envelope where
  typeUrl := "/cosmos.staking.v1beta1.MsgDelegate"
  value := putText 1 delegator ++ putText 2 validator ++ putDelimited 3 (putCoin amount denom)

def undelegate (delegator validator : Address) (amount : Amount) (denom : Denom) : Envelope where
  typeUrl := "/cosmos.staking.v1beta1.MsgUndelegate"
  value := putText 1 delegator ++ putText 2 validator ++ putDelimited 3 (putCoin amount denom)

def withdrawReward (delegator validator : Address) : Envelope where
  typeUrl := "/cosmos.distribution.v1beta1.MsgWithdrawDelegatorReward"
  value := putText 1 delegator ++ putText 2 validator

def setWithdrawAddress (delegator receiver : Address) : Envelope where
  typeUrl := "/cosmos.distribution.v1beta1.MsgSetWithdrawAddress"
  value := putText 1 delegator ++ putText 2 receiver

def send (sender receiver : Address) (amount : Amount) (denom : Denom) : Envelope where
  typeUrl := "/cosmos.bank.v1beta1.MsgSend"
  value := putText 1 sender ++ putText 2 receiver ++ putDelimited 3 (putCoin amount denom)

def transfer (port channel : String) (amount : Amount) (denom : Denom)
    (sender receiver : Address) (timeout : Nat) : Envelope where
  typeUrl := "/ibc.applications.transfer.v1.MsgTransfer"
  value := putText 1 port ++ putText 2 channel ++ putDelimited 3 (putCoin amount denom)
    ++ putText 4 sender ++ putText 5 receiver ++ putNumber 7 timeout

end LiquidStaking.Wire
