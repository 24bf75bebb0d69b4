import LiquidStaking.Batch

/-!
# Storage keys

Everything stored has a key.  A key of a family is the name of the family and
the components that single the entry out, each followed by a colon.
-/

namespace LiquidStaking

inductive Key where
  | chainIds
  | chain (id : ChainId)
  | epoch (kind : EpochKind)
  | deposit (chain : ChainId) (epoch : Epoch)
  | openDeposits (chain : ChainId)
  | redemption (chain : ChainId) (epoch : Epoch)
  | openRedemptions (chain : ChainId)
  | claim (id : String)
  | claimIds (owner : Address)
  | nextReplyId
  | stashed (replyId : Nat)
  | registered (channel port : String) (sequence : Nat)
  | creator
  | admin
  | pendingAdmin
  | keeper
  | delegationEpoch
  | undelegationEpoch
  | accountTimeout
  | transferTimeout
  deriving DecidableEq, Repr

namespace Key

def compound (family : String) (components : List String) : String :=
  family ++ String.join (components.map (· ++ ":"))

def render : Key → String
  | .chainIds => "store::chain_ids"
  | .chain id => compound "store::chain" [id]
  | .epoch kind => compound "store::current_epoch" [kind.name]
  | .deposit id number => compound "store::proxy_delegation" [id, Digits.ofNat number]
  | .openDeposits id => compound "store::open_proxy_delegations" [id]
  | .redemption id number => compound "store::proxy_unbonding" [id, Digits.ofNat number]
  | .openRedemptions id => compound "store::open_proxy_unbondings" [id]
  | .claim id => compound "store::user_unbonding" [id]
  | .claimIds owner => compound "store::delegator_unbondings" [owner]
  | .nextReplyId => "callback::next_reply_id"
  | .stashed replyId => compound "callback::stashed" [Digits.ofNat replyId]
  | .registered channel port sequence =>
      compound "callback::registered" [channel, port, Digits.ofNat sequence]
  | .creator => "access::creator"
  | .admin => "access::admin"
  | .pendingAdmin => "access::pending_admin"
  | .keeper => "access::epoch_keeper"
  | .delegationEpoch => "staking_hub::delegation_epoch"
  | .undelegationEpoch => "staking_hub::undelegation_epoch"
  | .accountTimeout => "staking_hub::ica_timeout_seconds"
  | .transferTimeout => "staking_hub::transfer_timeout_seconds"

end Key

end LiquidStaking
