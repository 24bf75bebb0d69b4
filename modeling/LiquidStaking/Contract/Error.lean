import LiquidStaking.Contract.Coin
import LiquidStaking.ControlPort
import LiquidStaking.Hub.Error
import LiquidStaking.Roles

/-!
# Refusals of the contract

The hub's and the roles' refusals, and those of the contract's own checks.
-/

namespace LiquidStaking

inductive ContractError where
  | hub (cause : HubError)
  | role (cause : RoleError)
  | chainId (cause : ChainIdError)
  | payment (cause : PaymentError)
  | invalidAddress (address : String)
  /-- An address of which the host makes something that is not text. -/
  | brokenAddress (address : String)
  | notFound (what : String)
  | minFeeUnavailable
  | registerFeeUnavailable
  | registerFeeUnset
  | unreadableVersion
  | blankEpoch (kind : EpochKind)
  | sameEpochs
  | zeroAccountTimeout
  | zeroTransferTimeout
  | blankSubdenom
  | registerDeposit (required : Amount) (denom : Denom)
  | restoreDeposit (required : Amount) (denom : Denom)
  | unknownAccount (name : String)
  | unknownChain (chain : ChainId)
  | unknownIdentifier (identifier : String)
  | unknownPort (port : String)
  | underpaid (cost paid : Amount)
  deriving DecidableEq, Repr

def ContractError.message : ContractError → String
  | .hub cause => cause.message
  | .role cause => cause.message
  | .chainId cause => cause.message
  | .payment cause => cause.message
  | .invalidAddress address => "invalid address: " ++ address
  | .brokenAddress address => "address is not text: " ++ address
  | .notFound what => what ++ " not found"
  | .minFeeUnavailable => "minimum relayer fee unavailable"
  | .registerFeeUnavailable => "interchain account register fee unavailable"
  | .registerFeeUnset => "Generic error: interchain account register fee not set"
  | .unreadableVersion => "unreadable counterparty version"
  | .blankEpoch kind => kind.name ++ " epoch identifier is not empty"
  | .sameEpochs => "delegation and undelegation epoch identifiers differ"
  | .zeroAccountTimeout => "ica timeout is greater than zero"
  | .zeroTransferTimeout => "transfer timeout is greater than zero"
  | .blankSubdenom => "derivative subdenom is not empty"
  | .registerDeposit required denom =>
      Digits.ofNat required ++ " " ++ denom ++ " required to register a chain"
  | .restoreDeposit required denom =>
      Digits.ofNat required ++ " " ++ denom ++ " required to restore a control account"
  | .unknownAccount name => "unrecognised control account: " ++ name
  | .unknownChain chain => "unknown source chain: " ++ chain
  | .unknownIdentifier identifier => "unknown epoch identifier: " ++ identifier
  | .unknownPort port => "unrecognised control account port: " ++ port
  | .underpaid cost paid =>
      "insufficient funds for dispatch: expected " ++ Digits.ofNat cost ++ " " ++ feeDenom
        ++ ", received " ++ Digits.ofNat paid ++ " " ++ feeDenom

end LiquidStaking
