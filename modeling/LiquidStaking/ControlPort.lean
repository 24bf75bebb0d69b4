import LiquidStaking.Chain
import LiquidStaking.Text.Bytes

/-!
# Ports of control accounts

A control account is registered as its chain and its role with a point between;
the port opened for it also names the hub.  A chain id without a point, and
short enough, can be recovered from the port.
-/

namespace LiquidStaking

inductive ChainIdError where
  | hasPoint (chain : ChainId)
  | tooLong (accountId : String)
  deriving DecidableEq, Repr

def ChainIdError.message : ChainIdError → String
  | .hasPoint chain => "chain id " ++ chain ++ " must not contain '.'"
  | .tooLong accountId => "interchain account id " ++ accountId ++ " exceeds 47 bytes"

namespace ControlPort

/-- With a hub address of 66 bytes, longer account ids make ports of more than 128. -/
def maxAccountIdLength : Nat := 47

def accountId (chain : ChainId) (account : ControlAccount) : String :=
  chain ++ "." ++ account.name

def portHead : String := "icacontroller-"

def portId (hub : Address) (chain : ChainId) (account : ControlAccount) : String :=
  portHead ++ hub ++ "." ++ accountId chain account

def chainIdError? (chain : ChainId) : Option ChainIdError :=
  if '.' ∈ chain.toList then some (.hasPoint chain)
  else
    ((ControlAccount.all.map (accountId chain)).find? fun id =>
      maxAccountIdLength < Bytes.textLength id).map .tooLong

def stripStart? : List Char → List Char → Option (List Char)
  | [], text => some text
  | c :: start, d :: text => if c = d then stripStart? start text else none
  | _ :: _, [] => none

def splitFirst? (text : List Char) : Option (List Char × List Char) :=
  match text.dropWhile (· != '.') with
  | [] => none
  | _ :: rest => some (text.takeWhile (· != '.'), rest)

def splitLast? (text : List Char) : Option (List Char × List Char) :=
  (splitFirst? text.reverse).map fun (after, before) => (before.reverse, after.reverse)

def parse? (port : String) : Option (ChainId × ControlAccount) := do
  let text ← stripStart? portHead.toList port.toList
  let (_, id) ← splitFirst? text
  let (chain, role) ← splitLast? id
  let account ← ControlAccount.ofName? (String.ofList role)
  if chain = [] then none else some (String.ofList chain, account)

end ControlPort

end LiquidStaking
