import LiquidStaking.Contract.Effects
import LiquidStaking.Contract.Request.Notification
import LiquidStaking.Hub.Registration
import LiquidStaking.Hub.Resolution
import LiquidStaking.Wire.Acknowledgement

/-!
# Notifications and replies

The host reports how operations ended, which sequences they were given, and
which accounts were opened.  An operation is taken out of the registry before it
is acted upon, so a report that is repeated finds nothing and changes nothing.
-/

namespace LiquidStaking.Contract

def flag (value : Bool) : String := if value then "true" else "false"

/-! ## Accounts -/

def accountOpened (host : Host) (store : Store) (port version : String) :
    Attempt ContractError (Answer × Store) := do
  let (chain, account) ← Attempt.orRefuse (ControlPort.parse? port) (.unknownPort port)
  let address ← Attempt.orRefuse (openedAddress? version) .unreadableVersion
  let response ← ofHub (Hub.accountOpened store.view chain account address)
  let attributes := [("kind", "control_account_opened"), ("chain_id", chain),
    ("control_account", account.name), ("address", address)]
  carryOut host store response.commands (Answer.report attributes response.notices)

/-! ## Packets -/

/-- What a successful packet reports.  A transfer reports nothing; neither does
an acknowledgement that cannot be decoded, which is then stated. -/
def successOf? (store : Store) (port : String) (op : RemoteOp) (data : Bytes) :
    Readable (Outcome × List Attribute) := do
  if port = transferPort then return (.success [], [])
  else
    let found ← store.chain? op.chain
    let chain ← found
    match Wire.receipts? chain.nativeDenom data with
    | some receipts => return (.success receipts, [])
    | none => return (.success [], [("ack_decode_error", "<decode error>")])

def packetAttributes (op : RemoteOp) (outcome : Outcome) : List Attribute :=
  [("kind", "callback"), ("call_type", op.name), ("chain_id", op.chain),
    ("success", flag outcome.isSuccess)]
  ++ if outcome = .timeout then [("timeout", flag true)] else []

def resolvePacket (host : Host) (store : Store) (packet : Packet)
    (outcome? : Store → String → RemoteOp → Readable (Outcome × List Attribute)) :
    Attempt ContractError (Answer × Store) := do
  match packet.channel, packet.port, packet.sequence with
  | some channel, some port, some sequence =>
      let (found, store) ← Attempt.promised (store.take channel port sequence)
      let place := [("channel", channel), ("port", port), ("sequence", Digits.ofNat sequence)]
      match found with
      | none => return (Answer.ofAttributes (place ++ [("kind", "callback_ignored")]), store)
      | some op =>
          let (outcome, remarks) ← Attempt.promised (outcome? store port op)
          let response ← ofHub (Hub.resolve store.view host.surroundings op outcome)
          let attributes := place ++ packetAttributes op outcome ++ remarks
          carryOut host store response.commands (Answer.report attributes response.notices)
  | _, _, _ => return (Answer.ofAttributes [("kind", "callback_ignored")], store)

def notify (host : Host) (store : Store) :
    Notification → Attempt ContractError (Answer × Store)
  | .acknowledged packet data =>
      resolvePacket host store packet fun store port op => successOf? store port op data
  | .failed packet => resolvePacket host store packet fun _ _ _ => some (.failure, [])
  | .timedOut packet => resolvePacket host store packet fun _ _ _ => some (.timeout, [])
  | .channelOpened port version => accountOpened host store port version
  | .queryResult => return (.empty, store)

/-! ## Replies -/

def replyIssued (store : Store) (replyId : Nat) (data : Option String) :
    Attempt ContractError (Answer × Store) := do
  let (sequence, channel) ← Attempt.promised (data.bind issued?)
  let (found, store) ← Attempt.promised (store.register replyId channel sequence)
  let place := [("reply_id", Digits.ofNat replyId), ("channel", channel),
    ("sequence", Digits.ofNat sequence)]
  match found with
  | none => return (Answer.ofAttributes (place ++ [("kind", "callback_missing")]), store)
  | some op =>
      let attributes := place ++ [("kind", "callback_registered"), ("call_type", op.name),
        ("chain_id", op.chain)]
      return (Answer.ofAttributes attributes, store)

def replyRejected (host : Host) (store : Store) (replyId : Nat) (error : String) :
    Attempt ContractError (Answer × Store) := do
  let (found, store) ← Attempt.promised (store.unstash replyId)
  match found with
  | none =>
      let attributes := [("kind", "callback_missing"), ("reply_id", Digits.ofNat replyId)]
      return (Answer.ofAttributes attributes, store)
  | some op =>
      let response ← ofHub (Hub.resolve store.view host.surroundings op .failure)
      let attributes := [("kind", "dispatch_failed"), ("reply_id", Digits.ofNat replyId),
        ("call_type", op.name), ("chain_id", op.chain), ("error", error)]
      carryOut host store response.commands (Answer.report attributes response.notices)

end LiquidStaking.Contract
