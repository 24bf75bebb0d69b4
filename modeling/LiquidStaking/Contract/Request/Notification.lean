import LiquidStaking.Chain
import LiquidStaking.Contract.Request.Fields
import LiquidStaking.Text.Base64

/-!
# Notifications

What the host reports, given by name; fields that are not needed are checked for
their type where it is known, and otherwise skipped.
-/

namespace LiquidStaking

/-- The packet a notification is about, as far as it takes to find its operation. -/
structure Packet where
  sequence : Option Nat
  port : Option String
  channel : Option String
  deriving DecidableEq, Repr

inductive Notification where
  | acknowledged (packet : Packet) (data : Bytes)
  | failed (packet : Packet)
  | timedOut (packet : Packet)
  | channelOpened (port version : String)
  /-- The result of a query, which the contract never asks for. -/
  | queryResult
  deriving DecidableEq, Repr

def bytesOfJson? (document : Json) : Option Bytes :=
  document.asString?.bind fun text => Base64.decode? text.toList

def Members.bytes? (m : Members) (name : String) : Option Bytes :=
  (m.get? name).bind bytesOfJson?

def Members.optionalBytes? (m : Members) (name : String) : Option (Option Bytes) :=
  (m.getOptional? name).bind (Json.asOptional? bytesOfJson?)

def isHeight (document : Json) : Bool :=
  (do
    let m ← document.asObject?
    let _ ← m.optionalNat? "revision_number"
    let _ ← m.optionalNat? "revision_height"
    return ()).isSome

def isFullHeight (document : Json) : Bool :=
  isHeight document && document.asObject?.any fun m =>
    (m.named "revision_number" ++ m.named "revision_height").all fun part => part.asNat?.isSome

def Packet.ofJson? (document : Json) : Option Packet := do
  let m ← document.asObject?
  let _ ← m.optionalString? "destination_port"
  let _ ← m.optionalString? "destination_channel"
  let _ ← m.optionalBytes? "data"
  let _ ← (m.getOptional? "timeout_height").bind
    (Json.asOptional? fun height => if isHeight height then some () else none)
  let _ ← m.optionalNat? "timeout_timestamp"
  return {
    sequence := ← m.optionalNat? "sequence"
    port := ← m.optionalString? "source_port"
    channel := ← m.optionalString? "source_channel" }

def Members.packet? (m : Members) : Option Packet := (m.get? "request").bind Packet.ofJson?

def Notification.ofMembers? (name : String) (m : Members) : Option Notification :=
  if name = "response" then do
    return .acknowledged (← m.packet?) (← m.bytes? "data")
  else if name = "error" then do
    let _ ← m.string? "details"
    return .failed (← m.packet?)
  else if name = "timeout" then m.packet?.map .timedOut
  else if name = "open_ack" then do
    let _ ← m.string? "channel_id"
    let _ ← m.string? "counterparty_channel_id"
    return .channelOpened (← m.string? "port_id") (← m.string? "counterparty_version")
  else if name = "kv_query_result" then (m.nat? "query_id").map fun _ => .queryResult
  else if name = "tx_query_result" then do
    let _ ← m.nat? "query_id"
    let _ ← m.bytes? "data"
    let height ← m.get? "height"
    if isFullHeight height then some .queryResult else none
  else none

def Notification.ofJson? (document : Json) : Option Notification := do
  let (name, held) ← document.asVariant?
  Notification.ofMembers? name (← held.asObject?)

/-- Fields that are skipped may hold anything. -/
def Notification.ofText? (text : String) : Option Notification :=
  (Json.ofText? .lenient text).bind Notification.ofJson?

/-! ## Documents inside notifications -/

/-- The address an opened channel reports, in a document of six texts. -/
def openedAddress? (version : String) : Option Address := do
  let document ← Json.ofText? .strict version
  let m ← Members.ofNamed? ["version", "controller_connection_id", "host_connection_id",
    "address", "encoding", "tx_type"] document
  let _ ← m.string? "version"
  let _ ← m.string? "controller_connection_id"
  let _ ← m.string? "host_connection_id"
  let _ ← m.string? "encoding"
  let _ ← m.string? "tx_type"
  m.string? "address"

def issued? (data : String) : Option (Nat × String) := do
  let document ← Json.ofText? .strict data
  let m ← Members.ofNamed? ["sequence_id", "channel"] document
  return (← m.nat? "sequence_id", ← m.string? "channel")

end LiquidStaking
