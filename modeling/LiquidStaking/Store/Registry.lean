import LiquidStaking.Records
import LiquidStaking.Store.Basic

/-!
# Operations under way

An operation learns its sequence number only when the transport replies.  Until
then it is stashed under the id of the reply; the reply moves it to the channel,
port and sequence its acknowledgement will name, where it is taken once.
-/

namespace LiquidStaking

structure Stashed where
  port : String
  op : RemoteOp
  deriving DecidableEq, Repr

instance : Document Stashed where
  toJson s := .object [("port", .string s.port), ("callback", Document.toJson s.op)]
  ofJson? document := do
    let m ← document.asObject?
    return { port := ← m.string? "port", op := ← m.read? "callback" }

namespace Store

def stash (store : Store) (port : String) (op : RemoteOp) : Readable (Nat × Store) := do
  let next ← store.number? Key.nextReplyId.render
  let replyId := next.getD 1
  let after ← Width.add? 64 replyId 1
  let store := store.setNumber Key.nextReplyId.render after
  return (replyId, store.setDocument (Key.stashed replyId).render (Stashed.mk port op))

def register (store : Store) (replyId : Nat) (channel : String) (sequence : Nat) :
    Readable (Option RemoteOp × Store) := do
  let key := (Key.stashed replyId).render
  let found : Option Stashed ← store.document? key
  match found with
  | none => return (none, store)
  | some ⟨port, op⟩ =>
      let store := store.remove key
      return (some op, store.setDocument (Key.registered channel port sequence).render op)

def unstash (store : Store) (replyId : Nat) : Readable (Option RemoteOp × Store) := do
  let key := (Key.stashed replyId).render
  let found : Option Stashed ← store.document? key
  match found with
  | none => return (none, store)
  | some ⟨_, op⟩ => return (some op, store.remove key)

def registered? (store : Store) (channel port : String) (sequence : Nat) :
    Readable (Option RemoteOp) :=
  store.document? (Key.registered channel port sequence).render

def take (store : Store) (channel port : String) (sequence : Nat) :
    Readable (Option RemoteOp × Store) := do
  match ← store.registered? channel port sequence with
  | none => return (none, store)
  | some op => return (some op, store.remove (Key.registered channel port sequence).render)

end Store

end LiquidStaking
