import LiquidStaking.Books
import LiquidStaking.Hub.Request
import LiquidStaking.Hub.Resolution

/-!
# Runs of the hub

The hub over its books, together with the remote operations it has started and
not yet heard of.  A successful step applies its commands and queues what it
dispatched; a refused or aborted one changes nothing, except that an
acknowledged operation is no longer outstanding.
-/

namespace LiquidStaking

structure HubState where
  books : Books
  /-- Operations started and not yet acknowledged, in the order they were started. -/
  outstanding : List RemoteOp

namespace HubState

def initial : HubState := ⟨.empty, []⟩

def commit (h : HubState) (response : Response) : HubState :=
  ⟨h.books.applyAll response.commands, h.outstanding ++ response.dispatched⟩

def settle (h : HubState) (answer : Attempt HubError Response) :
    Attempt HubError Response × HubState :=
  match answer with
  | .ok response => (answer, h.commit response)
  | .error _ => (answer, h)

def perform (h : HubState) (s : Surroundings) (request : Request) :
    Attempt HubError Response × HubState :=
  h.settle (request.answer h.books.view s)

def resolve (h : HubState) (s : Surroundings) (op : RemoteOp) (outcome : Outcome) :
    Attempt HubError Response × HubState :=
  h.settle (Hub.resolve h.books.view s op outcome)

def acknowledge? (h : HubState) (s : Surroundings) (index : Nat) (outcome : Outcome) :
    Option (Attempt HubError Response × HubState) :=
  (h.outstanding[index]?).map fun op =>
    let rest : HubState := { h with outstanding := h.outstanding.eraseIdx index }
    rest.resolve s op outcome

end HubState

/-! ## Histories -/

/-- One step of a run: what was asked or heard, and the surroundings it met. -/
inductive Step where
  | perform (s : Surroundings) (request : Request)
  | acknowledge (s : Surroundings) (index : Nat) (outcome : Outcome)

def HubState.step (h : HubState) : Step → HubState
  | .perform s request => (h.perform s request).2
  | .acknowledge s index outcome => ((h.acknowledge? s index outcome).map Prod.snd).getD h

def HubState.after (steps : List Step) : HubState := steps.foldl HubState.step .initial

end LiquidStaking
