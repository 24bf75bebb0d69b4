import LiquidStaking.Run

/-!
# What a run has taken in and given out

The books hold balances; a tally holds the flows that led to them.  It is kept
beside a run: each step adds what it accepted, ordered and started, as far as
the answer of the hub and the reported outcome show it.
-/

namespace LiquidStaking

inductive Cause where
  | asked (request : Request)
  | heard (op : RemoteOp) (outcome : Outcome)
  /-- The channel of an account closed over an operation that timed out. -/
  | closed (chain : ChainId) (account : ControlAccount)

namespace Cause

def deposited (id : ChainId) : Cause → Amount
  | .asked (.deposit chain amount _) => if chain = id then amount else 0
  | _ => 0

def redeemed (id : ChainId) : Cause → Amount
  | .asked (.redeem chain amount _) => if chain = id then amount else 0
  | _ => 0

def returned (id : ChainId) : Cause → Amount
  | .heard (.transferDeposit chain _ amount) outcome =>
      if chain = id ∧ outcome.isSuccess = false then amount else 0
  | _ => 0

def withdrawn (id : ChainId) : Cause → Amount
  | .heard (.withdrawUnbonded chain _ amount) outcome =>
      if chain = id ∧ outcome.isSuccess = true then amount else 0
  | _ => 0

def settles (id : ChainId) : Cause → Bool
  | .heard op _ => op.chain == id
  | _ => false

end Cause

namespace Command

def minted (denom : Denom) : Command → Amount
  | .token (.mint d amount _) => if d = denom then amount else 0
  | _ => 0

def burned (denom : Denom) : Command → Amount
  | .token (.burn d amount) => if d = denom then amount else 0
  | _ => 0

def burnedAny : Command → Amount
  | .token (.burn _ amount) => amount
  | _ => 0

def sent (denom : Denom) : Command → Amount
  | .token (.send d amount _) => if d = denom then amount else 0
  | _ => 0

def transferred (id : ChainId) : Command → Amount
  | .dispatch (.transferDeposit target _ amount) => if target = id then amount else 0
  | _ => 0

end Command

def Notice.rewarded (id : ChainId) : Notice → Amount
  | .rewardsWithdrawn chain amount => if chain = id then amount else 0
  | _ => 0

namespace Response

def ordered (figure : Command → Amount) (response : Response) : Nat :=
  Width.total (response.commands.map figure)

def rewarded (id : ChainId) (response : Response) : Nat :=
  Width.total (response.notices.map (Notice.rewarded id))

@[simp] theorem ordered_nil (figure : Command → Amount) (notices : List Notice) :
    ordered figure ⟨[], notices⟩ = 0 := rfl

@[simp] theorem ordered_cons (figure : Command → Amount) (command : Command)
    (commands : List Command) (notices : List Notice) :
    ordered figure ⟨command :: commands, notices⟩ =
      figure command + ordered figure ⟨commands, notices⟩ := rfl

@[simp] theorem ordered_append (figure : Command → Amount) (first second : Response) :
    (first ++ second).ordered figure = first.ordered figure + second.ordered figure := by
  simp [ordered]

@[simp] theorem rewarded_append (id : ChainId) (first second : Response) :
    (first ++ second).rewarded id = first.rewarded id + second.rewarded id := by
  simp [rewarded]

end Response

/-- The flows of a run, by chain and by denom. -/
structure Tally where
  deposited : ChainId → Nat
  rewarded : ChainId → Nat
  redeemed : ChainId → Nat
  /-- Derivative burned on acknowledgements of the chain. -/
  retired : ChainId → Nat
  minted : Denom → Nat
  burned : Denom → Nat
  sent : Denom → Nat
  transferred : ChainId → Nat
  returned : ChainId → Nat
  withdrawn : ChainId → Nat

namespace Tally

def zero : Tally :=
  ⟨fun _ => 0, fun _ => 0, fun _ => 0, fun _ => 0, fun _ => 0, fun _ => 0, fun _ => 0,
    fun _ => 0, fun _ => 0, fun _ => 0⟩

def record (t : Tally) (cause : Cause) (response : Response) : Tally where
  deposited id := t.deposited id + cause.deposited id
  rewarded id := t.rewarded id + response.rewarded id
  redeemed id := t.redeemed id + cause.redeemed id
  retired id := t.retired id + if cause.settles id then response.ordered Command.burnedAny else 0
  minted denom := t.minted denom + response.ordered (Command.minted denom)
  burned denom := t.burned denom + response.ordered (Command.burned denom)
  sent denom := t.sent denom + response.ordered (Command.sent denom)
  transferred id := t.transferred id + response.ordered (Command.transferred id)
  returned id := t.returned id + cause.returned id
  withdrawn id := t.withdrawn id + cause.withdrawn id

def supply (t : Tally) (denom : Denom) : Int := t.minted denom - t.burned denom

end Tally

/-! ## Beside a run -/

/-- What a step makes the hub do: nothing if a request is refused or aborted, or
if there is no such operation to hear of.  An operation that is heard of is no
longer outstanding even where the hub has no answer. -/
def HubState.occurrence? (h : HubState) : Step → Option (Cause × Response)
  | .perform s request =>
      match request.answer h.books.view s with
      | .ok response => some (.asked request, response)
      | .error _ => none
  | .acknowledge s index outcome =>
      (h.outstanding[index]?).map fun op =>
        match Hub.resolve h.books.view s op outcome with
        | .ok response => (.heard op outcome, response)
        | .error _ => (.heard op outcome, .empty)

def Tally.observe (t : Tally) (h : HubState) (step : Step) : Tally :=
  match h.occurrence? step with
  | some (cause, response) => t.record cause response
  | none => t

def Tally.after (steps : List Step) : Tally :=
  (steps.foldl (fun (state : HubState × Tally) step =>
    (state.1.step step, state.2.observe state.1 step)) (.initial, .zero)).2

theorem HubState.after_append (steps : List Step) (step : Step) :
    HubState.after (steps ++ [step]) = (HubState.after steps).step step := by
  simp [HubState.after]

theorem HubState.foldl_beside {γ : Type} (note : γ → HubState → Step → γ) (steps : List Step)
    (h : HubState) (kept : γ) :
    (steps.foldl (fun (state : HubState × γ) step =>
      (state.1.step step, note state.2 state.1 step)) (h, kept)).1 =
        steps.foldl HubState.step h := by
  induction steps generalizing h kept with
  | nil => rfl
  | cons step steps ih => exact ih _ _

theorem Tally.after_append (steps : List Step) (step : Step) :
    Tally.after (steps ++ [step]) =
      (Tally.after steps).observe (HubState.after steps) step := by
  simp only [Tally.after, List.foldl_append, List.foldl_cons, List.foldl_nil,
    HubState.foldl_beside Tally.observe]
  rfl

end LiquidStaking
