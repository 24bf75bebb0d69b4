import LiquidStaking.Proofs.Tally

/-!
# Errands

The way of a batch has four stages that end with an acknowledgement, and an
outstanding operation is on an errand for one of them.  The errand is given up
when its batch is reset, but the acknowledgement may still come, and an operation
names no more than its chain and epoch.  So what was given up is kept beside a
run: every step takes from the errands the one it hears of, gives up those it
resets, and adds those it starts.
-/

namespace LiquidStaking

inductive Leg where
  | transfer
  | delegation
  | undelegation
  | withdrawal
  deriving DecidableEq, Repr

def Leg.ofDeposit : Leg → Bool
  | .transfer | .delegation => true
  | .undelegation | .withdrawal => false

structure Stage where
  chain : ChainId
  epoch : Epoch
  leg : Leg
  deriving DecidableEq, Repr

/-- What the operation is to bring about for a batch; none for the operations
that are for no batch. -/
def RemoteOp.stage? : RemoteOp → Option Stage
  | .transferDeposit chain epoch _ => some ⟨chain, epoch, .transfer⟩
  | .delegate chain epoch _ => some ⟨chain, epoch, .delegation⟩
  | .undelegate chain epoch _ => some ⟨chain, epoch, .undelegation⟩
  | .withdrawUnbonded chain epoch _ => some ⟨chain, epoch, .withdrawal⟩
  | _ => none

def RemoteOp.serves (stage : Stage) (op : RemoteOp) : Bool := decide (op.stage? = some stage)

theorem RemoteOp.serves_iff {stage : Stage} {op : RemoteOp} :
    op.serves stage = true ↔ op.stage? = some stage := decide_eq_true_iff

theorem RemoteOp.chain_of_stage? {stage : Stage} {op : RemoteOp}
    (serves : op.stage? = some stage) : op.chain = stage.chain := by
  cases op <;> cases serves <;> rfl

namespace Cause

/-- A reset of the batch, which gives up all that serves the stage. -/
def drops (stage : Stage) : Cause → Bool
  | .asked (.resetDeposit chain epoch) =>
      chain == stage.chain && epoch == stage.epoch && stage.leg.ofDeposit
  | .asked (.resetRedemption chain epoch) =>
      chain == stage.chain && epoch == stage.epoch && !stage.leg.ofDeposit
  | _ => false

theorem deposit_of_drops {stage : Stage} {cause : Cause} (ofDeposit : stage.leg.ofDeposit = true)
    (dropped : cause.drops stage = true) :
    cause = .asked (.resetDeposit stage.chain stage.epoch) := by
  cases cause with
  | asked request => cases request <;> simp_all [drops]
  | heard | closed => cases dropped

theorem redemption_of_drops {stage : Stage} {cause : Cause}
    (ofRedemption : stage.leg.ofDeposit = false) (dropped : cause.drops stage = true) :
    cause = .asked (.resetRedemption stage.chain stage.epoch) := by
  cases cause with
  | asked request => cases request <;> simp_all [drops]
  | heard | closed => cases dropped

def resets (op : RemoteOp) (cause : Cause) : Bool := op.stage?.any fun stage => cause.drops stage

end Cause

def Step.resets : Step → Bool
  | .perform _ (.resetDeposit ..) | .perform _ (.resetRedemption ..) => true
  | _ => false

structure Errand where
  op : RemoteOp
  /-- The batch was reset since the operation was started. -/
  givenUp : Bool
  deriving DecidableEq, Repr

namespace Errand

def start (op : RemoteOp) : Errand := ⟨op, false⟩

def after (cause : Cause) (errand : Errand) : Errand :=
  { errand with givenUp := errand.givenUp || cause.resets errand.op }

def serves (stage : Stage) (errand : Errand) : Bool := errand.op.serves stage && !errand.givenUp

@[simp] theorem op_start (op : RemoteOp) : (start op).op = op := rfl

@[simp] theorem op_after (cause : Cause) (errand : Errand) : (errand.after cause).op = errand.op :=
  rfl

@[simp] theorem serves_start (stage : Stage) (op : RemoteOp) :
    (start op).serves stage = op.serves stage := by
  simp [serves, start]

theorem serves_after (cause : Cause) (stage : Stage) (errand : Errand) :
    (errand.after cause).serves stage = (errand.serves stage && !cause.drops stage) := by
  by_cases own : errand.op.stage? = some stage
  · simp [serves, after, RemoteOp.serves, Cause.resets, own]
  · have other : errand.op.serves stage = false := by simpa [RemoteOp.serves] using own
    simp [serves, other]

end Errand

abbrev Errands := List Errand

namespace Errands

def ops (errands : Errands) : List RemoteOp := errands.map Errand.op

def record (errands : Errands) (cause : Cause) (r : Response) : Errands :=
  errands.map (Errand.after cause) ++ r.dispatched.map Errand.start

def left (errands : Errands) : Step → Errands
  | .perform .. => errands
  | .acknowledge _ index _ => errands.eraseIdx index

def observe (errands : Errands) (h : HubState) (step : Step) : Errands :=
  match h.occurrence? step with
  | some (cause, r) => (errands.left step).record cause r
  | none => errands

def after (steps : List Step) : Errands :=
  (steps.foldl (fun (state : HubState × Errands) step =>
    (state.1.step step, state.2.observe state.1 step)) (.initial, [])).2

theorem after_append (steps : List Step) (step : Step) :
    after (steps ++ [step]) = (after steps).observe (HubState.after steps) step := by
  simp only [after, List.foldl_append, List.foldl_cons, List.foldl_nil,
    HubState.foldl_beside observe]
  rfl

theorem ops_record (errands : Errands) (cause : Cause) (r : Response) :
    (errands.record cause r).ops = errands.ops ++ r.dispatched := by
  simp [ops, record, Function.comp_def]

def serving (errands : Errands) (stage : Stage) : Nat := errands.countP (Errand.serves stage)

theorem serving_record (errands : Errands) (cause : Cause) (r : Response) (stage : Stage) :
    (errands.record cause r).serving stage =
      (if cause.drops stage then 0 else errands.serving stage) +
        r.dispatched.countP (RemoteOp.serves stage) := by
  simp only [serving, record, List.countP_append, List.countP_map, Function.comp_def,
    Errand.serves_after, Errand.serves_start]
  cases cause.drops stage <;> simp

end Errands

end LiquidStaking
