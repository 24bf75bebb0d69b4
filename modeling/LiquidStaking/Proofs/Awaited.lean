import LiquidStaking.Proofs.Attempts

/-!
# What is on its way is awaited

Rewards are on their way only once a delegation epoch has started, so there is a
batch that they can join when they arrive; and where no deposit batch is reset,
each waits for the operations that are on their way for it.
-/

namespace LiquidStaking

variable {s : Surroundings} {b : Books} {cause : Cause} {r : Response} {h : HubState}

/-! ## Rewards come after an epoch -/

def RemoteOp.ofRewards : RemoteOp → Bool
  | .withdrawRewards .. | .transferRewards .. => true
  | _ => false

def Cause.ofRewards : Cause → Bool
  | .asked (.startEpoch .delegation _) => true
  | .heard op _ => op.ofRewards
  | _ => false

theorem Move.ofRewards (move : Move s b cause r) {op : RemoteOp} (started : op ∈ r.dispatched)
    (ofRewards : op.ofRewards = true) : cause.ofRewards = true := by
  cases move with
  | revised known edge plain =>
      rw [Response.dispatched_chain] at started
      cases edge with
      | opened account address =>
          split at started
          · obtain rfl := List.mem_singleton.mp started
            cases ofRewards
          · cases started
      | restaffed | withdrawAddressSet | closed => cases started
  | rewarded known edge told =>
      cases edge <;> rfl
  | requested | repriced | depositOpened => rfl
  | depositMoved found edge plain =>
      rw [Response.dispatched_deposit] at started
      cases edge <;> simp_all [RemoteOp.ofRewards]
  | redemptionMoved found edge plain =>
      rw [Response.dispatched_redemption] at started
      cases edge <;> simp_all [RemoteOp.ofRewards]
  | released found awaited plain => simp at started
  | registered | epochStarted | deposited | delegated | reinvested | redeemed | unbonded | paid
  | quiet | stale | unanswered => cases started

theorem Passage.ofRewards (passage : Passage s cause b r) {op : RemoteOp}
    (started : op ∈ r.dispatched) (ofRewards : op.ofRewards = true) :
    cause.ofRewards = true := by
  induction passage with
  | done => cases started
  | next move later ih =>
      rw [Response.dispatched_append] at started
      rcases List.mem_append.mp started with first | rest
      · exact move.ofRewards first ofRewards
      · exact ih rest

theorem Course.ofRewards (course : Course s b cause r) {op : RemoteOp}
    (started : op ∈ r.dispatched) (ofRewards : op.ofRewards = true) :
    cause.ofRewards = true := by
  cases course with
  | single move => exact move.ofRewards started ofRewards
  | closing move closing =>
      rw [Response.dispatched_append] at started
      rcases List.mem_append.mp started with first | second
      · exact move.ofRewards first ofRewards
      · cases closing.ofRewards second ofRewards
  | passing passage => exact passage.ofRewards started ofRewards

theorem Books.applyAll_begun {kind : EpochKind} (begun : b.epoch? kind ≠ none)
    (commands : List Command) : (b.applyAll commands).epoch? kind ≠ none := by
  induction commands generalizing b with
  | nil => exact begun
  | cons command commands ih =>
      refine ih ?_
      cases command with
      | epoch other epoch =>
          by_cases same : kind = other <;> simp [apply, setAt, same, begun]
      | _ => exact begun

theorem Hub.startEpoch_begun {kind : EpochKind} {epoch : Epoch}
    (granted : startEpoch b.view s kind epoch = .ok r) :
    (b.applyAll r.commands).epoch? kind ≠ none := by
  have starts (granted : advanceAll b.view s kind epoch = .ok r) :
      (b.applyAll r.commands).epoch? kind ≠ none := by
    simp only [advanceAll, Attempt.bind_eq_ok, Attempt.pure_eq_ok] at granted
    obtain ⟨ids, -, parts, -, rfl⟩ := granted
    rw [Response.commands_append, Books.applyAll_append]
    exact Books.applyAll_begun (by simp [Books.apply]) _
  simp only [startEpoch, Attempt.bind_eq_ok, Attempt.promised_eq_ok] at granted
  obtain ⟨current, read, granted⟩ := granted
  have read : b.epoch? kind = current := by simpa [Books.view] using read
  cases current with
  | none => exact starts granted
  | some current =>
      exact Books.applyAll_begun (by rw [read]; exact Option.some_ne_none current) _

theorem HubState.left_subset {step : Step} {op : RemoteOp} (member : op ∈ h.left step) :
    op ∈ h.outstanding := by
  cases step with
  | perform => exact member
  | acknowledge => exact List.mem_of_mem_eraseIdx member

theorem HubState.after_begun (steps : List Step) :
    ∀ op ∈ (after steps).outstanding, op.ofRewards = true →
      (after steps).books.epoch? .delegation ≠ none := by
  induction steps using List.reverseRecOn with
  | nil => nofun
  | append_singleton steps step ih =>
      rw [after_append]
      cases occurs : (after steps).occurrence? step with
      | none => rwa [step_of_none _ occurs]
      | some occurrence =>
          obtain ⟨cause, r⟩ := occurrence
          rw [step_of_some _ occurs]
          intro op member ofRewards
          have before {earlier : RemoteOp} (listed : earlier ∈ (after steps).outstanding)
              (ofRewards : earlier.ofRewards = true) :
              ((after steps).books.applyAll r.commands).epoch? .delegation ≠ none :=
            Books.applyAll_begun (ih earlier listed ofRewards) _
          rcases List.mem_append.mp member with old | started
          · exact before (left_subset old) ofRewards
          have caused := (occurrence?_course _ (after_wellKept steps) occurs).ofRewards started
            ofRewards
          cases step with
          | perform s request =>
              obtain ⟨rfl, granted⟩ := occurrence?_performed _ occurs
              cases request with
              | startEpoch kind epoch =>
                  cases kind with
                  | delegation => exact Hub.startEpoch_begun granted
                  | undelegation => cases caused
              | _ => cases caused
          | acknowledge s index outcome =>
              obtain ⟨heard, found, rfl, -⟩ := occurrence?_acknowledged _ occurs
              exact before (List.mem_of_getElem? found) caused

/-! ## Batches wait for what is on its way -/

def Step.resetsDeposit : Step → Bool
  | .perform _ (.resetDeposit ..) => true
  | _ => false

def RemoteOp.ofDeposit (op : RemoteOp) : Bool := op.stage?.any fun stage => stage.leg.ofDeposit

theorem Cause.keeps_deposits {step : Step} (unreset : step.resetsDeposit = false)
    (of : cause.Of step) {op : RemoteOp} (ofDeposit : op.ofDeposit = true) :
    cause.resets op = false := by
  obtain ⟨stage, serves, ofDeposit⟩ := (Option.any_eq_true _ _).mp ofDeposit
  rw [Cause.resets, serves, Option.any_some]
  by_contra dropped
  rw [Bool.not_eq_false] at dropped
  obtain rfl := Cause.deposit_of_drops ofDeposit dropped
  obtain ⟨s, rfl⟩ := of
  cases unreset

theorem HubState.after_awaited {steps : List Step}
    (unreset : ∀ step ∈ steps, step.resetsDeposit = false) {op : RemoteOp}
    (outstanding : op ∈ (after steps).outstanding) {stage : Stage}
    (serves : op.serves stage = true) (ofDeposit : stage.leg.ofDeposit = true) :
    (after steps).books.awaits stage = true := by
  have fresh {before : List Step} (earlier : before <+: steps) {errand : Errand}
      (listed : errand ∈ Errands.after before) (serves : errand.op.serves stage = true) :
      errand.givenUp = false := by
    have own : errand.op.ofDeposit = true := by
      rw [RemoteOp.ofDeposit, RemoteOp.serves_iff.mp serves, Option.any_some, ofDeposit]
    exact Errands.after_ungiven (fun step member cause of op => Cause.keeps_deposits
      (unreset step (earlier.subset member)) of) errand listed own
  have few : (Errands.after steps).serving stage ≤ ((after steps).books.awaits stage).toNat :=
    after_unrivalled fun before s index outcome errand earlier found serves =>
      fresh ((List.prefix_append before _).trans earlier) (List.mem_of_getElem? found) serves
  rw [← Errands.ops_after] at outstanding
  obtain ⟨errand, listed, rfl⟩ := List.mem_map.mp outstanding
  have one : 0 < (Errands.after steps).serving stage := List.countP_pos_iff.mpr
    ⟨errand, listed, by simp [Errand.serves, serves, fresh (List.prefix_refl _) listed serves]⟩
  by_contra idle
  rw [Bool.not_eq_true] at idle
  rw [idle, Bool.toNat_false] at few
  omega

end LiquidStaking
