import LiquidStaking.Proofs.Dispatches
import LiquidStaking.Proofs.Lifecycle

/-!
# Unbonded funds are not withdrawn early

A redemption batch gets its completion time on word that its unbonding began, and keeps
it.  Only a batch that waits is withdrawn for the first time, and that is when the margin
over the completion time has passed; a later attempt tests nothing, but then the time had
passed already, and the clock does not go back.
-/

namespace LiquidStaking

variable {s : Surroundings} {b c : Books} {cause : Cause} {r : Response} {h : HubState}
  {id : ChainId} {epoch : Epoch} {now : Seconds} {completion : Seconds} {step : Step}

/-! ## Completion times -/

section CompletionTime

variable {chain : Chain} {receipts : List Receipt} {time : Seconds}

namespace Receipt

theorem le_latestCompletion {latest : Seconds} (read : latestCompletion? receipts = some latest)
    (reported : .unbondsAt time ∈ receipts) : time ≤ latest :=
  (List.max?_eq_some_iff.mp read).2 time (List.mem_filterMap.mpr ⟨_, reported, rfl⟩)

theorem latestCompletion?_isSome (reported : .unbondsAt time ∈ receipts) :
    (latestCompletion? receipts).isSome = true := by
  rw [latestCompletion?, List.isSome_max?_iff]
  exact List.ne_nil_of_mem (List.mem_filterMap.mpr ⟨_, reported, rfl⟩)

theorem latestCompletion?_eq_none (silent : ∀ time, .unbondsAt time ∉ receipts) :
    latestCompletion? receipts = none := by
  rw [latestCompletion?, List.max?_eq_none_iff, List.filterMap_eq_nil_iff]
  intro receipt listed
  cases receipt with
  | unbondsAt time => exact absurd listed (silent time)
  | rewards amount => rfl

end Receipt

theorem Hub.le_completionTime (reported : .unbondsAt time ∈ receipts) :
    time ≤ completionTime now chain receipts := by
  obtain ⟨latest, read⟩ := Option.isSome_iff_exists.mp (Receipt.latestCompletion?_isSome reported)
  rw [completionTime, read, Option.getD_some]
  exact Receipt.le_latestCompletion read reported

theorem Hub.completionTime_of_silent (silent : ∀ time, .unbondsAt time ∉ receipts) :
    completionTime now chain receipts = Width.addSat 64 now chain.unbondingPeriod := by
  rw [completionTime, Receipt.latestCompletion?_eq_none silent, Option.getD_none]

end CompletionTime

theorem Width.addSat_mono {bits first second added : Nat} (le : first ≤ second) :
    addSat bits first added ≤ addSat bits second added := by
  unfold addSat clamp
  lia

namespace Books

def completion? (b : Books) (id : ChainId) (epoch : Epoch) : Option Seconds :=
  (b.redemption? id epoch).bind RedemptionBatch.completion

def Matured (b : Books) (now : Seconds) (id : ChainId) (epoch : Epoch) : Prop :=
  ∃ time, b.completion? id epoch = some time ∧ Width.addSat 64 time Hub.withdrawMargin ≤ now

theorem Matured.mono {later : Seconds} (matured : b.Matured now id epoch) (passed : now ≤ later) :
    b.Matured later id epoch := by
  obtain ⟨time, dated, reached⟩ := matured
  exact ⟨time, dated, Nat.le_trans reached passed⟩

theorem matured_of_batch {batch : RedemptionBatch} (found : b.redemption? id epoch = some batch)
    (matured : Hub.matured now batch = true) : b.Matured now id epoch := by
  obtain ⟨time, dated, reached⟩ := (Option.any_eq_true _ _).mp matured
  exact ⟨time, by rw [completion?, found, Option.bind_some, dated], by simpa using reached⟩

end Books

/-! ## How a batch gets its completion time -/

/-- A move dates a batch on word of success of the unbonding that it waits for. -/
inductive Dating (s : Surroundings) (b : Books) (id : ChainId) (epoch : Epoch)
    (completion : Seconds) : Cause → Prop
  | unbonded {shares : Allocation} {receipts : List Receipt} {chain : Chain}
      (awaited : b.redemptionStatus? id epoch = some .starting)
      (known : b.chain? id = some chain)
      (due : completion = Hub.completionTime s.now chain receipts) :
      Dating s b id epoch completion (.heard (.undelegate id epoch shares) (.success receipts))

theorem Move.completion? (kept : b.WellKept) (orderly : b.Orderly) (move : Move s b cause r)
    (dated : (b.applyAll r.commands).completion? id epoch = some completion) :
    b.completion? id epoch = some completion ∨ Dating s b id epoch completion cause := by
  have unless_put (record : RedemptionBatch)
      (own : id = record.chain → epoch = record.epoch → record.completion = some completion →
        b.completion? id epoch = some completion ∨ Dating s b id epoch completion cause)
      (dated : (b.putRedemption record).completion? id epoch = some completion) :
      b.completion? id epoch = some completion ∨ Dating s b id epoch completion cause := by
    rw [Books.completion?, Books.redemption?_putRedemption] at dated
    split at dated
    · rename_i same
      exact own same.1 same.2 dated
    · exact .inl dated
  cases move with
  | @redeemed id' chain epoch' batch amount owed owner known current fresh positive priced
      worthwhile covered found burnedFits redeemableFits =>
      obtain ⟨rfl, rfl, -, stored⟩ := orderly.collecting_redemption kept current found
      refine unless_put (batch.joining amount owed (claimId batch.chain batch.epoch owner)) ?_ dated
      rintro rfl rfl (dated : batch.completion = some completion)
      rcases stored with found | ⟨-, opened⟩
      · exact .inl (by
          rw [RedemptionBatch.joining, Books.completion?, found, Option.bind_some, dated])
      · rw [opened] at dated
        cases dated
  | @redemptionMoved id' batch cause next op notices found edge plain =>
      obtain rfl := kept.redemptionKey (Books.mem_redemptions found).1
      rw [Books.applyAll_redemption] at dated
      refine unless_put { batch with status := next } ?_ dated
      rintro rfl rfl (dated : batch.completion = some completion)
      exact .inl (by rw [Books.completion?, found, Option.bind_some, dated])
  | @unbonded id' chain batch shares total time receipts notices found awaited known summed
      due told =>
      obtain rfl := kept.redemptionKey (Books.mem_redemptions found).1
      refine unless_put { batch with completion := some time, status := .waiting } ?_ dated
      rintro rfl rfl dated
      cases dated
      have waits : b.redemptionStatus? batch.chain batch.epoch = some .starting := by
        rw [Books.redemptionStatus?, found, Option.map_some, awaited]
      exact .inr (.unbonded waits known due)
  | @released id' batch amount receipts notices found awaited plain =>
      obtain rfl := kept.redemptionKey (Books.mem_redemptions found).1
      rw [Books.applyAll_released, Books.completion?, Books.redemption?_putRedemption,
        Books.redemption?, Books.redemptions_release] at dated
      refine .inl ?_
      split at dated
      · rename_i same
        obtain ⟨rfl, rfl⟩ := same
        rw [Books.completion?, found]
        exact dated
      · exact dated
  | revised known edge plain =>
      rw [Books.applyAll_chain] at dated
      exact .inl dated
  | rewarded known edge told =>
      rw [Books.applyAll_chain] at dated
      exact .inl dated
  | depositMoved found edge plain =>
      rw [Books.applyAll_deposit] at dated
      exact .inl dated
  | registered | requested | repriced | epochStarted | deposited | depositOpened | delegated
  | reinvested | paid | quiet | stale | unanswered => exact .inl dated

theorem Course.completion? (laden : h.Laden) (course : Course s h.books cause r)
    (dated : (h.books.applyAll r.commands).completion? id epoch = some completion) :
    h.books.completion? id epoch = some completion ∨
      Dating s h.books id epoch completion cause := by
  have ⟨kept, orderly, founded⟩ := laden.sound
  cases course with
  | single move => exact move.completion? kept orderly dated
  | closing move closing =>
      obtain ⟨-, redemptions⟩ := closing.closed_batches
      rw [Response.commands_append, Books.applyAll_append, Books.completion?, Books.redemption?,
        redemptions] at dated
      exact move.completion? kept orderly dated
  | passing passage =>
      refine .inl ?_
      generalize h.books = b at kept orderly dated passage
      induction passage with
      | done => exact dated
      | next move later ih =>
          have orderly' := move.orderly kept orderly (by intro op outcome heard; cases heard)
          rw [Response.commands_append, Books.applyAll_append] at dated
          rcases move.completion? kept orderly (ih (kept.applyAll _) orderly' dated) with
            same | dating
          · exact same
          · cases dating

theorem HubState.step_completion? (laden : h.Laden)
    (dated : (h.step step).books.completion? id epoch = some completion) :
    h.books.completion? id epoch = some completion ∨
      ∃ cause r, h.occurrence? step = some (cause, r) ∧
        Dating step.surroundings h.books id epoch completion cause := by
  cases occurs : h.occurrence? step with
  | none =>
      rw [h.step_of_none occurs] at dated
      exact .inl dated
  | some occurrence =>
      obtain ⟨cause, r⟩ := occurrence
      rw [h.step_of_some occurs] at dated
      have course := h.occurrence?_course laden.sound.kept occurs
      exact (course.completion? laden dated).imp_right fun dating => ⟨cause, r, rfl, dating⟩

theorem HubState.after_dated (steps : List Step)
    (dated : (after steps).books.completion? id epoch = some completion) :
    ∃ before step later, steps = before ++ step :: later ∧
      ∃ cause r, (after before).occurrence? step = some (cause, r) ∧
        Dating step.surroundings (after before).books id epoch completion cause := by
  -- By the last step of the run: it dated the batch, or the batch was dated before.
  induction steps using List.reverseRecOn with
  | nil => cases dated
  | append_singleton steps step ih =>
      rw [after_append] at dated
      rcases step_completion? (after_laden steps) dated with earlier | now
      · obtain ⟨before, first, later, rfl, dating⟩ := ih earlier
        exact ⟨before, first, later ++ [step], by simp, dating⟩
      · exact ⟨steps, step, [], rfl, now⟩

/-! ## What is withdrawn has matured -/

def RedemptionStatus.withdrawn : RedemptionStatus → Bool
  | .withdrawing | .transferFailed | .done => true
  | _ => false

structure HubState.Ripe (now : Seconds) (h : HubState) : Prop where
  laden : h.Laden
  batches : ∀ {id epoch batch}, h.books.redemption? id epoch = some batch →
    batch.status.withdrawn = true → h.books.Matured now id epoch
  ops : ∀ {id epoch amount}, .withdrawUnbonded id epoch amount ∈ h.outstanding →
    h.books.Matured now id epoch

theorem RedemptionEdge.tested {batch : RedemptionBatch} {next : RedemptionStatus}
    {op : Option RemoteOp} (edge : RedemptionEdge s b id batch cause next op)
    (after : next.withdrawn = true) :
    batch.status.withdrawn = true ∨ Hub.matured s.now batch = true := by
  cases edge with
  | withdrawn current earlier due known isOpen =>
      rcases due with ⟨-, matured⟩ | retried
      · exact .inr matured
      · exact .inl (by rw [retried]; rfl)
  | withdrawalReset awaited => exact .inl (by rw [awaited]; rfl)
  | stayed awaited failed => exact .inl (by rw [awaited]; rfl)
  | started | startReset | refused => cases after

theorem RedemptionChange.tested {before : Option RedemptionBatch} {after : RedemptionBatch}
    (change : RedemptionChange s b id epoch cause before after)
    (withdrawn : after.status.withdrawn = true) :
    ∃ batch, before = some batch ∧
      (batch.status.withdrawn = true ∨ Hub.matured s.now batch = true) := by
  cases change with
  | joined current joins pending worthwhile =>
      simp [RedemptionBatch.joining, pending, RedemptionStatus.withdrawn] at withdrawn
  | moved own edge => exact ⟨_, rfl, edge.tested withdrawn⟩
  | unbonded awaited => cases withdrawn
  | released awaited => exact ⟨_, rfl, .inl (by rw [awaited]; rfl)⟩

namespace HubState.Ripe

theorem initial (now : Seconds) : Ripe now .initial :=
  ⟨⟨.initial, ⟨nofun, nofun⟩, nofun⟩, nofun, nofun⟩

theorem mono {later : Seconds} (ripe : h.Ripe now) (passed : now ≤ later) : h.Ripe later where
  laden := ripe.laden
  batches found withdrawn := (ripe.batches found withdrawn).mono passed
  ops outstanding := (ripe.ops outstanding).mono passed

theorem keeps (ripe : h.Ripe now) (move : Move s h.books cause r)
    (matured : h.books.Matured now id epoch) :
    (h.books.applyAll r.commands).Matured now id epoch := by
  have ⟨kept, orderly, founded⟩ := ripe.laden.sound
  obtain ⟨time, dated, reached⟩ := matured
  obtain ⟨batch, found, dated⟩ := Option.bind_eq_some_iff.mp dated
  refine ⟨time, ?_, reached⟩
  rw [Books.completion?]
  rcases move.redemption_change kept orderly id epoch with same | ⟨after, written, change⟩
  · rw [same, found, Option.bind_some, dated]
  · rw [found] at change
    rw [written, Option.bind_some, change.completion (ripe.laden.books.redemption found) dated]

theorem of_tested (ripe : h.Ripe now) {batch : RedemptionBatch}
    (found : h.books.redemption? id epoch = some batch)
    (tested : batch.status.withdrawn = true ∨ Hub.matured now batch = true) :
    h.books.Matured now id epoch :=
  tested.elim (ripe.batches found) (Books.matured_of_batch found)

theorem move {rest : List RemoteOp} (ripe : h.Ripe s.now) (move : Move s h.books cause r)
    (takes : cause.Takes h.outstanding rest) : (commit ⟨h.books, rest⟩ r).Ripe s.now where
  laden := ripe.laden.move move takes
  batches {id epoch batch} found withdrawn := by
    have ⟨kept, orderly, founded⟩ := ripe.laden.sound
    refine ripe.keeps move ?_
    rcases move.redemption_change kept orderly id epoch with same | ⟨after, written, change⟩
    · exact ripe.batches (same ▸ found) withdrawn
    · cases written.symm.trans found
      obtain ⟨old, stored, tested⟩ := change.tested withdrawn
      exact ripe.of_tested stored tested
  ops {id epoch amount} outstanding := by
    refine ripe.keeps move ?_
    rcases List.mem_append.mp outstanding with old | started
    · exact ripe.ops (takes.subset _ old)
    · rcases move.started started with ⟨free, -⟩ | ⟨_, _, _, -, edge, -⟩ |
        ⟨_, batch, _, found, edge, -⟩
      · cases free
      · cases edge
      · have tested (withdrawn) := edge.tested withdrawn
        cases edge with
        | withdrawn => exact ripe.of_tested found (tested rfl)

end HubState.Ripe

theorem Course.withdraws (course : Course s b cause r) {amount : Amount}
    (started : .withdrawUnbonded id epoch amount ∈ r.dispatched) :
    ∃ request, cause = .asked request := by
  have asked {b : Books} {cause : Cause} {r : Response} (move : Move s b cause r)
      (started : .withdrawUnbonded id epoch amount ∈ r.dispatched) :
      ∃ request, cause = .asked request := by
    rcases move.started started with ⟨free, -⟩ | ⟨_, _, _, -, edge, -⟩ | ⟨_, _, _, -, edge, -⟩
    · cases free
    · cases edge
    · cases edge with
      | withdrawn => exact ⟨_, rfl⟩
  cases course with
  | single move => exact asked move started
  | closing move closing =>
      rw [Response.dispatched_append] at started
      rcases List.mem_append.mp started with first | second
      · exact asked move first
      · obtain ⟨_, impossible⟩ := asked closing second
        cases impossible
  | passing passage => exact ⟨_, rfl⟩

/-! ## Runs -/

def Timely (steps : List Step) : Prop :=
  steps.Pairwise fun earlier later => earlier.surroundings.now ≤ later.surroundings.now

theorem HubState.step_ripe (ripe : h.Ripe step.surroundings.now) :
    (h.step step).Ripe step.surroundings.now :=
  step_preserves (P := fun _ h => h.Ripe step.surroundings.now) (t := .zero)
    (fun _ ripe move takes _ => ripe.move move takes) ripe.laden.sound.kept ripe

theorem HubState.after_ripe {steps : List Step} (timely : Timely steps)
    (reached : ∀ step ∈ steps, step.surroundings.now ≤ now) : (after steps).Ripe now := by
  induction steps using List.reverseRecOn generalizing now with
  | nil => exact .initial now
  | append_singleton steps step ih =>
      obtain ⟨earlier, -, before⟩ := List.pairwise_append.mp timely
      rw [after_append]
      exact (step_ripe (ih earlier fun first member => before first member step
        List.mem_cons_self)).mono (reached step (by simp))

namespace HubState

/-- As long as the clock does not go back, a batch is withdrawn only after word of success
of an unbonding that it waited for, and only once the margin has passed over every
completion time reported with it, or, if there was none, over the end of an unbonding
period that began then. -/
theorem withdrawals_wait (steps : List Step) (step : Step) (r : Response) (id : ChainId)
    (epoch : Epoch) (amount : Amount) (timely : Timely (steps ++ [step]))
    (answered : (after steps).answer? step = some (.ok r))
    (started : .withdrawUnbonded id epoch amount ∈ r.dispatched) :
    ∃ before later s index shares receipts chain,
      steps = before ++ .acknowledge s index (.success receipts) :: later ∧
      (after before).outstanding[index]? = some (.undelegate id epoch shares) ∧
      (after before).books.redemptionStatus? id epoch = some .starting ∧
      (after before).books.chain? id = some chain ∧
      (∀ time, .unbondsAt time ∈ receipts → Width.addSat 64 time 300 ≤ step.surroundings.now) ∧
      ((∀ time, .unbondsAt time ∉ receipts) →
        Width.addSat 64 (Width.addSat 64 s.now chain.unbondingPeriod) 300 ≤
          step.surroundings.now) := by
  obtain ⟨cause, occurs⟩ := answer?_occurs answered
  have laden := after_laden steps
  have course := occurrence?_course _ laden.sound.kept occurs
  have reached : ∀ earlier ∈ steps ++ [step],
      earlier.surroundings.now ≤ step.surroundings.now := by
    intro earlier member
    rcases List.mem_append.mp member with before | last
    · exact (List.pairwise_append.mp timely).2.2 earlier before step List.mem_cons_self
    · obtain rfl := List.mem_singleton.mp last
      exact Nat.le_refl _
  have ripe := after_ripe timely reached
  rw [after_append] at ripe
  have outstanding : .withdrawUnbonded id epoch amount ∈ ((after steps).step step).outstanding := by
    rw [step_of_some _ occurs]
    exact List.mem_append_right _ started
  obtain ⟨time, dated, passed⟩ := ripe.ops outstanding
  -- The step starts the withdrawal, so it is not the one that dated the batch.
  have dated : (after steps).books.completion? id epoch = some time := by
    rcases step_completion? laden dated with same | ⟨cause', r', occurs', dating⟩
    · exact same
    · cases occurs.symm.trans occurs'
      obtain ⟨request, asked⟩ := course.withdraws started
      cases dating
      cases asked
  obtain ⟨before, first, later, rfl, cause', r', occurs', dating⟩ := after_dated steps dated
  cases dating with
  | @unbonded shares receipts chain awaited known due =>
      cases first with
      | perform s request =>
          cases (occurrence?_performed _ occurs').1
      | acknowledge s index outcome =>
          obtain ⟨op, found, same, -⟩ := occurrence?_acknowledged _ occurs'
          cases same
          refine ⟨before, later, s, index, shares, receipts, chain, rfl, found, awaited, known,
            fun other reported => ?_, fun silent => ?_⟩
          · have first : other ≤ time := due ▸ Hub.le_completionTime reported
            exact Nat.le_trans (Width.addSat_mono first) passed
          · rwa [due, Hub.completionTime_of_silent silent] at passed

end HubState

/-- A batch has matured, its withdrawal fails, and it is tried again with the next epoch. -/
def Step.sampleMatured : List Step :=
  let matured : Surroundings := { Surroundings.sample 600 0 with now := 1900300 }
  sampleRun ++
    [.acknowledge (.sample 1000 0) 0 (.success [.unbondsAt 1900000]),
      .perform matured (.startEpoch .undelegation 3), .acknowledge matured 0 .failure]

theorem HubState.withdrawals_wait_sample :
    ∃ before later s index receipts,
      Step.sampleMatured = before ++ .acknowledge s index (.success receipts) :: later ∧
      ∀ time, .unbondsAt time ∈ receipts → Width.addSat 64 time 300 ≤ 1900300 := by
  let matured : Surroundings := { Surroundings.sample 600 0 with now := 1900300 }
  have timely :
      Timely (Step.sampleMatured ++ [.perform matured (.startEpoch .undelegation 4)]) := by
    unfold Timely
    decide +kernel
  have answered : (after Step.sampleMatured).answer?
      (.perform matured (.startEpoch .undelegation 4)) =
      some (.ok ⟨[.epoch .undelegation 4,
        .redemption ⟨"cosmoshub/1", "cosmoshub", 1, 400, 400, some 1900000, .withdrawing,
          ["cosmoshub/1/carol"]⟩,
        .dispatch (.withdrawUnbonded "cosmoshub" 1 400)],
        [.redemptionStatus "cosmoshub" 1 .withdrawing]⟩) := by
    decide +kernel
  obtain ⟨before, later, s, index, -, receipts, -, split, -, -, -, waited, -⟩ :=
    withdrawals_wait Step.sampleMatured (.perform matured (.startEpoch .undelegation 4)) _
      "cosmoshub" 1 400 timely answered (by decide)
  exact ⟨before, later, s, index, receipts, split, waited⟩

end LiquidStaking
