import LiquidStaking.Proofs.Attempts
import LiquidStaking.Proofs.Changes

/-!
# Batches only move along

A batch is opened collecting, and a step moves it along at most one edge of its
lifecycle.  The start of an epoch makes many moves, but what it has moved it does
not take up again: every cause takes up batches of some statuses, and leaves them
with others.
-/

namespace LiquidStaking

/-! ## Lifecycles -/

structure Lifecycle (σ : Type) where
  start : σ
  next : σ → List σ

namespace Lifecycle

variable {σ : Type} {life : Lifecycle σ} {takes : σ → Bool} {first second third : Option σ}

inductive Step (life : Lifecycle σ) : Option σ → Option σ → Prop
  | same {status : Option σ} : Step life status status
  | opened : Step life none (some life.start)
  | moved {before after : σ} (edge : after ∈ life.next before) :
      Step life (some before) (some after)

inductive Advance (life : Lifecycle σ) (takes : σ → Bool) : Option σ → Option σ → Prop
  | same {status : Option σ} : Advance life takes status status
  | opened (left : takes life.start = false) : Advance life takes none (some life.start)
  | moved {before after : σ} (edge : after ∈ life.next before) (taken : takes before = true)
      (left : takes after = false) : Advance life takes (some before) (some after)

theorem Advance.step (advance : life.Advance takes first second) : life.Step first second := by
  cases advance with
  | same => exact .same
  | opened left => exact .opened
  | moved edge taken left => exact .moved edge

theorem Advance.along {before status after : σ} (is : before = status)
    (edge : after ∈ life.next status) (taken : takes status = true)
    (left : takes after = false) : life.Advance takes (some before) (some after) := by
  rw [is]
  exact .moved edge taken left

theorem Advance.trans (before : life.Advance takes first second)
    (after : life.Advance takes second third) : life.Advance takes first third := by
  cases after with
  | same => exact before
  | opened left =>
      cases before with
      | same => exact .opened left
  | moved edge taken left =>
      cases before with
      | same => exact .moved edge taken left
      | opened spent => cases taken.symm.trans spent
      | moved _ _ spent => cases taken.symm.trans spent

theorem Step.final {status : σ} (final : life.next status = [])
    (step : life.Step (some status) second) : second = some status := by
  cases step with
  | same => rfl
  | moved edge =>
      rw [final] at edge
      cases edge

end Lifecycle

def DepositStatus.lifecycle : Lifecycle DepositStatus where
  start := .pending
  next
    | .pending => [.transferring, .delegating, .done]
    | .transferring => [.delegating, .transferFailed, .failed]
    | .transferFailed => [.transferring]
    | .delegating => [.done, .failed]
    | .failed => [.delegating]
    | .done => []

def RedemptionStatus.lifecycle : Lifecycle RedemptionStatus where
  start := .pending
  next
    | .pending => [.starting]
    | .starting => [.waiting, .startFailed]
    | .startFailed => [.starting]
    | .waiting => [.withdrawing]
    | .withdrawing => [.done, .transferFailed]
    | .transferFailed => [.withdrawing]
    | .done => []

/-! ## What a cause takes up -/

/-- Whether the cause moves deposit batches of the epoch that have the status. -/
def Cause.takesDeposit (epoch : Epoch) : Cause → DepositStatus → Bool
  | .asked (.startEpoch .delegation current), status =>
      decide (epoch < current) && status.awaitsEpoch
  | .asked (.redriveDeposit ..), status => status == .failed
  | .asked (.resetDeposit ..), status => status == .transferring || status == .delegating
  | .heard (.transferDeposit ..) _, status => status == .transferring
  | .heard (.delegate ..) _, status => status == .delegating
  | _, _ => false

def Cause.takesRedemption (epoch : Epoch) : Cause → RedemptionStatus → Bool
  | .asked (.startEpoch .undelegation current), status =>
      decide (epoch < current) && (status == .pending || status == .startFailed ||
        status == .waiting || status == .transferFailed)
  | .asked (.resetRedemption ..), status => status == .starting || status == .withdrawing
  | .heard (.undelegate ..) _, status => status == .starting
  | .heard (.withdrawUnbonded ..) _, status => status == .withdrawing
  | _, _ => false

variable {s : Surroundings} {b c : Books} {cause : Cause} {r : Response} {id : ChainId}
  {epoch : Epoch} {h : HubState}

theorem DepositStatus.due_cases {status : DepositStatus} (due : status.awaitsEpoch = true) :
    status = .pending ∨ status = .transferFailed := by
  cases status <;> simp_all [awaitsEpoch]

theorem DepositEdge.advance {batch : DepositBatch} {next : DepositStatus} {op : Option RemoteOp}
    (laden : batch.Laden) (edge : DepositEdge b id batch cause next op) :
    DepositStatus.lifecycle.Advance (cause.takesDeposit batch.epoch) (some batch.status)
      (some next) := by
  have due_taken {current : Epoch} (earlier : batch.epoch < current) {status : DepositStatus}
      (due : status.awaitsEpoch = true) :
      Cause.takesDeposit batch.epoch (.asked (.startEpoch .delegation current)) status = true := by
    simp [Cause.takesDeposit, earlier, due]
  cases edge with
  | emptied current earlier due nothing =>
      rcases DepositStatus.due_cases due with awaited | awaited
      · exact .along awaited (by decide) (due_taken earlier rfl) (Bool.and_false _)
      · simp only [DepositBatch.Laden, awaited] at laden
        exact absurd nothing (DepositBatch.amount_of_net laden)
  | sent current earlier due known isOpen held =>
      rcases DepositStatus.due_cases due with awaited | awaited
      · exact .along awaited (by decide) (due_taken earlier rfl) (Bool.and_false _)
      · exact .along awaited (by decide) (due_taken earlier rfl) (Bool.and_false _)
  | divided current earlier due known isOpen something gone shared =>
      rcases DepositStatus.due_cases due with awaited | awaited
      · exact .along awaited (by decide) (due_taken earlier rfl) (Bool.and_false _)
      · simp only [DepositBatch.Laden, awaited] at laden
        exact absurd gone laden
  | redriven awaited known isOpen shared | transferReset awaited | delegationReset awaited
  | returned awaited failed | stranded awaited known isClosed
  | arrived awaited known isOpen shared | refused awaited failed =>
      exact .along awaited (by decide) rfl rfl

theorem RedemptionEdge.advance {batch : RedemptionBatch} {next : RedemptionStatus}
    {op : Option RemoteOp} (edge : RedemptionEdge s b id batch cause next op) :
    RedemptionStatus.lifecycle.Advance (cause.takesRedemption batch.epoch) (some batch.status)
      (some next) := by
  cases edge with
  | started current earlier due known isOpen shared =>
      rcases due with awaited | awaited <;>
        exact .along awaited (by decide) (by simp [Cause.takesRedemption, earlier])
          (Bool.and_false _)
  | withdrawn current earlier due known isOpen =>
      rcases due with ⟨awaited, -⟩ | awaited <;>
        exact .along awaited (by decide) (by simp [Cause.takesRedemption, earlier])
          (Bool.and_false _)
  | startReset awaited | withdrawalReset awaited | refused awaited failed
  | stayed awaited failed =>
      exact .along awaited (by decide) rfl rfl

namespace Books

def depositStatus? (b : Books) (id : ChainId) (epoch : Epoch) : Option DepositStatus :=
  (b.deposit? id epoch).map DepositBatch.status

def redemptionStatus? (b : Books) (id : ChainId) (epoch : Epoch) : Option RedemptionStatus :=
  (b.redemption? id epoch).map RedemptionBatch.status

end Books

theorem DepositChange.advance {before : Option DepositBatch} {after : DepositBatch}
    (change : DepositChange b id epoch cause before after)
    (laden : ∀ batch, before = some batch → batch.Laden) :
    DepositStatus.lifecycle.Advance (cause.takesDeposit epoch)
      (before.map DepositBatch.status) (some after.status) := by
  cases change with
  | opened current => exact .opened (by simp [Cause.takesDeposit])
  | deposited current pending => exact .same
  | @reinvested before batch amount receipts current found pending =>
      cases before with
      | none =>
          cases found
          exact .opened rfl
      | some old =>
          cases found
          exact .same
  | @moved batch cause next op own edge =>
      subst own
      exact edge.advance (laden batch rfl)
  | settled awaited =>
      have edge : DepositStatus.done ∈ DepositStatus.lifecycle.next .delegating := by decide
      exact .along awaited edge rfl rfl

theorem RedemptionChange.advance {before : Option RedemptionBatch} {after : RedemptionBatch}
    (change : RedemptionChange s b id epoch cause before after) :
    RedemptionStatus.lifecycle.Advance (cause.takesRedemption epoch)
      (before.map RedemptionBatch.status) (some after.status) := by
  cases change with
  | @joined before batch amount owed owner current found pending worthwhile =>
      cases before with
      | none =>
          cases found
          exact .opened rfl
      | some old =>
          cases found
          exact .same
  | @moved batch cause next op own edge =>
      subst own
      exact edge.advance
  | unbonded awaited =>
      have edge : RedemptionStatus.waiting ∈ RedemptionStatus.lifecycle.next .starting := by
        decide
      exact .along awaited edge rfl rfl
  | released awaited =>
      have edge : RedemptionStatus.done ∈ RedemptionStatus.lifecycle.next .withdrawing := by
        decide
      exact .along awaited edge rfl rfl

/-! ## One step -/

section Course

/-- What every move advances, for what its cause takes up, a step moves along once. -/
structure Lifecycle.Governs {σ : Type} (life : Lifecycle σ) (takes : Cause → σ → Bool)
    (read : Books → Option σ) : Prop where
  advance : ∀ {s b cause r}, b.WellKept → b.Orderly → b.Laden → Move s b cause r →
    life.Advance (takes cause) (read b) (read (b.applyAll r.commands))
  /-- Only the batches are read. -/
  congr : ∀ {b c : Books}, c.deposits = b.deposits → c.redemptions = b.redemptions →
    read c = read b

variable {σ : Type} {life : Lifecycle σ} {takes : Cause → σ → Bool} {read : Books → Option σ}

theorem Passage.advance (governs : life.Governs takes read)
    (unheard : ∀ op outcome, cause ≠ .heard op outcome) (kept : b.WellKept)
    (orderly : b.Orderly) (laden : b.Laden) (passage : Passage s cause b r) :
    life.Advance (takes cause) (read b) (read (b.applyAll r.commands)) := by
  induction passage with
  | done => exact .same
  | next move later ih =>
      have orderly' := move.orderly kept orderly fun equal => absurd equal (unheard _ _)
      rw [Response.commands_append, Books.applyAll_append]
      exact (governs.advance kept orderly laden move).trans
        (ih (kept.applyAll _) orderly' (move.laden kept orderly laden))

theorem Move.closed_batches {account : ControlAccount} (move : Move s b (.closed id account) r) :
    (b.applyAll r.commands).deposits = b.deposits ∧
      (b.applyAll r.commands).redemptions = b.redemptions := by
  obtain ⟨record, written⟩ := move.closed_commands
  rw [written]
  exact ⟨rfl, rfl⟩

theorem Course.moves_along (governs : life.Governs takes read) (kept : b.WellKept)
    (orderly : b.Orderly) (laden : b.Laden) (course : Course s b cause r) :
    life.Step (read b) (read (b.applyAll r.commands)) := by
  cases course with
  | single move => exact (governs.advance kept orderly laden move).step
  | closing move closing =>
      obtain ⟨deposits, redemptions⟩ := closing.closed_batches
      rw [Response.commands_append, Books.applyAll_append, governs.congr deposits redemptions]
      exact (governs.advance kept orderly laden move).step
  | passing passage =>
      exact (passage.advance governs (fun _ _ heard => by cases heard) kept orderly laden).step

theorem HubState.step_moves_along (governs : life.Governs takes read) (laden : h.Laden)
    (step : Step) : life.Step (read h.books) (read (h.step step).books) := by
  cases occurs : h.occurrence? step with
  | none =>
      rw [h.step_of_none occurs]
      exact .same
  | some occurrence =>
      obtain ⟨cause, r⟩ := occurrence
      rw [h.step_of_some occurs]
      exact (h.occurrence?_course laden.sound.kept occurs).moves_along governs laden.sound.kept
        laden.sound.orderly laden.books

end Course

theorem DepositStatus.governs (id : ChainId) (epoch : Epoch) :
    lifecycle.Governs (Cause.takesDeposit epoch) (fun b => b.depositStatus? id epoch) where
  advance kept orderly laden move := by
    rcases move.deposit_change kept orderly id epoch with same | ⟨after, written, change⟩
    · rw [Books.depositStatus?, Books.depositStatus?, same]
      exact .same
    · rw [Books.depositStatus?, Books.depositStatus?, written]
      exact change.advance fun _ found => laden.deposit found
  congr deposits _ := by simp only [Books.depositStatus?, Books.deposit?, deposits]

theorem RedemptionStatus.governs (id : ChainId) (epoch : Epoch) :
    lifecycle.Governs (Cause.takesRedemption epoch) (fun b => b.redemptionStatus? id epoch) where
  advance kept orderly laden move := by
    rcases move.redemption_change kept orderly id epoch with same | ⟨after, written, change⟩
    · rw [Books.redemptionStatus?, Books.redemptionStatus?, same]
      exact .same
    · rw [Books.redemptionStatus?, Books.redemptionStatus?, written]
      exact change.advance
  congr _ redemptions := by simp only [Books.redemptionStatus?, Books.redemption?, redemptions]

/-! ## What never changes -/

def Books.KeepsDates (c b : Books) : Prop :=
  ∀ {id epoch batch completion}, b.redemption? id epoch = some batch →
    batch.completion = some completion →
    ∃ batch', c.redemption? id epoch = some batch' ∧ batch'.completion = some completion

theorem RedemptionChange.completion {batch after : RedemptionBatch} (laden : batch.Laden)
    (change : RedemptionChange s b id epoch cause (some batch) after) {completion : Seconds}
    (dated : batch.completion = some completion) : after.completion = some completion := by
  cases change with
  | joined current found pending worthwhile =>
      cases found
      exact dated
  | moved own edge => exact dated
  | unbonded awaited =>
      have undated := laden.dated
      rw [batch.unbonded_eq awaited, dated] at undated
      cases undated
  | released awaited => exact dated

theorem HubState.step_keepsDates (laden : h.Laden) (step : Step) :
    (h.step step).books.KeepsDates h.books := by
  refine (step_preserves (P := fun _ h' => h'.Laden ∧ h'.books.KeepsDates h.books) (t := .zero)
    (fun {_ h' _ r rest} _ holds move takes _ => ⟨holds.1.move move takes, ?_⟩)
    laden.sound.kept ⟨laden, fun found dated => ⟨_, found, dated⟩⟩).2
  intro id epoch batch completion found dated
  obtain ⟨middle, found', dated'⟩ := holds.2 found dated
  rcases move.redemption_change holds.1.sound.kept holds.1.sound.orderly id epoch with
    same | ⟨after, written, change⟩
  · exact ⟨middle, same.trans found', dated'⟩
  · rw [found'] at change
    exact ⟨after, written, change.completion (holds.1.books.redemption found') dated'⟩

/-! ## Runs -/

namespace HubState

theorem after_final {σ : Type} {life : Lifecycle σ} {takes : Cause → σ → Bool}
    {read : Books → Option σ} (governs : life.Governs takes read) {status : σ}
    (final : life.next status = []) (steps later : List Step)
    (reached : read (after steps).books = some status) :
    read (after (steps ++ later)).books = some status := by
  refine after_onward (P := fun h => read h.books = some status) steps later ?_ reached
  intro before step reached
  have along := step_moves_along governs (after_laden before) step
  rw [reached] at along
  rw [after_append]
  exact along.final final

theorem after_keepsDates (steps later : List Step) :
    (after (steps ++ later)).books.KeepsDates (after steps).books := by
  refine after_onward (P := fun h => h.books.KeepsDates (after steps).books) steps later ?_
    fun found dated => ⟨_, found, dated⟩
  intro before step keeps id epoch batch completion found dated
  obtain ⟨batch', found', dated'⟩ := keeps found dated
  rw [after_append]
  exact step_keepsDates (after_laden before) step found' dated'

/-- A batch is opened collecting and collects while its epoch is the current one; a
step moves it along at most one edge of its lifecycle, and a batch that is done
stays done.  A redemption batch has a completion time from when it is unbonded,
and always the same. -/
theorem batches_move_along (steps : List Step) (id : ChainId) (epoch : Epoch) :
    (∀ step,
      DepositStatus.lifecycle.Step ((after steps).books.depositStatus? id epoch)
        ((after (steps ++ [step])).books.depositStatus? id epoch) ∧
      RedemptionStatus.lifecycle.Step ((after steps).books.redemptionStatus? id epoch)
        ((after (steps ++ [step])).books.redemptionStatus? id epoch)) ∧
    (∀ batch, (after steps).books.deposit? id epoch = some batch →
      ((after steps).books.epoch? .delegation = some epoch → batch.status = .pending) ∧
      (batch.status = .done →
        ∀ later, (after (steps ++ later)).books.depositStatus? id epoch = some .done)) ∧
    ∀ batch, (after steps).books.redemption? id epoch = some batch →
      ((after steps).books.epoch? .undelegation = some epoch → batch.status = .pending) ∧
      (batch.status = .done →
        ∀ later, (after (steps ++ later)).books.redemptionStatus? id epoch = some .done) ∧
      (batch.completion.isSome ↔ batch.status = .waiting ∨ batch.status = .withdrawing ∨
        batch.status = .transferFailed ∨ batch.status = .done) ∧
      ∀ completion, batch.completion = some completion → ∀ later, ∃ batch',
        (after (steps ++ later)).books.redemption? id epoch = some batch' ∧
          batch'.completion = some completion := by
  have laden := after_laden steps
  obtain ⟨kept, orderly, -⟩ := laden.sound
  refine ⟨fun step => ?_, fun batch found => ⟨fun current => ?_, fun done later => ?_⟩,
    fun batch found => ⟨fun current => ?_, fun done later => ?_, ?_, fun completion dated later =>
      after_keepsDates steps later found dated⟩⟩
  · rw [after_append]
    exact ⟨step_moves_along (DepositStatus.governs id epoch) laden step,
      step_moves_along (RedemptionStatus.governs id epoch) laden step⟩
  · exact (orderly.collecting_deposit kept current (by rw [found, Option.getD_some])).2.2.1
  · refine after_final (DepositStatus.governs id epoch) rfl steps later ?_
    rw [Books.depositStatus?, found, Option.map_some, done]
  · exact (orderly.collecting_redemption kept current (by rw [found, Option.getD_some])).2.2.1
  · refine after_final (RedemptionStatus.governs id epoch) rfl steps later ?_
    rw [Books.redemptionStatus?, found, Option.map_some, done]
  · rw [(laden.books.redemption found).dated, RedemptionBatch.unbonded]
    cases batch.status <;> simp [RedemptionStatus.unbonded]

/-- A batch that was reset and driven again is delegated a second time. -/
example :
    ((List.range 9).map fun count =>
      (after (Step.sampleRedriven.take count)).books.depositStatus? "cosmoshub" 1) =
    [none, none, none, some .pending, some .pending, some .transferring, some .delegating,
      some .failed, some .delegating] := by
  decide +kernel

end HubState

end LiquidStaking
