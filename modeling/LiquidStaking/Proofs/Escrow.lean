import LiquidStaking.Proofs.Funding
import LiquidStaking.Proofs.Waiting

/-!
# Deposits leave escrow once

A deposit is in escrow until its batch is transferred out, and back in escrow if
the transfer fails.  As long as no batch is reset while it is transferred, every
transfer that is outstanding belongs to a batch that waits for it, and no two to
the same batch, so a failed one brings back exactly what left.
-/

namespace LiquidStaking

variable {s : Surroundings} {b : Books} {cause : Cause} {r : Response} {id : ChainId}
  {epoch : Epoch}

def RemoteOp.transfers (id : ChainId) (epoch : Epoch) : RemoteOp → Nat
  | .transferDeposit chain e _ => if id = chain ∧ epoch = e then 1 else 0
  | _ => 0

def Books.transferring (b : Books) (id : ChainId) (epoch : Epoch) : Nat :=
  (b.deposit? id epoch).elim 0 fun batch => if batch.status = .transferring then 1 else 0

def Cause.KeepsTransfers (cause : Cause) (b : Books) (id : ChainId) : Prop :=
  ∀ epoch, cause = .asked (.resetDeposit id epoch) → b.transferring id epoch = 0

namespace Books

theorem transferring_eq (b : Books) (id : ChainId) (epoch : Epoch) :
    b.transferring id epoch = (b.awaits ⟨id, epoch, .transfer⟩).toNat := by
  cases found : b.deposit? id epoch with
  | none => simp [transferring, awaits, Leg.ofDeposit, found]
  | some batch =>
      by_cases awaited : batch.status = .transferring <;>
        simp [transferring, awaits, Leg.ofDeposit, found, DepositStatus.leg?_transfer, awaited]

theorem transferring_of_found {batch : DepositBatch} (found : b.deposit? id epoch = some batch) :
    b.transferring id epoch = if batch.status = .transferring then 1 else 0 := by
  rw [transferring, found]
  rfl

theorem awaited_of_transferring (waiting : 0 < b.transferring id epoch) :
    ∃ batch, b.deposit? id epoch = some batch ∧ batch.status = .transferring := by
  cases found : b.deposit? id epoch with
  | none => simp [transferring, found] at waiting
  | some batch =>
      refine ⟨batch, rfl, ?_⟩
      simp only [transferring_of_found found] at waiting
      split at waiting
      · assumption
      · cases waiting

end Books

/-! ## One transfer for each batch -/

theorem RemoteOp.transfers_eq (id : ChainId) (epoch : Epoch) (op : RemoteOp) :
    op.transfers id epoch = (op.serves ⟨id, epoch, .transfer⟩).toNat := by
  cases op with
  | transferDeposit chain e amount =>
      by_cases own : id = chain ∧ epoch = e
      · obtain ⟨rfl, rfl⟩ := own
        simp [transfers, serves, stage?]
      · have other : ¬(chain = id ∧ e = epoch) := fun same => own ⟨same.1.symm, same.2.symm⟩
        simp [transfers, serves, stage?, own, other]
  | _ => simp [transfers, serves, stage?]

theorem Move.transfers (kept : b.WellKept) (orderly : b.Orderly) (move : Move s b cause r)
    (keeps : cause.KeepsTransfers b id) (epoch : Epoch) :
    RemoteOp.total (RemoteOp.transfers id epoch) r.dispatched + b.transferring id epoch ≤
      (b.applyAll r.commands).transferring id epoch +
        cause.answered (RemoteOp.transfers id epoch) := by
  have heard : cause.answered (RemoteOp.transfers id epoch) =
      (cause.answers ⟨id, epoch, .transfer⟩).toNat := by
    cases cause with
    | heard op outcome => exact op.transfers_eq id epoch
    | _ => rfl
  rw [RemoteOp.total_eq_countP _ (RemoteOp.transfers_eq id epoch), b.transferring_eq,
    Books.transferring_eq, heard]
  refine move.awaits_flow kept orderly fun dropped => ?_
  obtain rfl := Cause.deposit_of_drops rfl dropped
  simpa [b.transferring_eq] using keeps epoch rfl

/-! ## What is in escrow -/

def RemoteOp.leaving (id : ChainId) : RemoteOp → Nat
  | .transferDeposit chain _ amount => if chain = id then amount else 0
  | _ => 0

theorem Response.ordered_transferred (r : Response) (id : ChainId) :
    r.ordered (Command.transferred id) = RemoteOp.total (RemoteOp.leaving id) r.dispatched := by
  obtain ⟨commands, notices⟩ := r
  simp only [ordered, dispatched]
  induction commands with
  | nil => rfl
  | cons command commands ih =>
      rw [List.map_cons, Width.total_cons, ih]
      cases command with
      | dispatch op => cases op <;> rfl
      | _ => exact Nat.zero_add _

/-- What leaves escrow was in escrow, and what does not leave is back. -/
theorem DepositEdge.escrow {batch : DepositBatch} {next : DepositStatus} {op : Option RemoteOp}
    (edge : DepositEdge b id batch cause next op) (found : b.deposit? id batch.epoch = some batch)
    (keeps : cause.KeepsTransfers b id)
    (founded : ∀ {op outcome}, cause = .heard op outcome → op.Founded b) :
    part DepositBatch.awaitsEpoch DepositBatch.net { batch with status := next } +
        RemoteOp.total (RemoteOp.leaving id) op.toList =
      part DepositBatch.awaitsEpoch DepositBatch.net batch + cause.returned id := by
  have gone {status : DepositStatus} (idle : status.awaitsEpoch = false) :
      part DepositBatch.awaitsEpoch DepositBatch.net { batch with status } = 0 :=
    part_ignored idle
  have absent (idle : batch.status.awaitsEpoch = false) :
      part DepositBatch.awaitsEpoch DepositBatch.net batch = 0 := part_ignored idle
  have waiting (due : batch.status.awaitsEpoch = true) :
      part DepositBatch.awaitsEpoch DepositBatch.net batch = batch.net := part_counted due
  cases edge with
  | emptied current earlier due nothing =>
      simp [part, DepositBatch.net, nothing, Cause.returned]
  | sent current earlier due known isOpen held =>
      rw [gone rfl, waiting due]
      simp [RemoteOp.leaving, Cause.returned]
  | divided current earlier due known isOpen something empty shared =>
      rw [gone rfl, waiting due, empty]
      rfl
  | redriven failed known isOpen shared =>
      rw [gone rfl, absent (by rw [failed]; rfl)]
      rfl
  | transferReset awaited =>
      have none := keeps batch.epoch rfl
      rw [b.transferring_of_found found, if_pos awaited] at none
      cases none
  | delegationReset awaited =>
      rw [gone rfl, absent (by rw [awaited]; rfl)]
      rfl
  | @returned amount outcome awaited failed =>
      obtain rfl := (founded rfl).transfer found
      rw [absent (by rw [awaited]; rfl)]
      simp [part, DepositBatch.awaitsEpoch, DepositStatus.awaitsEpoch, DepositBatch.net,
        Cause.returned, failed]
  | stranded awaited known isClosed =>
      rw [gone rfl, absent (by rw [awaited]; rfl)]
      simp [Cause.returned, Outcome.isSuccess]
  | arrived awaited known isOpen shared =>
      rw [gone rfl, absent (by rw [awaited]; rfl)]
      simp [RemoteOp.leaving, Cause.returned, Outcome.isSuccess]
  | refused awaited failed =>
      rw [gone rfl, absent (by rw [awaited]; rfl)]
      rfl

theorem DepositEdge.returned_other {batch : DepositBatch} {next : DepositStatus}
    {op : Option RemoteOp} (edge : DepositEdge b id batch cause next op) {other : ChainId}
    (differ : id ≠ other) : cause.returned other = 0 := by
  cases edge <;> simp [Cause.returned, differ]

theorem DepositEdge.deposited {batch : DepositBatch} {next : DepositStatus}
    {op : Option RemoteOp} (edge : DepositEdge b id batch cause next op) (other : ChainId) :
    cause.deposited other = 0 := by
  cases edge <;> rfl

theorem Hub.resolve_returned (s : Surroundings) (amount : Amount) {outcome : Outcome}
    {batch : DepositBatch} (found : b.deposit? id epoch = some batch)
    (awaited : batch.status = .transferring) (failed : outcome.isSuccess = false) :
    ∃ response, resolve b.view s (.transferDeposit id epoch amount) outcome = .ok response := by
  have read : b.view.deposit? id epoch = some (some batch) := congrArg some found
  have proceeds : proceed b.view s (.transferDeposit id epoch amount) outcome =
      .ok (moveDeposit batch .transferFailed none).2 := by
    simp only [proceed, depositTransferred, read, Attempt.promised]
    simp [Bind.bind, Except.bind, awaited, failed, Option.filter]
  refine ⟨(moveDeposit batch .transferFailed none).2, ?_⟩
  simp only [resolve, proceeds]
  cases outcome <;> rfl

theorem Cause.returned_of_idle {op : RemoteOp} {outcome : Outcome}
    (idle : ∀ epoch amount, op = .transferDeposit id epoch amount → outcome.isSuccess = true) :
    (Cause.heard op outcome).returned id = 0 := by
  cases op with
  | transferDeposit chain e amount =>
      simp only [returned, ite_eq_right_iff, and_imp]
      rintro rfl failed
      rw [idle e amount rfl] at failed
      cases failed
  | _ => rfl

theorem DepositBatch.net_reinvesting (batch : DepositBatch) {amount : Amount}
    (covered : batch.reinvested ≤ batch.amount)
    (fits : batch.amount + amount < Width.limit 128) :
    (batch.reinvesting amount).net = batch.net := by
  simp only [net, reinvesting]
  rw [Width.addSat_of_lt fits, Width.addSat_of_lt (Nat.lt_of_le_of_lt
    (Nat.add_le_add_right covered amount) fits), Nat.add_sub_add_right]

namespace Books

theorem awaited_of_heard {outcome : Outcome} {amount : Amount}
    (waits : (Cause.heard (.transferDeposit id epoch amount) outcome).answered
      (RemoteOp.transfers id epoch) ≤ b.transferring id epoch) :
    ∃ batch, b.deposit? id epoch = some batch ∧ batch.status = .transferring := by
  refine b.awaited_of_transferring (Nat.lt_of_lt_of_le ?_ waits)
  simp [Cause.answered, RemoteOp.transfers]

theorem escrow_deposited (kept : b.WellKept) {batch : DepositBatch} (amount : Amount)
    (found : b.deposit? batch.chain batch.epoch = some batch) (pending : batch.status = .pending)
    (covered : batch.reinvested ≤ batch.amount) (id : ChainId) :
    (b.putDeposit { batch with amount := batch.amount + amount }).escrow id =
      b.escrow id + if batch.chain = id then amount else 0 := by
  have due : batch.awaitsEpoch = true := batch.awaitsEpoch_eq pending
  refine kept.depositTotal_grown DepositBatch.awaitsEpoch DepositBatch.net
    { batch with amount := batch.amount + amount } (.inl found) rfl amount id fun _ => ?_
  rw [part_counted due, part_counted (by exact due)]
  exact Nat.sub_add_comm covered

theorem escrow_reinvesting (kept : b.WellKept) {batch : DepositBatch} {amount : Amount}
    (stored : b.deposit? batch.chain batch.epoch = some batch ∨
      (b.deposit? batch.chain batch.epoch = none ∧ batch = .empty batch.chain batch.epoch))
    (pending : batch.status = .pending) (covered : batch.reinvested ≤ batch.amount)
    (fits : batch.chain = id → b.collected id + amount < Width.limit 128) :
    (b.putDeposit (batch.reinvesting amount)).escrow id = b.escrow id := by
  have due : batch.awaitsEpoch = true := batch.awaitsEpoch_eq pending
  have grown := kept.depositTotal_grown DepositBatch.awaitsEpoch DepositBatch.net
    (batch.reinvesting amount) stored rfl 0 id fun own => by
      have room := fits own
      rw [← (show batch.chain = id from own)] at room
      rw [part_counted due, part_counted (by exact due)]
      exact batch.net_reinvesting covered
        (Nat.lt_of_le_of_lt (Nat.add_le_add_right (amount_le_collected stored) amount) room)
  rwa [ite_self] at grown

theorem escrow_moved (kept : b.WellKept) {batch : DepositBatch} {next : DepositStatus}
    {op : Option RemoteOp} (edge : DepositEdge b batch.chain batch cause next op)
    (found : b.deposit? batch.chain batch.epoch = some batch)
    (keeps : cause.KeepsTransfers b id)
    (founded : ∀ {op outcome}, cause = .heard op outcome → op.Founded b) :
    (b.putDeposit { batch with status := next }).escrow id +
        RemoteOp.total (RemoteOp.leaving id) op.toList =
      b.escrow id + cause.returned id := by
  by_cases own : batch.chain = id
  · subst own
    have change := kept.depositTotal_put DepositBatch.awaitsEpoch DepositBatch.net
      { batch with status := next } found
    have flow := edge.escrow found keeps founded
    simp only [escrow] at change ⊢
    omega
  · have other (amount : Amount) :
        RemoteOp.leaving id (.transferDeposit batch.chain batch.epoch amount) = 0 := if_neg own
    have same : (b.putDeposit { batch with status := next }).escrow id = b.escrow id :=
      depositTotal_put_other _ _ { batch with status := next } (Ne.symm own)
    rw [edge.starts _ other fun _ => rfl, edge.returned_other own, same]

end Books

theorem Cause.returned_of_unanswered {op : RemoteOp} {outcome : Outcome}
    (awaited : ∀ {epoch amount}, op = .transferDeposit id epoch amount →
      ∃ batch, b.deposit? id epoch = some batch ∧ batch.status = .transferring)
    (failed : ∀ response, Hub.resolve b.view s op outcome ≠ .ok response) :
    (Cause.heard op outcome).returned id = 0 := by
  refine returned_of_idle fun epoch amount transfer => ?_
  obtain ⟨batch, found, waiting⟩ := awaited transfer
  subst transfer
  by_contra unsuccessful
  obtain ⟨response, answered⟩ := Hub.resolve_returned s amount found waiting
    (by simpa using unsuccessful)
  exact failed response answered

/-- A move leaves in escrow what was there and what came in, less what left. -/
theorem Move.escrow (kept : b.WellKept) (orderly : b.Orderly)
    (fits : b.collected id + cause.answered (RemoteOp.rewardsFor id) < Width.limit 128)
    (keeps : cause.KeepsTransfers b id)
    (waits : ∀ epoch, cause.answered (RemoteOp.transfers id epoch) ≤ b.transferring id epoch)
    (founded : ∀ {op outcome}, cause = .heard op outcome → op.Founded b)
    (move : Move s b cause r) :
    (b.applyAll r.commands).escrow id + r.ordered (Command.transferred id) =
      b.escrow id + cause.deposited id + cause.returned id := by
  rw [r.ordered_transferred]
  -- Most moves leave the deposits alone, and bring none in or back.
  have unmoved (same : (b.applyAll r.commands).escrow id = b.escrow id)
      (still : RemoteOp.total (RemoteOp.leaving id) r.dispatched = 0)
      (silent : cause.deposited id = 0) (none : cause.returned id = 0) :
      (b.applyAll r.commands).escrow id + RemoteOp.total (RemoteOp.leaving id) r.dispatched =
        b.escrow id + cause.deposited id + cause.returned id := by
    rw [same, still, silent, none]
  cases move with
  | revised known edge plain =>
      rw [Books.applyAll_chain, Response.dispatched_chain] at unmoved ⊢
      have nothing : cause.deposited id = 0 ∧ cause.returned id = 0 := by
        cases edge <;> exact ⟨rfl, rfl⟩
      exact unmoved rfl (edge.starts _ rfl) nothing.1 nothing.2
  | rewarded known edge told =>
      rw [Books.applyAll_chain, Response.dispatched_chain] at unmoved ⊢
      have nothing : cause.deposited id = 0 ∧ cause.returned id = 0 := by
        cases edge <;> exact ⟨rfl, rfl⟩
      exact unmoved rfl (edge.starts _ fun _ => rfl) nothing.1 nothing.2
  | requested known kind => rcases kind with rfl | ⟨validators, rfl⟩ <;> rfl
  | @deposited id' chain batch amount issued depositor known current found positive priced
      worthwhile fits' =>
      obtain ⟨rfl, -, pending, covered, -⟩ :=
        orderly.collecting_deposit kept current (by rw [found, Option.getD_some])
      exact b.escrow_deposited kept amount found pending covered id
  | @depositOpened id' chain epoch known current absent =>
      exact kept.depositTotal_collect_same _ _ (.empty id' epoch) (.inr ⟨absent, rfl⟩) rfl rfl id
  | @depositMoved id' batch cause next op notices found edge plain =>
      obtain rfl := kept.depositKey (Books.mem_deposits found).1
      rw [Books.applyAll_deposit, Response.dispatched_deposit, edge.deposited]
      exact b.escrow_moved kept edge found keeps founded
  | @delegated id' chain batch shares total receipts notices found awaited known summed told =>
      obtain rfl := kept.depositKey (Books.mem_deposits found).1
      have idle : batch.awaitsEpoch = false := batch.awaitsEpoch_eq awaited
      exact kept.depositTotal_collect_same _ _ { batch with status := .done } (.inl found) rfl
        (by rw [part_ignored idle, part_ignored rfl]) id
  | @reinvested id' epoch batch amount receipts notices current found plain =>
      obtain ⟨rfl, rfl, pending, covered, stored⟩ := orderly.collecting_deposit kept current found
      refine b.escrow_reinvesting kept stored pending covered fun own => ?_
      rw [Cause.answered, RemoteOp.rewardsFor, if_pos own] at fits
      exact fits
  | redemptionMoved found edge plain =>
      rw [Books.applyAll_redemption, Response.dispatched_redemption] at unmoved ⊢
      have nothing : cause.deposited id = 0 ∧ cause.returned id = 0 := by
        cases edge <;> exact ⟨rfl, rfl⟩
      exact unmoved rfl (edge.starts _ (fun _ => rfl) fun _ => rfl) nothing.1 nothing.2
  | released found awaited plain =>
      rw [Books.applyAll_released, Response.dispatched_released] at unmoved ⊢
      exact unmoved (by simp [Books.escrow, Books.depositTotal]) rfl rfl rfl
  | @stale op outcome notices stale plain =>
      refine unmoved rfl rfl rfl (Cause.returned_of_idle fun epoch amount transfer => ?_)
      subst transfer
      obtain ⟨batch, found, awaited⟩ := Books.awaited_of_heard (waits _)
      exact absurd awaited (stale batch found)
  | unanswered failed =>
      refine unmoved rfl rfl rfl (Cause.returned_of_unanswered (fun transfer => ?_) failed)
      subst transfer
      exact Books.awaited_of_heard (waits _)
  | registered | repriced | epochStarted | redeemed | unbonded | paid | quiet => rfl

end LiquidStaking
