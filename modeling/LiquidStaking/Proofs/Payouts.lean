import LiquidStaking.Proofs.Answers
import LiquidStaking.Proofs.Claims
import LiquidStaking.Proofs.Funding

/-!
# Claims are paid out of what was withdrawn

When a batch comes back, its members can claim what the withdrawal brought, to
the last unit, and each of them once.  As long as no batch is reset while it is
withdrawn, every withdrawal that is outstanding belongs to a batch that waits for
it, so none is heard of twice.
-/

namespace LiquidStaking

variable {s : Surroundings} {b : Books} {cause : Cause} {r : Response} {id : ChainId}
  {epoch : Epoch} {denom : Denom}

/-! ## One withdrawal for each batch -/

def RemoteOp.withdraws (id : ChainId) (epoch : Epoch) : RemoteOp → Nat
  | .withdrawUnbonded chain e _ => if id = chain ∧ epoch = e then 1 else 0
  | _ => 0

def Books.withdrawing (b : Books) (id : ChainId) (epoch : Epoch) : Nat :=
  (b.redemption? id epoch).elim 0 fun batch => if batch.status = .withdrawing then 1 else 0

def Cause.KeepsWithdrawals (cause : Cause) (b : Books) (id : ChainId) : Prop :=
  ∀ epoch, cause = .asked (.resetRedemption id epoch) → b.withdrawing id epoch = 0

namespace Books

theorem withdrawing_eq (b : Books) (id : ChainId) (epoch : Epoch) :
    b.withdrawing id epoch = (b.awaits ⟨id, epoch, .withdrawal⟩).toNat := by
  cases found : b.redemption? id epoch with
  | none => simp [withdrawing, awaits, Leg.ofDeposit, found]
  | some batch =>
      by_cases awaited : batch.status = .withdrawing <;>
        simp [withdrawing, awaits, Leg.ofDeposit, found, RedemptionStatus.leg?_withdrawal,
          awaited]

theorem withdrawing_of_found {batch : RedemptionBatch}
    (found : b.redemption? id epoch = some batch) :
    b.withdrawing id epoch = if batch.status = .withdrawing then 1 else 0 := by
  rw [withdrawing, found]
  rfl

theorem awaited_of_withdrawing (waiting : 0 < b.withdrawing id epoch) :
    ∃ batch, b.redemption? id epoch = some batch ∧ batch.status = .withdrawing := by
  cases found : b.redemption? id epoch with
  | none => simp [withdrawing, found] at waiting
  | some batch =>
      refine ⟨batch, rfl, ?_⟩
      simp only [withdrawing_of_found found] at waiting
      split at waiting
      · assumption
      · cases waiting

end Books

theorem RemoteOp.withdraws_eq (id : ChainId) (epoch : Epoch) (op : RemoteOp) :
    op.withdraws id epoch = (op.serves ⟨id, epoch, .withdrawal⟩).toNat := by
  cases op with
  | withdrawUnbonded chain e amount =>
      by_cases own : id = chain ∧ epoch = e
      · obtain ⟨rfl, rfl⟩ := own
        simp [withdraws, serves, stage?]
      · have other : ¬(chain = id ∧ e = epoch) := fun same => own ⟨same.1.symm, same.2.symm⟩
        simp [withdraws, serves, stage?, own, other]
  | _ => simp [withdraws, serves, stage?]

theorem Move.withdraws (kept : b.WellKept) (orderly : b.Orderly) (move : Move s b cause r)
    (keeps : cause.KeepsWithdrawals b id) (epoch : Epoch) :
    RemoteOp.total (RemoteOp.withdraws id epoch) r.dispatched + b.withdrawing id epoch ≤
      (b.applyAll r.commands).withdrawing id epoch +
        cause.answered (RemoteOp.withdraws id epoch) := by
  have heard : cause.answered (RemoteOp.withdraws id epoch) =
      (cause.answers ⟨id, epoch, .withdrawal⟩).toNat := by
    cases cause with
    | heard op outcome => exact op.withdraws_eq id epoch
    | _ => rfl
  rw [RemoteOp.total_eq_countP _ (RemoteOp.withdraws_eq id epoch), b.withdrawing_eq,
    Books.withdrawing_eq, heard]
  refine move.awaits_flow kept orderly fun dropped => ?_
  obtain rfl := Cause.redemption_of_drops rfl dropped
  simpa [b.withdrawing_eq] using keeps epoch rfl

theorem Hub.resolve_withdrawn (b : Books) (s : Surroundings) (id : ChainId) (epoch : Epoch)
    (amount : Amount) (receipts : List Receipt) :
    ∃ response, resolve b.view s (.withdrawUnbonded id epoch amount) (.success receipts) =
      .ok response := by
  obtain ⟨response, answered⟩ := redemptionWithdrawn_answers b id epoch (.success receipts)
  have proceeds : proceed b.view s (.withdrawUnbonded id epoch amount) (.success receipts) =
      .ok response := answered
  exact ⟨response, by rw [resolve, proceeds]; rfl⟩

/-! ## What can be claimed -/

namespace Books

def claimable (b : Books) (id : ChainId) : Nat :=
  b.redemptionTotal id (fun _ => true) (RedemptionBatch.overMembers b.due)

section Claimable

variable {c : Books} {batch : RedemptionBatch}

theorem claimable_congr (redemptions : c.redemptions = b.redemptions)
    (same : ∀ batch ∈ b.redemptions id, ∀ key ∈ batch.members, c.due key = b.due key) :
    c.claimable id = b.claimable id := by
  simp only [claimable, redemptionTotal, redemptions]
  refine totalWhere_congr fun batch inBatches => ?_
  simp only [part, RedemptionBatch.overMembers_congr (same batch inBatches)]

theorem claimable_put (kept : b.WellKept) (record : RedemptionBatch)
    (stored : b.redemption? record.chain record.epoch = some batch ∨
      (b.redemption? record.chain record.epoch = none ∧
        batch = .empty record.chain record.epoch))
    (same : record.overMembers b.due = batch.overMembers b.due) :
    (b.putRedemption record).claimable id = b.claimable id :=
  kept.redemptionTotal_collect_same (fun _ => true) (RedemptionBatch.overMembers b.due) record
    stored rfl (by simp [part, same]) id

theorem claimable_change (kept : b.WellKept) (redemptions : c.redemptions = b.redemptions)
    (inBatches : batch ∈ b.redemptions id)
    (same : ∀ other ∈ b.redemptions id, other ≠ batch →
      ∀ key ∈ other.members, c.due key = b.due key) :
    c.claimable id + batch.overMembers b.due = b.claimable id + batch.overMembers c.due := by
  have change := totalWhere_change (fun _ => true) (kept.redemptionsInOrder id).nodup inBatches
    fun other inOther differ => RedemptionBatch.overMembers_congr (same other inOther differ)
  simpa [claimable, redemptionTotal, redemptions, part] using change

theorem WellKept.due_release (kept : b.WellKept) (members : List String) (key : String) :
    (b.release members).due key = if key ∈ members then b.claimed key else b.due key := by
  rw [due, kept.claim?_release]
  split
  · rw [claimed]
    cases b.claim? key <;> rfl
  · rfl

theorem Recorded.claimable_released (kept : b.WellKept) (recorded : b.Recorded)
    (found : b.redemption? batch.chain batch.epoch = some batch)
    (awaited : batch.status = .withdrawing) :
    ((b.release batch.members).putRedemption { batch with status := .done }).claimable id =
      b.claimable id + if batch.chain = id then batch.redeemable else 0 := by
  have inBatches := (mem_redemptions found).1
  have enrolled := recorded.enrolled inBatches
  have found' : (b.release batch.members).redemption? batch.chain batch.epoch = some batch := by
    simpa using found
  have done : ((b.release batch.members).putRedemption { batch with status := .done }).claimable
      id = (b.release batch.members).claimable id :=
    claimable_put (kept.release _) { batch with status := .done } (.inl found') rfl
  rw [done]
  by_cases own : batch.chain = id
  · subst own
    have change := claimable_change kept (b.redemptions_release batch.members) inBatches
      fun other inOther differ key listed => by
        rw [kept.due_release, if_neg]
        exact fun member =>
          differ (recorded.one_batch kept inBatches inOther member listed).2
    have before : batch.overMembers b.due = 0 := by
      refine totalWhere_eq_zero fun key listed => ?_
      obtain ⟨claim, held, pending⟩ :=
        recorded.member_waits found (by rw [awaited]; decide) listed
      simp [due, held, part, Claim.isClaimable, pending]
    have after : batch.overMembers (b.release batch.members).due = batch.redeemable := by
      rw [← enrolled.sums]
      exact RedemptionBatch.overMembers_congr fun key listed => by
        rw [kept.due_release, if_pos listed]
    rw [before, after] at change
    rw [if_pos rfl]
    exact change
  · rw [if_neg own, Nat.add_zero]
    refine claimable_congr (b.redemptions_release _) fun other inOther key listed => ?_
    rw [kept.due_release, if_neg]
    exact fun member => own (recorded.one_batch kept inBatches inOther member listed).1.symm

theorem Recorded.claimable_paid (kept : b.WellKept) (recorded : b.Recorded) {key : String}
    {claim : Claim} (found : b.claim? key = some claim) (claimable : claim.status = .claimable) :
    (b.putClaim { claim with status := .complete }).claimable id +
      (if claim.chain = id then claim.amount else 0) = b.claimable id := by
  obtain ⟨-, -, batch, stored, listed, -⟩ := recorded.joined found
  have inBatches := (mem_redemptions stored).1
  have name := kept.claimKey found
  have enrolled := recorded.enrolled inBatches
  have due_other (other : String) (differ : other ≠ claim.id) :
      (b.putClaim { claim with status := .complete }).due other = b.due other := by
    rw [due, claim?_putClaim, if_neg differ]
    rfl
  by_cases own : claim.chain = id
  · subst own
    have change := claimable_change (c := b.putClaim { claim with status := .complete }) kept rfl
      inBatches fun other inOther differ key listed' => by
        refine due_other key ?_
        rintro rfl
        exact differ (recorded.one_batch kept inBatches inOther listed listed').2
    have inner := totalWhere_change (fun _ => true) enrolled.once listed
      fun other _ differ => due_other other differ
    have before : part (fun _ => true) b.due claim.id = claim.amount := by
      rw [part, due, name, found]
      exact part_counted (by rw [Claim.isClaimable, claimable]; rfl)
    have after : part (fun _ => true) (b.putClaim { claim with status := .complete }).due
        claim.id = 0 := by
      simp [part, due, claim?_putClaim, Claim.isClaimable]
    rw [before, after] at inner
    rw [if_pos rfl]
    simp only [RedemptionBatch.overMembers] at change
    omega
  · rw [if_neg own, Nat.add_zero]
    refine claimable_congr rfl fun other inOther key' listed' => due_other key' ?_
    rintro rfl
    exact own (recorded.one_batch kept inBatches inOther listed listed').1.symm

theorem claimable_joining (kept : b.WellKept) {batch : RedemptionBatch} (new : Claim)
    (stored : b.redemption? batch.chain batch.epoch = some batch ∨
      (b.redemption? batch.chain batch.epoch = none ∧ batch = .empty batch.chain batch.epoch))
    (fresh : b.claim? new.id = none) (pending : new.status = .pending) (amount owed : Amount) :
    ((b.putRedemption (batch.joining amount owed new.id)).putClaim new).claimable id =
      b.claimable id := by
  have nothing : b.due new.id = 0 := by
    rw [due, fresh]
    rfl
  have joined : (b.putRedemption (batch.joining amount owed new.id)).claimable id =
      b.claimable id := by
    refine claimable_put kept (batch.joining amount owed new.id) stored ?_
    rw [RedemptionBatch.overMembers_joining, nothing, Nat.add_zero]
  rw [← joined]
  refine claimable_congr rfl fun _ _ key _ => ?_
  have same : (b.putRedemption (batch.joining amount owed new.id)).due key = b.due key := rfl
  by_cases own : key = new.id
  · rw [same, own, nothing, due, claim?_putClaim, if_pos rfl]
    simp [part, Claim.isClaimable, pending]
  · rw [due, claim?_putClaim, if_neg own]
    rfl

theorem awaited_of_withdrawal {epoch : Epoch} {amount : Amount} {outcome : Outcome}
    (waits : (Cause.heard (.withdrawUnbonded id epoch amount) outcome).answered
      (RemoteOp.withdraws id epoch) ≤ b.withdrawing id epoch) :
    ∃ batch, b.redemption? id epoch = some batch ∧ batch.status = .withdrawing := by
  refine b.awaited_of_withdrawing (Nat.lt_of_lt_of_le ?_ waits)
  simp [Cause.answered, RemoteOp.withdraws]

end Claimable

end Books

theorem Cause.withdrawn_of_idle {op : RemoteOp} {outcome : Outcome}
    (idle : ∀ epoch amount, op = .withdrawUnbonded id epoch amount → outcome.isSuccess = false) :
    (Cause.heard op outcome).withdrawn id = 0 := by
  cases op with
  | withdrawUnbonded chain e amount =>
      simp only [withdrawn, ite_eq_right_iff, and_imp]
      rintro rfl succeeded
      rw [idle e amount rfl] at succeeded
      cases succeeded
  | _ => rfl

theorem RedemptionEdge.withdrawn_eq_zero {batch : RedemptionBatch} {next : RedemptionStatus}
    {op : Option RemoteOp} (edge : RedemptionEdge s b id batch cause next op) (other : ChainId) :
    cause.withdrawn other = 0 := by
  cases edge with
  | stayed awaited failed => simp [Cause.withdrawn, failed]
  | _ => rfl

def Books.Vouches (b : Books) (id : ChainId) (denom : Denom) : Prop :=
  ∀ other chain, b.chain? other = some chain → (chain.voucherDenom = denom ↔ other = id)

/-- A move leaves to claim what was there and what was withdrawn, less what was paid. -/
theorem Move.claimable (kept : b.WellKept) (orderly : b.Orderly) (recorded : b.Recorded)
    (vouches : b.Vouches id denom)
    (waits : ∀ epoch, cause.answered (RemoteOp.withdraws id epoch) ≤ b.withdrawing id epoch)
    (founded : ∀ {op outcome}, cause = .heard op outcome → op.Founded b)
    (move : Move s b cause r) :
    (b.applyAll r.commands).claimable id + r.ordered (Command.sent denom) =
      b.claimable id + cause.withdrawn id := by
  have unchanged (none : r.Tokenless)
      (same : (b.applyAll r.commands).claimable id = b.claimable id)
      (nothing : cause.withdrawn id = 0) :
      (b.applyAll r.commands).claimable id + r.ordered (Command.sent denom) =
        b.claimable id + cause.withdrawn id := by
    rw [none.ordered Command.sent_eq_zero, same, nothing]
  cases move with
  | revised known edge plain =>
      refine unchanged (.chain _ _ _) ?_ (by cases edge <;> rfl)
      rw [Books.applyAll_chain]
      rfl
  | rewarded known edge told =>
      refine unchanged (.chain _ _ _) ?_ (by cases edge <;> rfl)
      rw [Books.applyAll_chain]
      rfl
  | depositMoved found edge plain =>
      refine unchanged (.deposit _ _ _) ?_ (by cases edge <;> rfl)
      rw [Books.applyAll_deposit]
      rfl
  | @redeemed id' chain e batch amount owed owner known current fresh positive priced
      worthwhile covered found burnedFits redeemableFits =>
      obtain ⟨rfl, rfl, -, stored⟩ := orderly.collecting_redemption kept current found
      exact unchanged (.of_all rfl)
        (b.claimable_joining kept ⟨claimId batch.chain batch.epoch owner, batch.chain, batch.epoch,
          owner, owed, chain.voucherDenom, .pending⟩ stored fresh rfl amount owed) rfl
  | @redemptionMoved id' batch cause next op notices found edge plain =>
      obtain rfl := kept.redemptionKey (Books.mem_redemptions found).1
      refine unchanged (.redemption _ _ _) ?_ (edge.withdrawn_eq_zero id)
      rw [Books.applyAll_redemption]
      exact Books.claimable_put kept { batch with status := next } (.inl found) rfl
  | @unbonded id' chain batch shares total completion receipts notices found awaited known summed
      due told =>
      obtain rfl := kept.redemptionKey (Books.mem_redemptions found).1
      exact Books.claimable_put kept
        { batch with completion := some completion, status := .waiting } (.inl found) rfl
  | @released id' batch amount receipts notices found awaited plain =>
      obtain rfl := kept.redemptionKey (Books.mem_redemptions found).1
      obtain rfl := (founded rfl).withdrawal found
      have tokenless : Response.Tokenless ⟨(batch.members.filterMap b.claim?).map (fun claim =>
          .claim { claim with status := .claimable }) ++
            [.redemption { batch with status := .done }], notices⟩ := .released _ _ _
      rw [tokenless.ordered Command.sent_eq_zero, Books.applyAll_released,
        recorded.claimable_released kept found awaited]
      simp [Cause.withdrawn, Outcome.isSuccess]
  | @paid id' chain e owner claim known found claimable covered =>
      obtain ⟨-, ⟨chain', known', inVoucher⟩, -⟩ := recorded.joined found
      have own : claim.denom = denom ↔ claim.chain = id := by
        rw [inVoucher]
        exact vouches _ _ known'
      simp only [Response.ordered_cons, Command.sent, own, Nat.zero_add]
      exact recorded.claimable_paid kept found claimable
  | @stale op outcome notices stale plain =>
      refine unchanged (.of_all rfl) rfl (Cause.withdrawn_of_idle fun epoch amount withdrawal => ?_)
      subst withdrawal
      obtain ⟨batch, found, awaited⟩ := Books.awaited_of_withdrawal (waits epoch)
      exact absurd awaited (stale batch found)
  | @unanswered op outcome failed =>
      refine unchanged (.of_all rfl) rfl (Cause.withdrawn_of_idle fun epoch amount withdrawal => ?_)
      subst withdrawal
      cases outcome with
      | success receipts =>
          obtain ⟨response, answered⟩ := Hub.resolve_withdrawn b s _ epoch amount receipts
          exact absurd answered (failed response)
      | failure => rfl
      | timeout => rfl
  | deposited known current found positive priced worthwhile fits => rfl
  | registered | requested | repriced | epochStarted | depositOpened | delegated | reinvested
  | quiet => exact unchanged (.of_all rfl) rfl rfl

end LiquidStaking
