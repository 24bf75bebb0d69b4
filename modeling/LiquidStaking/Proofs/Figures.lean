import LiquidStaking.Proofs.Changes
import LiquidStaking.Proofs.Dilution

/-!
# The figures of past batches are final

Only the batch of the current epoch collects, so once there is a later epoch the
figures of a batch stay what they are, however the run goes on.  That is why an
operation that was started for a batch still names the figures of that batch when
there is word of it.
-/

namespace LiquidStaking

variable {b : Books} {id : ChainId} {h : HubState}

/-! ## Epochs of batches -/

namespace Books.Orderly

theorem deposit_epoch (orderly : b.Orderly) {batch : DepositBatch}
    (member : batch ∈ b.deposits id) :
    ∃ current, b.epoch? .delegation = some current ∧ batch.epoch ≤ current := by
  rcases orderly.depositDue member with ⟨current, started, before⟩ | ⟨current, -⟩
  · exact ⟨current, started, Nat.le_of_lt before⟩
  · exact ⟨batch.epoch, current, Nat.le_refl _⟩

theorem redemption_epoch (orderly : b.Orderly) {batch : RedemptionBatch}
    (member : batch ∈ b.redemptions id) :
    ∃ current, b.epoch? .undelegation = some current ∧ batch.epoch ≤ current := by
  rcases orderly.redemptionDue member with ⟨current, started, before⟩ | ⟨current, -⟩
  · exact ⟨current, started, Nat.le_of_lt before⟩
  · exact ⟨batch.epoch, current, Nat.le_refl _⟩

end Books.Orderly

/-! ## Operations and figures -/

/-- The operation is one of a registered chain, and an operation for a batch is
about all there is to move for it, which is not nothing. -/
def RemoteOp.Matches (b : Books) (op : RemoteOp) : Prop :=
  (∃ chain, b.chain? op.chain = some chain) ∧
    match op with
    | .transferDeposit id epoch amount => ∃ batch, b.deposit? id epoch = some batch ∧
        amount = batch.net ∧ 0 < batch.net
    | .delegate id epoch shares => ∃ batch, b.deposit? id epoch = some batch ∧
        Allocation.total? shares = some batch.amount ∧ 0 < batch.amount
    | .undelegate id epoch shares => ∃ batch, b.redemption? id epoch = some batch ∧
        Allocation.total? shares = some batch.redeemable ∧ 0 < batch.redeemable
    | .withdrawUnbonded id epoch amount => ∃ batch, b.redemption? id epoch = some batch ∧
        amount = batch.redeemable
    | _ => True

theorem RemoteOp.Founded.matches (orderly : b.Orderly) {op : RemoteOp} (founded : op.Founded b)
    (laden : op.Laden) : op.Matches b := by
  obtain ⟨known, founded⟩ := founded
  refine ⟨known, ?_⟩
  cases op with
  | transferDeposit id epoch amount =>
      obtain ⟨-, batch, found, rfl⟩ := founded
      exact ⟨batch, found, rfl, Nat.pos_of_ne_zero laden⟩
  | delegate id epoch shares =>
      obtain ⟨-, batch, found, sums⟩ := founded
      have fits := (orderly.depositFits (Books.mem_deposits found).1).2
      exact ⟨batch, found, Allocation.total?_eq_some.mpr ⟨sums, sums ▸ fits⟩,
        sums ▸ Nat.pos_of_ne_zero laden⟩
  | undelegate id epoch shares =>
      obtain ⟨-, batch, found, sums⟩ := founded
      have fits := orderly.redemptionFits (Books.mem_redemptions found).1
      exact ⟨batch, found, Allocation.total?_eq_some.mpr ⟨sums, sums ▸ fits⟩,
        sums ▸ Nat.pos_of_ne_zero laden⟩
  | withdrawUnbonded id epoch amount =>
      obtain ⟨-, batch, found, rfl⟩ := founded
      exact ⟨batch, found, rfl⟩
  | withdrawRewards | transferRewards | setWithdrawAddress => trivial

/-! ## Runs -/

theorem HubState.after_follows (steps later : List Step) :
    (after (steps ++ later)).books.Follows (after steps).books :=
  after_onward (P := fun h => h.books.Follows (after steps).books) steps later
    (fun before step follows => by
      rw [after_append]
      exact (step_follows (after_sound before) step).trans follows)
    (.refl _)

/-- No batch is of an epoch to come, the figures of the batches of past epochs are
final, and what is outstanding for a batch is about its figures. -/
theorem HubState.past_batches_final (steps later : List Step) (id : ChainId) :
    (∀ batch ∈ (after steps).books.deposits id,
      batch.reinvested ≤ batch.amount ∧
      ∃ current, (after steps).books.epoch? .delegation = some current ∧
        batch.epoch ≤ current ∧ (batch.epoch < current →
          ∃ batch', (after (steps ++ later)).books.deposit? id batch.epoch = some batch' ∧
            batch'.amount = batch.amount ∧ batch'.reinvested = batch.reinvested)) ∧
    (∀ batch ∈ (after steps).books.redemptions id,
      ∃ current, (after steps).books.epoch? .undelegation = some current ∧
        batch.epoch ≤ current ∧ (batch.epoch < current →
          ∃ batch', (after (steps ++ later)).books.redemption? id batch.epoch = some batch' ∧
            batch'.burned = batch.burned ∧ batch'.redeemable = batch.redeemable ∧
            batch'.members = batch.members)) ∧
    ∀ op ∈ (after steps).outstanding, op.Matches (after steps).books := by
  obtain ⟨⟨kept, orderly, founded⟩, -, laden⟩ := after_laden steps
  have follows := after_follows steps later
  refine ⟨fun batch member => ?_, fun batch member => ?_, fun op started => ?_⟩
  · obtain ⟨current, started, reached⟩ := orderly.deposit_epoch member
    refine ⟨(orderly.depositFits member).1, current, started, reached, fun before => ?_⟩
    exact follows.deposit ⟨current, started, before⟩ (kept.deposit?_mem member)
  · obtain ⟨current, started, reached⟩ := orderly.redemption_epoch member
    refine ⟨current, started, reached, fun before => ?_⟩
    exact follows.redemption ⟨current, started, before⟩ (kept.redemption?_mem member)
  · exact (founded op started).matches orderly (laden op started)

end LiquidStaking
