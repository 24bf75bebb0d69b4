import LiquidStaking.Proofs.Moves

/-!
# Requests make moves

Every request that is granted, the start of an epoch apart, makes exactly one
move, and the response is the one the move gives.
-/

namespace LiquidStaking

variable {s : Surroundings} {b : Books} {id : ChainId} {r : Response}

@[simp] theorem Attempt.pure_eq_ok {ε α : Type} {value other : α} :
    (pure value : Attempt ε α) = .ok other ↔ value = other := by
  simp [pure, Except.pure]

@[simp] theorem Attempt.refuse_ne_ok {ε α : Type} {cause : ε} {value : α} :
    (Attempt.refuse cause : Attempt ε α) ≠ .ok value := by
  simp [Attempt.refuse]

theorem Notice.plain_nil : Notice.Plain [] := fun _ => rfl

theorem Notice.plain_deposit (batch : DepositBatch) : Notice.Plain [batch.notice] := fun _ => rfl

theorem Notice.plain_redemption (batch : RedemptionBatch) : Notice.Plain [batch.notice] :=
  fun _ => rfl

/-! ## Reading the books -/

namespace Books

theorem view_chain {chain : Chain} :
    b.view.chain id = .ok chain ↔ b.chain? id = some chain := by
  simp [View.chain, view, Attempt.bind_eq_ok, Attempt.promised_eq_ok, Attempt.orRefuse_eq_ok]

theorem view_epoch {kind : EpochKind} {epoch : Epoch} :
    b.view.epoch kind = .ok epoch ↔ b.epoch? kind = some epoch := by
  simp [View.epoch, view, Attempt.bind_eq_ok, Attempt.promised_eq_ok, Attempt.orRefuse_eq_ok]

theorem view_deposit {epoch : Epoch} {batch : DepositBatch} :
    b.view.deposit id epoch = .ok batch ↔ b.deposit? id epoch = some batch := by
  simp [View.deposit, view, Attempt.bind_eq_ok, Attempt.promised_eq_ok, Attempt.orRefuse_eq_ok]

theorem view_redemption {epoch : Epoch} {batch : RedemptionBatch} :
    b.view.redemption id epoch = .ok batch ↔ b.redemption? id epoch = some batch := by
  simp [View.redemption, view, Attempt.bind_eq_ok, Attempt.promised_eq_ok,
    Attempt.orRefuse_eq_ok]

/-- Only batches that are done are missing among the open ones, and they are not in flight. -/
theorem openDeposits_total {counts : DepositBatch → Bool} {figure : DepositBatch → Amount}
    (openOnly : ∀ batch, counts batch = true → batch.isOpen = true) :
    totalWhere counts figure (b.openDeposits id) = b.depositTotal id counts figure := by
  simp only [totalWhere, openDeposits, depositTotal, List.filter_filter]
  congr 2
  refine List.filter_congr fun batch _ => ?_
  cases h : counts batch
  · rfl
  · simp [openOnly batch h]

theorem openRedemptions_total {counts : RedemptionBatch → Bool}
    {figure : RedemptionBatch → Amount}
    (openOnly : ∀ batch, counts batch = true → batch.isOpen = true) :
    totalWhere counts figure (b.openRedemptions id) = b.redemptionTotal id counts figure := by
  simp only [totalWhere, openRedemptions, redemptionTotal, List.filter_filter]
  congr 2
  refine List.filter_congr fun batch _ => ?_
  cases h : counts batch
  · rfl
  · simp [openOnly batch h]

end Books

theorem DepositBatch.isOpen_of_awaitsEpoch {batch : DepositBatch}
    (due : batch.awaitsEpoch = true) : batch.isOpen = true := by
  revert due
  simp only [awaitsEpoch, isOpen]
  cases batch.status <;> decide

theorem DepositBatch.isOpen_of_inFlight {batch : DepositBatch}
    (flying : batch.inFlight = true) : batch.isOpen = true := by
  revert flying
  simp only [inFlight, isOpen]
  cases batch.status <;> decide

theorem RedemptionBatch.isOpen_of_holdsStake {batch : RedemptionBatch}
    (holding : batch.holdsStake = true) : batch.isOpen = true := by
  revert holding
  simp only [holdsStake, isOpen]
  cases batch.status <;> decide

namespace Hub

theorem availableStake?_view {chain : Chain} :
    availableStake? b.view chain =
      (Width.narrow? 128 (b.promised chain.id)).map (chain.staked - ·) := by
  have sums : Width.total (((b.openRedemptions chain.id).filter fun batch =>
      batch.status.holdsStake).map RedemptionBatch.redeemable) = b.promised chain.id :=
    b.openRedemptions_total fun _ => RedemptionBatch.isOpen_of_holdsStake
  simp only [availableStake?, Books.view, Width.sum?, Option.bind_eq_bind, Option.bind_some, sums]
  cases Width.narrow? 128 _ <;> rfl

theorem escrowed?_view {chain : Chain} :
    escrowed? b.view chain = some (Width.clamp 128 (b.escrow chain.id)) := by
  have sums : Width.total (((b.openDeposits chain.id).filter fun batch =>
      batch.status.awaitsEpoch).map DepositBatch.net) = b.escrow chain.id :=
    b.openDeposits_total fun _ => DepositBatch.isOpen_of_awaitsEpoch
  simp [escrowed?, Books.view, sums]

/-! ## One move each -/

theorem register_move {registration : Registration}
    (granted : register b.view registration = .ok r) :
    Move s b (.asked (.register registration)) r := by
  unfold register at granted
  split at granted
  · exact absurd granted Attempt.refuse_ne_ok
  · rename_i sound
    simp only [Books.view, Attempt.bind_eq_ok, Attempt.promised_eq_ok, Attempt.require_eq_ok,
      Option.some.injEq, Attempt.pure_eq_ok] at granted
    obtain ⟨known, rfl, -, fresh, rfl⟩ := granted
    exact .registered sound fresh

theorem accountOpened_move (kept : b.WellKept) {account : ControlAccount} {address : Address}
    (granted : accountOpened b.view id account address = .ok r) :
    Move s b (.asked (.accountOpened id account address)) r := by
  simp only [accountOpened, Attempt.bind_eq_ok, Books.view_chain, Attempt.pure_eq_ok] at granted
  obtain ⟨chain, known, rfl⟩ := granted
  have key := kept.chainKey known
  have move := Move.revised (s := s) known (.opened account address) Notice.plain_nil
  have sameId : (chain.setAddress account (some address)).id = id := by
    cases account <;> exact key
  have sameFlag : (chain.setAddress account (some address)).withdrawAddressSet =
      chain.withdrawAddressSet := by
    cases account <;> rfl
  rw [sameId, sameFlag]
  split at move
  · rename_i ready
    simpa [ready] using move
  · rename_i notReady
    rw [if_neg notReady]
    exact move

theorem updateValidators_move {next : List (Address × Nat)}
    (granted : updateValidators b.view id next = .ok r) :
    Move s b (.asked (.updateValidators id next)) r := by
  simp only [updateValidators, Attempt.bind_eq_ok, Books.view_chain] at granted
  obtain ⟨chain, known, granted⟩ := granted
  split at granted
  · exact absurd granted Attempt.refuse_ne_ok
  · rename_i sound
    simp only [Books.view, Attempt.bind_eq_ok, Attempt.promised_eq_ok, Attempt.require_eq_ok,
      Option.some.injEq] at granted
    obtain ⟨deposits, rfl, redemptions, rfl, -, ⟨noDelegation, noUndelegation⟩, granted⟩ := granted
    split at granted
    · exact absurd granted Attempt.refuse_ne_ok
    · rename_i noneAbandoned
      rw [Attempt.pure_eq_ok] at granted
      subst granted
      refine .revised known (.restaffed sound ?_ ?_ noneAbandoned) Notice.plain_nil
      · intro batch member delegating
        have listed : batch ∈ b.openDeposits id := by
          simp [Books.openDeposits, member, DepositBatch.isOpen, delegating]
        have := List.all_eq_true.mp noDelegation batch listed
        simp [delegating] at this
      · intro batch member starting
        have listed : batch ∈ b.openRedemptions id := by
          simp [Books.openRedemptions, member, RedemptionBatch.isOpen, starting]
        have := List.all_eq_true.mp noUndelegation batch listed
        simp [starting] at this

theorem deposit_move {amount : Amount} {depositor : Address}
    (granted : deposit b.view id amount depositor = .ok r) :
    Move s b (.asked (.deposit id amount depositor)) r := by
  simp only [deposit, Attempt.bind_eq_ok, Books.view_chain, Books.view_epoch, Books.view_deposit,
    Attempt.require_eq_ok, Attempt.orRefuse_eq_ok, Attempt.pure_eq_ok] at granted
  obtain ⟨chain, known, epoch, current, batch, found, -, positive, minted, priced, -, worthwhile,
    total, added, rfl⟩ := granted
  obtain ⟨rfl, fits⟩ := Width.narrow?_eq_some.mp added
  obtain ⟨-, rfl⟩ := Books.mem_deposits found
  exact .deposited known current found positive priced worthwhile fits

theorem redeem_move (kept : b.WellKept) {amount : Amount} {owner : Address}
    (granted : redeem b.view id amount owner = .ok r) :
    Move s b (.asked (.redeem id amount owner)) r := by
  simp only [redeem, Attempt.bind_eq_ok, Books.view_chain, Books.view_epoch, availableStake?_view,
    Attempt.promised_eq_ok, Attempt.require_eq_ok, Attempt.orRefuse_eq_ok, Option.map_eq_some_iff,
    Attempt.pure_eq_ok] at granted
  obtain ⟨chain, known, epoch, current, -, positive, earlier, unclaimed, -, rfl, owed, priced, -,
    worthwhile, available, ⟨promised, sum, rfl⟩, -, covered, found, batch, burned, more,
    redeemable, owedMore, rfl⟩ := granted
  obtain rfl := kept.chainKey known
  obtain ⟨rfl, -⟩ := Width.narrow?_eq_some.mp sum
  obtain ⟨rfl, burnedFits⟩ := Width.narrow?_eq_some.mp more
  obtain ⟨rfl, redeemableFits⟩ := Width.narrow?_eq_some.mp owedMore
  simp only [Books.view, Option.some.injEq] at unclaimed batch
  subst batch
  exact .redeemed known current unclaimed positive priced worthwhile (by lia) rfl burnedFits
    redeemableFits

theorem payClaim_move (kept : b.WellKept) {owner : Address} {epoch : Epoch}
    (granted : payClaim b.view s owner epoch id = .ok r) :
    Move s b (.asked (.payClaim owner epoch id)) r := by
  simp only [payClaim, Attempt.bind_eq_ok, Books.view_chain, escrowed?_view,
    Attempt.promised_eq_ok, Attempt.require_eq_ok, Attempt.orRefuse_eq_ok, Option.some.injEq,
    Attempt.pure_eq_ok] at granted
  obtain ⟨chain, known, found, read, claim, claimable, -, rfl, -, covered, rfl⟩ := granted
  obtain rfl := kept.chainKey known
  simp only [Books.view, Option.some.injEq] at read
  subst read
  simp only [Option.filter_eq_some_iff, beq_iff_eq] at claimable
  exact .paid known claimable.1 claimable.2 covered

theorem redriveDeposit_move (kept : b.WellKept) {epoch : Epoch}
    (granted : redriveDeposit b.view id epoch = .ok r) :
    Move s b (.asked (.redriveDeposit id epoch)) r := by
  simp only [redriveDeposit, Attempt.bind_eq_ok, Books.view_chain, Books.view_deposit,
    Attempt.promised_eq_ok, Attempt.require_eq_ok, delegation?, Option.bind_eq_bind,
    Option.bind_eq_some_iff, Attempt.pure_eq_ok] at granted
  obtain ⟨chain, known, batch, found, -, failed, -, isOpen, op, ⟨shares, shared, divided⟩, rfl⟩ :=
    granted
  cases divided
  obtain rfl := kept.chainKey known
  obtain ⟨-, rfl⟩ := Books.mem_deposits found
  exact .depositMoved found (.redriven failed known isOpen shared) (Notice.plain_deposit _)

theorem resetDeposit_move {epoch : Epoch} (granted : resetDeposit b.view id epoch = .ok r) :
    Move s b (.asked (.resetDeposit id epoch)) r := by
  simp only [resetDeposit, Attempt.bind_eq_ok, Books.view_chain, Books.view_deposit] at granted
  obtain ⟨chain, known, batch, found, granted⟩ := granted
  obtain ⟨-, rfl⟩ := Books.mem_deposits found
  split at granted
  · rename_i awaited
    rw [Attempt.pure_eq_ok] at granted
    subst granted
    exact .depositMoved found (.transferReset awaited) (Notice.plain_deposit _)
  · rename_i awaited
    rw [Attempt.pure_eq_ok] at granted
    subst granted
    exact .depositMoved found (.delegationReset awaited) (Notice.plain_deposit _)
  · exact absurd granted Attempt.refuse_ne_ok

theorem resetRedemption_move {epoch : Epoch}
    (granted : resetRedemption b.view id epoch = .ok r) :
    Move s b (.asked (.resetRedemption id epoch)) r := by
  simp only [resetRedemption, Attempt.bind_eq_ok, Books.view_chain,
    Books.view_redemption] at granted
  obtain ⟨chain, known, batch, found, granted⟩ := granted
  obtain ⟨-, rfl⟩ := Books.mem_redemptions found
  split at granted
  · rename_i awaited
    rw [Attempt.pure_eq_ok] at granted
    subst granted
    exact .redemptionMoved found (.startReset awaited) (Notice.plain_redemption _)
  · rename_i awaited
    rw [Attempt.pure_eq_ok] at granted
    subst granted
    exact .redemptionMoved found (.withdrawalReset awaited) (Notice.plain_redemption _)
  · exact absurd granted Attempt.refuse_ne_ok

end Hub

end LiquidStaking
