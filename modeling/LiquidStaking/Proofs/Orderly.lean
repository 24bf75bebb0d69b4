import LiquidStaking.Proofs.Allocation
import LiquidStaking.Proofs.Runs

/-!
# Orderly books

Batches belong to registered chains, and only the batch of the current epoch
collects: a batch of a past epoch may change its status, never its figures.  So
an operation that is started for a past batch names the figures the batch still
has when the acknowledgement arrives, however late that is.
-/

namespace LiquidStaking

variable {s : Surroundings} {b c : Books} {id : ChainId} {cause : Cause} {r : Response}

/-! ## What a move writes -/

namespace Books

@[simp] theorem apply_claim (record : Claim) : b.apply (.claim record) = b.putClaim record := rfl

def release (b : Books) (members : List String) : Books :=
  b.applyAll ((members.filterMap b.claim?).map fun claim =>
    .claim { claim with status := .claimable })

section Release

variable (b) (claims : List Claim) (members : List String)

private theorem applyAll_claims :
    (b.applyAll (claims.map .claim)).chain? = b.chain? ∧
      (b.applyAll (claims.map .claim)).epoch? = b.epoch? ∧
      (b.applyAll (claims.map .claim)).deposits = b.deposits ∧
      (b.applyAll (claims.map .claim)).redemptions = b.redemptions := by
  induction claims generalizing b with
  | nil => exact ⟨rfl, rfl, rfl, rfl⟩
  | cons claim claims ih => exact ih (b.putClaim claim)

private theorem release_eq : b.release members = b.applyAll
    (((members.filterMap b.claim?).map fun claim : Claim =>
      { claim with status := .claimable }).map .claim) := by
  rw [List.map_map]
  rfl

@[simp] theorem chain?_release : (b.release members).chain? = b.chain? := by
  rw [release_eq]
  exact (b.applyAll_claims _).1

@[simp] theorem epoch?_release : (b.release members).epoch? = b.epoch? := by
  rw [release_eq]
  exact (b.applyAll_claims _).2.1

@[simp] theorem deposits_release : (b.release members).deposits = b.deposits := by
  rw [release_eq]
  exact (b.applyAll_claims _).2.2.1

@[simp] theorem redemptions_release : (b.release members).redemptions = b.redemptions := by
  rw [release_eq]
  exact (b.applyAll_claims _).2.2.2

@[simp] theorem redemption?_release : (b.release members).redemption? = b.redemption? := by
  funext id epoch
  simp [redemption?]

end Release

theorem WellKept.release (kept : b.WellKept) (members : List String) :
    (b.release members).WellKept := kept.applyAll _

theorem applyAll_released (batch : RedemptionBatch) :
    b.applyAll ((batch.members.filterMap b.claim?).map (fun claim =>
        .claim { claim with status := .claimable }) ++
      [.redemption { batch with status := .done }]) =
        (b.release batch.members).putRedemption { batch with status := .done } := by
  rw [applyAll_append]
  rfl

theorem mem_putDeposit {record batch : DepositBatch}
    (member : batch ∈ (b.putDeposit record).deposits id) :
    (batch = record ∧ id = record.chain) ∨ batch ∈ b.deposits id := by
  rw [deposits_putDeposit] at member
  split at member
  · rename_i same
    rcases mem_putByEpoch member with rfl | old
    · exact .inl ⟨rfl, same⟩
    · exact .inr (same ▸ old)
  · exact .inr member

theorem mem_putRedemption {record batch : RedemptionBatch}
    (member : batch ∈ (b.putRedemption record).redemptions id) :
    (batch = record ∧ id = record.chain) ∨ batch ∈ b.redemptions id := by
  rw [redemptions_putRedemption] at member
  split at member
  · rename_i same
    rcases mem_putByEpoch member with rfl | old
    · exact .inl ⟨rfl, same⟩
    · exact .inr (same ▸ old)
  · exact .inr member

/-! ## Orderly books -/

def Past (b : Books) (kind : EpochKind) (epoch : Epoch) : Prop :=
  ∃ current, b.epoch? kind = some current ∧ epoch < current

structure Orderly (b : Books) : Prop where
  depositChain : ∀ {id batch}, batch ∈ b.deposits id → ∃ chain, b.chain? id = some chain
  depositDue : ∀ {id batch}, batch ∈ b.deposits id → b.Past .delegation batch.epoch ∨
    (b.epoch? .delegation = some batch.epoch ∧ batch.status = .pending)
  depositFits : ∀ {id batch}, batch ∈ b.deposits id →
    batch.reinvested ≤ batch.amount ∧ batch.amount < Width.limit 128
  redemptionChain : ∀ {id batch}, batch ∈ b.redemptions id → ∃ chain, b.chain? id = some chain
  redemptionDue : ∀ {id batch}, batch ∈ b.redemptions id → b.Past .undelegation batch.epoch ∨
    (b.epoch? .undelegation = some batch.epoch ∧ batch.status = .pending)
  redemptionFits : ∀ {id batch}, batch ∈ b.redemptions id →
    batch.redeemable < Width.limit 128
  staffed : ∀ {id chain}, b.chain? id = some chain → chain.validators ≠ []
  stakedFits : ∀ {id chain}, b.chain? id = some chain → chain.staked < Width.limit 128

namespace Orderly

theorem empty : Orderly .empty where
  depositChain := nofun
  depositDue := nofun
  depositFits := nofun
  redemptionChain := nofun
  redemptionDue := nofun
  redemptionFits := nofun
  staffed := nofun
  stakedFits := nofun

private theorem known_putChain {chain record : Chain} (known : b.chain? id = some chain) :
    ∃ chain, (b.putChain record).chain? id = some chain := by
  rw [chain?_putChain]
  split
  · exact ⟨_, rfl⟩
  · exact ⟨chain, known⟩

theorem putChain (orderly : b.Orderly) (record : Chain) (staffed : record.validators ≠ [])
    (fits : record.staked < Width.limit 128) : (b.putChain record).Orderly where
  depositChain member := by
    obtain ⟨chain, known⟩ := orderly.depositChain member
    exact known_putChain known
  depositDue := orderly.depositDue
  depositFits := orderly.depositFits
  redemptionChain member := by
    obtain ⟨chain, known⟩ := orderly.redemptionChain member
    exact known_putChain known
  redemptionDue := orderly.redemptionDue
  redemptionFits := orderly.redemptionFits
  staffed {id chain} known := by
    rw [chain?_putChain] at known
    split at known
    · cases known
      exact staffed
    · exact orderly.staffed known
  stakedFits {id chain} known := by
    rw [chain?_putChain] at known
    split at known
    · cases known
      exact fits
    · exact orderly.stakedFits known

theorem putDeposit (orderly : b.Orderly) (record : DepositBatch) {chain : Chain}
    (known : b.chain? record.chain = some chain)
    (due : b.Past .delegation record.epoch ∨
      (b.epoch? .delegation = some record.epoch ∧ record.status = .pending))
    (fits : record.reinvested ≤ record.amount ∧ record.amount < Width.limit 128) :
    (b.putDeposit record).Orderly where
  depositChain member := by
    rcases mem_putDeposit member with ⟨-, rfl⟩ | old
    · exact ⟨chain, known⟩
    · exact orderly.depositChain old
  depositDue member := by
    rcases mem_putDeposit member with ⟨rfl, -⟩ | old
    · exact due
    · exact orderly.depositDue old
  depositFits member := by
    rcases mem_putDeposit member with ⟨rfl, -⟩ | old
    · exact fits
    · exact orderly.depositFits old
  redemptionChain := orderly.redemptionChain
  redemptionDue := orderly.redemptionDue
  redemptionFits := orderly.redemptionFits
  staffed := orderly.staffed
  stakedFits := orderly.stakedFits

theorem putRedemption (orderly : b.Orderly) (record : RedemptionBatch) {chain : Chain}
    (known : b.chain? record.chain = some chain)
    (due : b.Past .undelegation record.epoch ∨
      (b.epoch? .undelegation = some record.epoch ∧ record.status = .pending))
    (fits : record.redeemable < Width.limit 128) : (b.putRedemption record).Orderly where
  depositChain := orderly.depositChain
  depositDue := orderly.depositDue
  depositFits := orderly.depositFits
  redemptionChain member := by
    rcases mem_putRedemption member with ⟨-, rfl⟩ | old
    · exact ⟨chain, known⟩
    · exact orderly.redemptionChain old
  redemptionDue member := by
    rcases mem_putRedemption member with ⟨rfl, -⟩ | old
    · exact due
    · exact orderly.redemptionDue old
  redemptionFits member := by
    rcases mem_putRedemption member with ⟨rfl, -⟩ | old
    · exact fits
    · exact orderly.redemptionFits old
  staffed := orderly.staffed
  stakedFits := orderly.stakedFits

theorem congr (orderly : b.Orderly) (chains : c.chain? = b.chain?)
    (epochs : c.epoch? = b.epoch?) (deposits : c.deposits = b.deposits)
    (redemptions : c.redemptions = b.redemptions) : c.Orderly := by
  constructor <;> simp only [Past, chains, epochs, deposits, redemptions]
  · exact orderly.depositChain
  · exact orderly.depositDue
  · exact orderly.depositFits
  · exact orderly.redemptionChain
  · exact orderly.redemptionDue
  · exact orderly.redemptionFits
  · exact orderly.staffed
  · exact orderly.stakedFits

theorem startEpoch (orderly : b.Orderly) {kind : EpochKind} {epoch : Epoch}
    (later : ∀ current, b.epoch? kind = some current → current < epoch) :
    (b.apply (.epoch kind epoch)).Orderly where
  depositChain := orderly.depositChain
  depositDue {id batch} member := by
    simp only [Past, Books.apply, setAt]
    rcases orderly.depositDue member with ⟨current, started, before⟩ | ⟨current, pending⟩
    · by_cases same : EpochKind.delegation = kind
      · have := later current (same ▸ started)
        refine .inl ⟨epoch, by simp [same], by lia⟩
      · exact .inl ⟨current, by simp [same, started], before⟩
    · by_cases same : EpochKind.delegation = kind
      · exact .inl ⟨epoch, by simp [same], later _ (same ▸ current)⟩
      · exact .inr ⟨by simp [same, current], pending⟩
  depositFits := orderly.depositFits
  redemptionChain := orderly.redemptionChain
  redemptionDue {id batch} member := by
    simp only [Past, Books.apply, setAt]
    rcases orderly.redemptionDue member with ⟨current, started, before⟩ | ⟨current, pending⟩
    · by_cases same : EpochKind.undelegation = kind
      · have := later current (same ▸ started)
        refine .inl ⟨epoch, by simp [same], by lia⟩
      · exact .inl ⟨current, by simp [same, started], before⟩
    · by_cases same : EpochKind.undelegation = kind
      · exact .inl ⟨epoch, by simp [same], later _ (same ▸ current)⟩
      · exact .inr ⟨by simp [same, current], pending⟩
  redemptionFits := orderly.redemptionFits
  staffed := orderly.staffed
  stakedFits := orderly.stakedFits

end Orderly

end Books

/-! ## Chains keep what they are -/

theorem Allocation.book_ne_nil {change : Amount → Amount → Amount} {shares : Allocation}
    {validators : List Validator} (staffed : validators ≠ []) :
    book change shares validators ≠ [] := by
  induction shares generalizing validators with
  | nil => exact staffed
  | cons share shares ih =>
      refine ih ?_
      cases validators with
      | nil => exact absurd rfl staffed
      | cons validator validators =>
          simp only [book.bookShare]
          split <;> exact List.cons_ne_nil _ _

theorem staffed_of_sound {next : List (Address × Nat)} (sound : validatorSetDefect? next = none) :
    next ≠ [] := by
  rintro rfl
  cases sound

theorem Registration.sound_validators {r : Registration} (sound : r.defect? = none) :
    validatorSetDefect? r.validators = none := by
  simp only [defect?, Option.or_eq_none_iff] at sound
  obtain ⟨-, sound⟩ := sound
  split at sound
  · cases sound
  · split at sound
    · cases sound
    · exact sound

theorem Registration.staffed {r : Registration} (sound : r.defect? = none) :
    r.validators ≠ [] := staffed_of_sound (sound_validators sound)

structure Chain.Revises (chain' chain : Chain) : Prop where
  id : chain'.id = chain.id
  staked : chain'.staked = chain.staked
  rate : chain'.rate = chain.rate
  voucherDenom : chain'.voucherDenom = chain.voucherDenom
  derivativeDenom : chain'.derivativeDenom = chain.derivativeDenom
  staffed : chain.validators ≠ [] → chain'.validators ≠ []

theorem ChainEdge.revises {chain chain' : Chain} {ops : List RemoteOp}
    (edge : ChainEdge b id chain cause chain' ops) : chain'.Revises chain := by
  cases edge with
  | opened account address => cases account <;> exact ⟨rfl, rfl, rfl, rfl, rfl, fun h => h⟩
  | restaffed sound noDelegation noUndelegation noneAbandoned =>
      refine ⟨rfl, rfl, rfl, rfl, rfl, fun _ => ?_⟩
      simpa [Hub.retained] using staffed_of_sound sound
  | withdrawAddressSet receipts => exact ⟨rfl, rfl, rfl, rfl, rfl, fun h => h⟩
  | closed account => cases account <;> exact ⟨rfl, rfl, rfl, rfl, rfl, fun h => h⟩

theorem ChainEdge.pendingRewards {chain chain' : Chain} {ops : List RemoteOp}
    (edge : ChainEdge b id chain cause chain' ops) :
    chain'.pendingRewards = chain.pendingRewards := by
  cases edge with
  | opened account address => cases account <;> rfl
  | restaffed sound noDelegation noUndelegation noneAbandoned => rfl
  | withdrawAddressSet receipts => rfl
  | closed account => cases account <;> rfl

namespace Chain

variable (chain : Chain) (receipts : List Receipt) (shares : Allocation) (total : Amount)

@[simp] theorem id_delegating : (chain.delegating receipts shares total).id = chain.id :=
  Hub.holdRewards_id chain receipts

@[simp] theorem id_undelegating : (chain.undelegating receipts shares total).id = chain.id :=
  Hub.holdRewards_id chain receipts

@[simp] theorem rate_delegating : (chain.delegating receipts shares total).rate = chain.rate :=
  Hub.holdRewards_rate chain receipts

@[simp] theorem rate_undelegating :
    (chain.undelegating receipts shares total).rate = chain.rate :=
  Hub.holdRewards_rate chain receipts

@[simp] theorem voucherDenom_delegating :
    (chain.delegating receipts shares total).voucherDenom = chain.voucherDenom :=
  Hub.holdRewards_voucherDenom chain receipts

@[simp] theorem voucherDenom_undelegating :
    (chain.undelegating receipts shares total).voucherDenom = chain.voucherDenom :=
  Hub.holdRewards_voucherDenom chain receipts

@[simp] theorem derivativeDenom_delegating :
    (chain.delegating receipts shares total).derivativeDenom = chain.derivativeDenom :=
  Hub.holdRewards_derivativeDenom chain receipts

@[simp] theorem derivativeDenom_undelegating :
    (chain.undelegating receipts shares total).derivativeDenom = chain.derivativeDenom :=
  Hub.holdRewards_derivativeDenom chain receipts

@[simp] theorem staked_delegating : (chain.delegating receipts shares total).staked =
    Width.addSat 128 chain.staked total := rfl

@[simp] theorem staked_undelegating : (chain.undelegating receipts shares total).staked =
    chain.staked - total := rfl

end Chain

theorem RewardEdge.revises {chain chain' : Chain} {ops : List RemoteOp} {reported : Amount}
    (edge : RewardEdge b id chain cause chain' ops reported) : chain'.Revises chain := by
  cases edge <;> exact ⟨rfl, rfl, rfl, rfl, rfl, fun h => h⟩

/-! ## The batch that collects -/

namespace Books.Orderly

variable {epoch : Epoch}

/-- Reinvested rewards join the batch of the current epoch, or open it. -/
theorem collecting_deposit (kept : b.WellKept) (orderly : b.Orderly) {batch : DepositBatch}
    (current : b.epoch? .delegation = some epoch)
    (found : batch = (b.deposit? id epoch).getD (.empty id epoch)) :
    batch.chain = id ∧ batch.epoch = epoch ∧ batch.status = .pending ∧
      batch.reinvested ≤ batch.amount ∧
      (b.deposit? id epoch = some batch ∨
        (b.deposit? id epoch = none ∧ batch = .empty id epoch)) := by
  cases read : b.deposit? id epoch with
  | none =>
      simp only [read, Option.getD_none] at found
      subst found
      exact ⟨rfl, rfl, rfl, Nat.le_refl _, .inr ⟨rfl, rfl⟩⟩
  | some stored =>
      simp only [read, Option.getD_some] at found
      subst found
      obtain ⟨member, rfl⟩ := mem_deposits read
      refine ⟨kept.depositKey member, rfl, ?_, (orderly.depositFits member).1, .inl rfl⟩
      rcases orderly.depositDue member with ⟨latest, started, before⟩ | ⟨-, pending⟩
      · rw [current] at started
        cases started
        lia
      · exact pending

theorem collecting_redemption (kept : b.WellKept) (orderly : b.Orderly)
    {batch : RedemptionBatch} (current : b.epoch? .undelegation = some epoch)
    (found : batch = (b.redemption? id epoch).getD (.empty id epoch)) :
    batch.chain = id ∧ batch.epoch = epoch ∧ batch.status = .pending ∧
      (b.redemption? id epoch = some batch ∨
        (b.redemption? id epoch = none ∧ batch = .empty id epoch)) := by
  cases read : b.redemption? id epoch with
  | none =>
      simp only [read, Option.getD_none] at found
      subst found
      exact ⟨rfl, rfl, rfl, .inr ⟨rfl, rfl⟩⟩
  | some stored =>
      simp only [read, Option.getD_some] at found
      subst found
      obtain ⟨member, rfl⟩ := mem_redemptions read
      refine ⟨kept.redemptionKey member, rfl, ?_, .inl rfl⟩
      rcases orderly.redemptionDue member with ⟨latest, started, before⟩ | ⟨-, pending⟩
      · rw [current] at started
        cases started
        lia
      · exact pending

end Books.Orderly

namespace Books.WellKept

variable {epoch : Epoch}

/-- A batch that has yet to be opened counts for nothing. -/
theorem depositTotal_collect (kept : b.WellKept) (counts : DepositBatch → Bool)
    (figure : DepositBatch → Amount) (record : DepositBatch) {batch : DepositBatch}
    (stored : b.deposit? record.chain record.epoch = some batch ∨
      (b.deposit? record.chain record.epoch = none ∧ batch = .empty record.chain record.epoch))
    (nothing : figure (.empty record.chain record.epoch) = 0) :
    (b.putDeposit record).depositTotal record.chain counts figure + part counts figure batch =
      b.depositTotal record.chain counts figure + part counts figure record := by
  rcases stored with found | ⟨absent, rfl⟩
  · exact kept.depositTotal_put counts figure record found
  · rw [kept.depositTotal_put_new counts figure record absent]
    simp [part, nothing]

theorem depositTotal_grown_le (kept : b.WellKept) (counts : DepositBatch → Bool)
    (figure : DepositBatch → Amount) (record : DepositBatch) {batch : DepositBatch}
    (stored : b.deposit? record.chain record.epoch = some batch ∨
      (b.deposit? record.chain record.epoch = none ∧ batch = .empty record.chain record.epoch))
    (nothing : figure (.empty record.chain record.epoch) = 0) (more : Nat)
    (grows : part counts figure record ≤ part counts figure batch + more) (id : ChainId) :
    (b.putDeposit record).depositTotal id counts figure ≤
      b.depositTotal id counts figure + if record.chain = id then more else 0 := by
  have change := kept.depositTotal_collect counts figure record stored nothing
  by_cases own : record.chain = id
  · subst own
    rw [if_pos rfl]
    omega
  · rw [if_neg own]
    exact Nat.le_of_eq (depositTotal_put_other counts figure record (Ne.symm own))

theorem depositTotal_grown (kept : b.WellKept) (counts : DepositBatch → Bool)
    (figure : DepositBatch → Amount) (record : DepositBatch) {batch : DepositBatch}
    (stored : b.deposit? record.chain record.epoch = some batch ∨
      (b.deposit? record.chain record.epoch = none ∧ batch = .empty record.chain record.epoch))
    (nothing : figure (.empty record.chain record.epoch) = 0) (more : Nat) (id : ChainId)
    (grows : record.chain = id → part counts figure record = part counts figure batch + more) :
    (b.putDeposit record).depositTotal id counts figure =
      b.depositTotal id counts figure + if record.chain = id then more else 0 := by
  have change := kept.depositTotal_collect counts figure record stored nothing
  by_cases own : record.chain = id
  · subst own
    rw [grows rfl] at change
    rw [if_pos rfl]
    omega
  · rw [if_neg own]
    exact depositTotal_put_other counts figure record (Ne.symm own)

theorem depositTotal_collect_same (kept : b.WellKept) (counts : DepositBatch → Bool)
    (figure : DepositBatch → Amount) (record : DepositBatch) {batch : DepositBatch}
    (stored : b.deposit? record.chain record.epoch = some batch ∨
      (b.deposit? record.chain record.epoch = none ∧ batch = .empty record.chain record.epoch))
    (nothing : figure (.empty record.chain record.epoch) = 0)
    (same : part counts figure record = part counts figure batch) (id : ChainId) :
    (b.putDeposit record).depositTotal id counts figure = b.depositTotal id counts figure := by
  by_cases own : id = record.chain
  · have change := kept.depositTotal_collect counts figure record stored nothing
    subst own
    omega
  · exact depositTotal_put_other counts figure record own

theorem redemptionTotal_collect (kept : b.WellKept) (counts : RedemptionBatch → Bool)
    (figure : RedemptionBatch → Amount) (record : RedemptionBatch) {batch : RedemptionBatch}
    (stored : b.redemption? record.chain record.epoch = some batch ∨
      (b.redemption? record.chain record.epoch = none ∧
        batch = .empty record.chain record.epoch))
    (nothing : figure (.empty record.chain record.epoch) = 0) :
    (b.putRedemption record).redemptionTotal record.chain counts figure +
        part counts figure batch =
      b.redemptionTotal record.chain counts figure + part counts figure record := by
  rcases stored with found | ⟨absent, rfl⟩
  · exact kept.redemptionTotal_put counts figure record found
  · rw [kept.redemptionTotal_put_new counts figure record absent]
    simp [part, nothing]

theorem redemptionTotal_grown (kept : b.WellKept) (counts : RedemptionBatch → Bool)
    (figure : RedemptionBatch → Amount) (record : RedemptionBatch) {batch : RedemptionBatch}
    (stored : b.redemption? record.chain record.epoch = some batch ∨
      (b.redemption? record.chain record.epoch = none ∧
        batch = .empty record.chain record.epoch))
    (nothing : figure (.empty record.chain record.epoch) = 0) (more : Nat)
    (grows : part counts figure record = part counts figure batch + more) (id : ChainId) :
    (b.putRedemption record).redemptionTotal id counts figure =
      b.redemptionTotal id counts figure + if record.chain = id then more else 0 := by
  have change := kept.redemptionTotal_collect counts figure record stored nothing
  by_cases own : record.chain = id
  · subst own
    rw [if_pos rfl]
    omega
  · rw [if_neg own]
    exact redemptionTotal_put_other counts figure record (Ne.symm own)

theorem redemptionTotal_collect_same (kept : b.WellKept) (counts : RedemptionBatch → Bool)
    (figure : RedemptionBatch → Amount) (record : RedemptionBatch) {batch : RedemptionBatch}
    (stored : b.redemption? record.chain record.epoch = some batch ∨
      (b.redemption? record.chain record.epoch = none ∧
        batch = .empty record.chain record.epoch))
    (nothing : figure (.empty record.chain record.epoch) = 0)
    (same : part counts figure record = part counts figure batch) (id : ChainId) :
    (b.putRedemption record).redemptionTotal id counts figure =
      b.redemptionTotal id counts figure := by
  by_cases own : id = record.chain
  · have change := kept.redemptionTotal_collect counts figure record stored nothing
    subst own
    omega
  · exact redemptionTotal_put_other counts figure record own

end Books.WellKept

namespace Books.Orderly

theorem no_deposits (orderly : b.Orderly) (fresh : b.chain? id = none) : b.deposits id = [] := by
  refine List.eq_nil_iff_forall_not_mem.mpr fun batch member => ?_
  obtain ⟨chain, known⟩ := orderly.depositChain member
  cases fresh.symm.trans known

theorem no_redemptions (orderly : b.Orderly) (fresh : b.chain? id = none) :
    b.redemptions id = [] := by
  refine List.eq_nil_iff_forall_not_mem.mpr fun batch member => ?_
  obtain ⟨chain, known⟩ := orderly.redemptionChain member
  cases fresh.symm.trans known

theorem past_deposit (orderly : b.Orderly) {batch : DepositBatch}
    (member : batch ∈ b.deposits id) (moved : batch.status ≠ .pending) :
    b.Past .delegation batch.epoch := by
  rcases orderly.depositDue member with past | ⟨-, pending⟩
  · exact past
  · exact absurd pending moved

theorem past_redemption (orderly : b.Orderly) {batch : RedemptionBatch}
    (member : batch ∈ b.redemptions id) (moved : batch.status ≠ .pending) :
    b.Past .undelegation batch.epoch := by
  rcases orderly.redemptionDue member with past | ⟨-, pending⟩
  · exact past
  · exact absurd pending moved

end Books.Orderly

/-! ## Edges start from past batches -/

section Edges

variable {batch : DepositBatch} {next : DepositStatus} {op : Option RemoteOp}
  {redemption : RedemptionBatch} {next' : RedemptionStatus}

theorem DepositEdge.past (orderly : b.Orderly) (member : batch ∈ b.deposits id)
    (edge : DepositEdge b id batch cause next op) : b.Past .delegation batch.epoch := by
  have moved : batch.status ≠ .pending → b.Past .delegation batch.epoch :=
    orderly.past_deposit member
  cases edge with
  | emptied current earlier due nothing => exact ⟨_, current, earlier⟩
  | sent current earlier due known isOpen held => exact ⟨_, current, earlier⟩
  | divided current earlier due known isOpen something gone shared =>
      exact ⟨_, current, earlier⟩
  | redriven failed known isOpen shared => exact moved (by simp [failed])
  | transferReset awaited => exact moved (by simp [awaited])
  | delegationReset awaited => exact moved (by simp [awaited])
  | returned awaited failed => exact moved (by simp [awaited])
  | stranded awaited known isClosed => exact moved (by simp [awaited])
  | arrived awaited known isOpen shared => exact moved (by simp [awaited])
  | refused awaited failed => exact moved (by simp [awaited])

theorem RedemptionEdge.past (orderly : b.Orderly) (member : redemption ∈ b.redemptions id)
    (edge : RedemptionEdge s b id redemption cause next' op) :
    b.Past .undelegation redemption.epoch := by
  have moved : redemption.status ≠ .pending → b.Past .undelegation redemption.epoch :=
    orderly.past_redemption member
  cases edge with
  | started current earlier due known isOpen shared => exact ⟨_, current, earlier⟩
  | withdrawn current earlier due known isOpen => exact ⟨_, current, earlier⟩
  | startReset awaited => exact moved (by simp [awaited])
  | withdrawalReset awaited => exact moved (by simp [awaited])
  | refused awaited failed => exact moved (by simp [awaited])
  | stayed awaited failed => exact moved (by simp [awaited])

end Edges

/-! ## Every move keeps the books orderly -/

namespace Books.Orderly

theorem restatus_deposit (kept : b.WellKept) (orderly : b.Orderly) {batch : DepositBatch}
    (member : batch ∈ b.deposits id) (past : b.Past .delegation batch.epoch)
    (next : DepositStatus) : (b.putDeposit { batch with status := next }).Orderly := by
  obtain ⟨chain, known⟩ := orderly.depositChain member
  obtain rfl := kept.depositKey member
  have fits := orderly.depositFits member
  exact orderly.putDeposit _ known (.inl past) fits

theorem restatus_redemption (kept : b.WellKept) (orderly : b.Orderly)
    {batch : RedemptionBatch} (member : batch ∈ b.redemptions id)
    (past : b.Past .undelegation batch.epoch) (completion : Option Seconds)
    (next : RedemptionStatus) :
    (b.putRedemption { batch with completion, status := next }).Orderly := by
  obtain ⟨chain, known⟩ := orderly.redemptionChain member
  obtain rfl := kept.redemptionKey member
  have fits := orderly.redemptionFits member
  exact orderly.putRedemption _ known (.inl past) fits

end Books.Orderly

theorem Move.orderly (kept : b.WellKept) (orderly : b.Orderly) (move : Move s b cause r)
    (registered : ∀ {op outcome}, cause = .heard op outcome →
      ∃ chain, b.chain? op.chain = some chain) :
    (b.applyAll r.commands).Orderly := by
  cases move with
  | @registered r sound fresh =>
      refine orderly.putChain r.profile ?_ (Width.limit_pos 128)
      simpa [Registration.profile] using Registration.staffed sound
  | revised known edge plain =>
      rw [Books.applyAll_chain]
      exact orderly.putChain _ (edge.revises.staffed (orderly.staffed known))
        (edge.revises.staked ▸ orderly.stakedFits known)
  | rewarded known edge told =>
      rw [Books.applyAll_chain]
      exact orderly.putChain _ (edge.revises.staffed (orderly.staffed known))
        (edge.revises.staked ▸ orderly.stakedFits known)
  | requested known kind => exact orderly
  | repriced known backed priced =>
      have staffed := orderly.staffed known
      have fits := orderly.stakedFits known
      exact orderly.putChain _ staffed fits
  | epochStarted later => exact orderly.startEpoch later
  | @deposited id chain batch amount minted depositor known current found positive priced
      worthwhile fits =>
      have member := (Books.mem_deposits found).1
      obtain rfl := kept.depositKey member
      have old := orderly.depositFits member
      have due := orderly.depositDue member
      exact orderly.putDeposit _ known due ⟨by simp only; lia, fits⟩
  | depositOpened known current absent =>
      exact orderly.putDeposit _ known (.inr ⟨current, rfl⟩) ⟨Nat.le_refl _, Width.limit_pos 128⟩
  | depositMoved found edge plain =>
      have member := (Books.mem_deposits found).1
      rw [Books.applyAll_deposit]
      exact orderly.restatus_deposit kept member (edge.past orderly member) _
  | @delegated id chain batch shares total receipts notices found awaited known summed told =>
      have member := (Books.mem_deposits found).1
      have past := orderly.past_deposit member (by simp [awaited])
      have staked := orderly.putChain (chain.delegating receipts shares total)
        (Allocation.book_ne_nil (orderly.staffed known)) (Width.clamp_lt _ _)
      exact staked.restatus_deposit (kept.putChain _) member past .done
  | @reinvested id epoch batch amount receipts notices current found plain =>
      obtain ⟨chain, known⟩ := registered rfl
      obtain ⟨rfl, rfl, pending, fits, -⟩ := orderly.collecting_deposit kept current found
      refine orderly.putDeposit _ known (.inr ⟨current, pending⟩) ⟨?_, Width.clamp_lt _ _⟩
      simp only [DepositBatch.reinvesting, Width.addSat, Width.clamp]
      lia
  | @redeemed id chain epoch batch amount owed owner known current fresh positive priced
      worthwhile covered found burnedFits redeemableFits =>
      obtain ⟨rfl, rfl, pending, -⟩ := orderly.collecting_redemption kept current found
      have grown := orderly.putRedemption
        (batch.joining amount owed (claimId batch.chain batch.epoch owner)) known
        (.inr ⟨current, pending⟩) redeemableFits
      exact grown.congr rfl rfl rfl rfl
  | redemptionMoved found edge plain =>
      have member := (Books.mem_redemptions found).1
      rw [Books.applyAll_redemption]
      exact orderly.restatus_redemption kept member (edge.past orderly member) _ _
  | @unbonded id chain batch shares total completion receipts notices found awaited known summed
      due told =>
      have member := (Books.mem_redemptions found).1
      have past := orderly.past_redemption member (by simp [awaited])
      have fits := orderly.stakedFits known
      have unstaked := orderly.putChain (chain.undelegating receipts shares total)
        (Allocation.book_ne_nil (orderly.staffed known)) (Nat.lt_of_le_of_lt (Nat.sub_le _ _) fits)
      exact unstaked.restatus_redemption (kept.putChain _) member past (some completion) .waiting
  | @released id batch amount receipts notices found awaited plain =>
      have member := (Books.mem_redemptions found).1
      have past := orderly.past_redemption member (by simp [awaited])
      rw [Books.applyAll_released]
      have moved := orderly.restatus_redemption kept member past batch.completion .done
      refine moved.congr (by simp) (by simp) (by simp) (funext fun id => ?_)
      simp [Books.redemptions_putRedemption]
  | paid known found claimable covered => exact orderly.congr rfl rfl rfl rfl
  | quiet plain => exact orderly
  | stale stale plain => exact orderly
  | unanswered failed => exact orderly

/-! ## What is never taken back -/

/-- Chains stay registered under their denoms, epochs never go back, and the
figures of a past batch are final. -/
structure Books.Follows (c b : Books) : Prop where
  chain : ∀ {id chain}, b.chain? id = some chain → ∃ chain', c.chain? id = some chain' ∧
    chain'.voucherDenom = chain.voucherDenom ∧ chain'.derivativeDenom = chain.derivativeDenom
  past : ∀ {kind epoch}, b.Past kind epoch → c.Past kind epoch
  deposit : ∀ {id epoch batch}, b.Past .delegation epoch → b.deposit? id epoch = some batch →
    ∃ batch', c.deposit? id epoch = some batch' ∧ batch'.amount = batch.amount ∧
      batch'.reinvested = batch.reinvested
  redemption : ∀ {id epoch batch}, b.Past .undelegation epoch →
    b.redemption? id epoch = some batch →
    ∃ batch', c.redemption? id epoch = some batch' ∧ batch'.burned = batch.burned ∧
      batch'.redeemable = batch.redeemable ∧ batch'.members = batch.members

namespace Books.Follows

theorem of_same (chains : c.chain? = b.chain?) (epochs : c.epoch? = b.epoch?)
    (deposits : c.deposits = b.deposits) (redemptions : c.redemptions = b.redemptions) :
    c.Follows b where
  chain {id chain} known := ⟨chain, by rw [chains, known], rfl, rfl⟩
  past := by
    simp only [Past, epochs]
    exact fun past => past
  deposit {id epoch batch} _ found := ⟨batch, by simpa [deposit?, deposits] using found, rfl, rfl⟩
  redemption {id epoch batch} _ found :=
    ⟨batch, by simpa [redemption?, redemptions] using found, rfl, rfl, rfl⟩

theorem refl (b : Books) : b.Follows b := of_same rfl rfl rfl rfl

theorem trans {d : Books} (second : d.Follows c) (first : c.Follows b) : d.Follows b where
  chain known := by
    obtain ⟨chain', known', voucher', derivative'⟩ := first.chain known
    obtain ⟨chain'', known'', voucher'', derivative''⟩ := second.chain known'
    exact ⟨chain'', known'', voucher''.trans voucher', derivative''.trans derivative'⟩
  past isPast := second.past (first.past isPast)
  deposit isPast found := by
    obtain ⟨batch', found', amount', reinvested'⟩ := first.deposit isPast found
    obtain ⟨batch'', found'', amount'', reinvested''⟩ := second.deposit (first.past isPast) found'
    exact ⟨batch'', found'', amount''.trans amount', reinvested''.trans reinvested'⟩
  redemption isPast found := by
    obtain ⟨batch', found', burned', redeemable', members'⟩ := first.redemption isPast found
    obtain ⟨batch'', found'', burned'', redeemable'', members''⟩ :=
      second.redemption (first.past isPast) found'
    exact ⟨batch'', found'', burned''.trans burned', redeemable''.trans redeemable',
      members''.trans members'⟩

theorem putChain {record : Chain}
    (same : ∀ chain, b.chain? record.id = some chain →
      record.voucherDenom = chain.voucherDenom ∧ record.derivativeDenom = chain.derivativeDenom) :
    (b.putChain record).Follows b where
  chain {id chain} known := by
    rw [chain?_putChain]
    split
    · rename_i equal
      obtain ⟨voucher, derivative⟩ := same chain (equal ▸ known)
      exact ⟨record, rfl, voucher, derivative⟩
    · exact ⟨chain, known, rfl, rfl⟩
  past isPast := isPast
  deposit {id epoch batch} _ found := ⟨batch, found, rfl, rfl⟩
  redemption {id epoch batch} _ found := ⟨batch, found, rfl, rfl, rfl⟩

theorem putDeposit {record : DepositBatch}
    (same : ∀ batch, b.Past .delegation record.epoch →
      b.deposit? record.chain record.epoch = some batch →
      record.amount = batch.amount ∧ record.reinvested = batch.reinvested) :
    (b.putDeposit record).Follows b where
  chain {id chain} known := ⟨chain, known, rfl, rfl⟩
  past isPast := isPast
  deposit {id epoch batch} isPast found := by
    rw [deposit?_putDeposit]
    split
    · rename_i equal
      obtain ⟨rfl, rfl⟩ := equal
      obtain ⟨amount, reinvested⟩ := same batch isPast found
      exact ⟨record, rfl, amount, reinvested⟩
    · exact ⟨batch, found, rfl, rfl⟩
  redemption {id epoch batch} _ found := ⟨batch, found, rfl, rfl, rfl⟩

theorem putRedemption {record : RedemptionBatch}
    (same : ∀ batch, b.Past .undelegation record.epoch →
      b.redemption? record.chain record.epoch = some batch →
      record.burned = batch.burned ∧ record.redeemable = batch.redeemable ∧
        record.members = batch.members) :
    (b.putRedemption record).Follows b where
  chain {id chain} known := ⟨chain, known, rfl, rfl⟩
  past isPast := isPast
  deposit {id epoch batch} _ found := ⟨batch, found, rfl, rfl⟩
  redemption {id epoch batch} isPast found := by
    rw [redemption?_putRedemption]
    split
    · rename_i equal
      obtain ⟨rfl, rfl⟩ := equal
      obtain ⟨burned, redeemable, members⟩ := same batch isPast found
      exact ⟨record, rfl, burned, redeemable, members⟩
    · exact ⟨batch, found, rfl, rfl, rfl⟩

theorem restatus_deposit (kept : b.WellKept) {batch : DepositBatch}
    (found : b.deposit? id batch.epoch = some batch) (next : DepositStatus) :
    (b.putDeposit { batch with status := next }).Follows b := by
  have key := kept.depositKey (mem_deposits found).1
  refine putDeposit fun other _ stored => ?_
  rw [key] at stored
  cases found.symm.trans stored
  exact ⟨rfl, rfl⟩

theorem restatus_redemption (kept : b.WellKept) {batch : RedemptionBatch}
    (found : b.redemption? id batch.epoch = some batch) (completion : Option Seconds)
    (next : RedemptionStatus) :
    (b.putRedemption { batch with completion, status := next }).Follows b := by
  have key := kept.redemptionKey (mem_redemptions found).1
  refine putRedemption fun other _ stored => ?_
  rw [key] at stored
  cases found.symm.trans stored
  exact ⟨rfl, rfl, rfl⟩

theorem startEpoch {kind : EpochKind} {epoch : Epoch}
    (later : ∀ current, b.epoch? kind = some current → current < epoch) :
    (b.apply (.epoch kind epoch)).Follows b where
  chain {id chain} known := ⟨chain, known, rfl, rfl⟩
  past {kind' e} isPast := by
    obtain ⟨current, started, before⟩ := isPast
    simp only [Past, Books.apply, setAt]
    by_cases same : kind' = kind
    · have := later current (same ▸ started)
      exact ⟨epoch, by simp [same], by lia⟩
    · exact ⟨current, by simp [same, started], before⟩
  deposit {id epoch batch} _ found := ⟨batch, found, rfl, rfl⟩
  redemption {id epoch batch} _ found := ⟨batch, found, rfl, rfl, rfl⟩

end Books.Follows

theorem Move.follows (kept : b.WellKept) (orderly : b.Orderly) (move : Move s b cause r) :
    (b.applyAll r.commands).Follows b := by
  have current_not_past {kind : EpochKind} {epoch : Epoch} (current : b.epoch? kind = some epoch)
      (isPast : b.Past kind epoch) : False := by
    obtain ⟨latest, started, before⟩ := isPast
    rw [current] at started
    cases started
    lia
  have sameChain {id : ChainId} {chain record : Chain} (known : b.chain? id = some chain)
      (key : record.id = chain.id) (voucher : record.voucherDenom = chain.voucherDenom)
      (derivative : record.derivativeDenom = chain.derivativeDenom) :
      (b.putChain record).Follows b := by
    refine .putChain fun other found => ?_
    rw [key, kept.chainKey known] at found
    cases known.symm.trans found
    exact ⟨voucher, derivative⟩
  cases move with
  | @registered r sound fresh =>
      refine .putChain fun chain known => ?_
      have fresh : b.chain? r.profile.id = none := fresh
      rw [fresh] at known
      cases known
  | revised known edge plain =>
      rw [Books.applyAll_chain]
      exact sameChain known edge.revises.id edge.revises.voucherDenom edge.revises.derivativeDenom
  | rewarded known edge told =>
      rw [Books.applyAll_chain]
      exact sameChain known edge.revises.id edge.revises.voucherDenom edge.revises.derivativeDenom
  | requested known kind => exact .refl b
  | repriced known backed priced => exact sameChain known rfl rfl rfl
  | epochStarted later => exact .startEpoch later
  | deposited known current found positive priced worthwhile fits =>
      exact .putDeposit fun _ isPast _ => (current_not_past current isPast).elim
  | depositOpened known current absent =>
      exact .putDeposit fun _ isPast _ => (current_not_past current isPast).elim
  | depositMoved found edge plain =>
      rw [Books.applyAll_deposit]
      exact .restatus_deposit kept found _
  | delegated found awaited known summed told =>
      exact .trans (.restatus_deposit (kept.putChain _) found .done)
        (sameChain known (by simp) (by simp) (by simp))
  | reinvested current found plain =>
      obtain ⟨rfl, rfl, -⟩ := orderly.collecting_deposit kept current found
      exact .putDeposit fun _ isPast _ => (current_not_past current isPast).elim
  | @redeemed id chain epoch batch amount owed owner known current fresh positive priced
      worthwhile covered found burnedFits redeemableFits =>
      obtain ⟨rfl, rfl, -⟩ := orderly.collecting_redemption kept current found
      have grown : (b.putRedemption
          (batch.joining amount owed (claimId batch.chain batch.epoch owner))).Follows b :=
        .putRedemption fun _ isPast _ => (current_not_past current isPast).elim
      exact .trans (c := b.putRedemption _) (.of_same rfl rfl rfl rfl) grown
  | redemptionMoved found edge plain =>
      rw [Books.applyAll_redemption]
      exact .restatus_redemption kept found _ _
  | unbonded found awaited known summed due told =>
      exact .trans (.restatus_redemption (kept.putChain _) found _ .waiting)
        (sameChain known (by simp) (by simp) (by simp))
  | @released id batch amount receipts notices found awaited plain =>
      have found' : (b.release batch.members).redemption? id batch.epoch = some batch := by
        simpa using found
      rw [Books.applyAll_released]
      exact .trans (.restatus_redemption (kept.applyAll _) found' _ .done)
        (.of_same (b.chain?_release _) (b.epoch?_release _) (b.deposits_release _)
          (b.redemptions_release _))
  | paid known found claimable covered => exact .of_same rfl rfl rfl rfl
  | quiet plain => exact .refl b
  | stale stale plain => exact .refl b
  | unanswered failed => exact .refl b

/-! ## Outstanding operations -/

/-- The operation is one of a registered chain, and an operation of a batch names
the figures of a past batch. -/
def RemoteOp.Founded (b : Books) (op : RemoteOp) : Prop :=
  (∃ chain, b.chain? op.chain = some chain) ∧
    match op with
    | .transferDeposit id epoch amount => b.Past .delegation epoch ∧
        ∃ batch, b.deposit? id epoch = some batch ∧ amount = batch.net
    | .delegate id epoch shares => b.Past .delegation epoch ∧
        ∃ batch, b.deposit? id epoch = some batch ∧ Allocation.sum shares = batch.amount
    | .undelegate id epoch shares => b.Past .undelegation epoch ∧
        ∃ batch, b.redemption? id epoch = some batch ∧ Allocation.sum shares = batch.redeemable
    | .withdrawUnbonded id epoch amount => b.Past .undelegation epoch ∧
        ∃ batch, b.redemption? id epoch = some batch ∧ amount = batch.redeemable
    | _ => True

theorem RemoteOp.Founded.mono {op : RemoteOp} (founded : op.Founded b) (follows : c.Follows b) :
    op.Founded c := by
  obtain ⟨⟨chain, known⟩, founded⟩ := founded
  obtain ⟨chain', known', -⟩ := follows.chain known
  refine ⟨⟨chain', known'⟩, ?_⟩
  cases op with
  | transferDeposit id epoch amount =>
      obtain ⟨past, batch, found, rfl⟩ := founded
      obtain ⟨batch', found', amount', reinvested'⟩ := follows.deposit past found
      exact ⟨follows.past past, batch', found', by simp [DepositBatch.net, amount', reinvested']⟩
  | delegate id epoch shares =>
      obtain ⟨past, batch, found, sums⟩ := founded
      obtain ⟨batch', found', amount', -⟩ := follows.deposit past found
      exact ⟨follows.past past, batch', found', sums.trans amount'.symm⟩
  | undelegate id epoch shares =>
      obtain ⟨past, batch, found, sums⟩ := founded
      obtain ⟨batch', found', -, redeemable', -⟩ := follows.redemption past found
      exact ⟨follows.past past, batch', found', sums.trans redeemable'.symm⟩
  | withdrawUnbonded id epoch amount =>
      obtain ⟨past, batch, found, rfl⟩ := founded
      obtain ⟨batch', found', -, redeemable', -⟩ := follows.redemption past found
      exact ⟨follows.past past, batch', found', redeemable'.symm⟩
  | withdrawRewards id validators => trivial
  | transferRewards id amount => trivial
  | setWithdrawAddress id => trivial

namespace RemoteOp.Founded

variable {id : ChainId} {shares : Allocation} {amount : Amount}

theorem transfer {batch : DepositBatch}
    (founded : (RemoteOp.transferDeposit id batch.epoch amount).Founded b)
    (found : b.deposit? id batch.epoch = some batch) : amount = batch.net := by
  obtain ⟨-, -, batch', found', moved⟩ := founded
  cases found.symm.trans found'
  exact moved

theorem delegation {batch : DepositBatch}
    (founded : (RemoteOp.delegate id batch.epoch shares).Founded b)
    (found : b.deposit? id batch.epoch = some batch) : Allocation.sum shares = batch.amount := by
  obtain ⟨-, -, batch', found', sums⟩ := founded
  cases found.symm.trans found'
  exact sums

theorem undelegation {batch : RedemptionBatch}
    (founded : (RemoteOp.undelegate id batch.epoch shares).Founded b)
    (found : b.redemption? id batch.epoch = some batch) :
    Allocation.sum shares = batch.redeemable := by
  obtain ⟨-, -, batch', found', sums⟩ := founded
  cases found.symm.trans found'
  exact sums

theorem withdrawal {batch : RedemptionBatch}
    (founded : (RemoteOp.withdrawUnbonded id batch.epoch amount).Founded b)
    (found : b.redemption? id batch.epoch = some batch) : amount = batch.redeemable := by
  obtain ⟨-, -, batch', found', moved⟩ := founded
  cases found.symm.trans found'
  exact moved

end RemoteOp.Founded

@[simp] theorem Response.dispatched_chain (chain : Chain) (ops : List RemoteOp)
    (notices : List Notice) :
    Response.dispatched ⟨.chain chain :: ops.map .dispatch, notices⟩ = ops := by
  simp only [dispatched, List.filterMap_cons, List.filterMap_map]
  exact List.filterMap_some

@[simp] theorem Response.dispatched_deposit (batch : DepositBatch) (op : Option RemoteOp)
    (notices : List Notice) :
    Response.dispatched ⟨.deposit batch :: (op.map Command.dispatch).toList, notices⟩ =
      op.toList := by
  cases op <;> rfl

@[simp] theorem Response.dispatched_redemption (batch : RedemptionBatch)
    (op : Option RemoteOp) (notices : List Notice) :
    Response.dispatched ⟨.redemption batch :: (op.map Command.dispatch).toList, notices⟩ =
      op.toList := by
  cases op <;> rfl

@[simp] theorem Response.dispatched_released (claims : List Claim) (batch : RedemptionBatch)
    (notices : List Notice) :
    Response.dispatched ⟨claims.map (fun claim => .claim { claim with status := .claimable }) ++
      [.redemption batch], notices⟩ = [] := by
  simp [dispatched, List.filterMap_map]

/-- What a move starts is for no batch, or it is started with the change of a batch. -/
theorem Move.started (move : Move s b cause r) {op : RemoteOp} (started : op ∈ r.dispatched) :
    (op.stage? = none ∧ ∃ chain, b.chain? op.chain = some chain) ∨
      (∃ id batch next, b.deposit? id batch.epoch = some batch ∧
        DepositEdge b id batch cause next (some op) ∧
        b.applyAll r.commands = b.putDeposit { batch with status := next }) ∨
      ∃ id batch next, b.redemption? id batch.epoch = some batch ∧
        RedemptionEdge s b id batch cause next (some op) ∧
        b.applyAll r.commands = b.putRedemption { batch with status := next } := by
  cases move with
  | revised known edge plain =>
      rw [Response.dispatched_chain] at started
      cases edge with
      | opened account address =>
          split at started
          · obtain rfl := List.mem_singleton.mp started
            exact .inl ⟨rfl, _, known⟩
          · cases started
      | restaffed | withdrawAddressSet | closed => cases started
  | rewarded known edge told =>
      rw [Response.dispatched_chain] at started
      cases edge with
      | collected held =>
          obtain rfl := List.mem_singleton.mp started
          exact .inl ⟨rfl, _, known⟩
      | forwarded bothOpen held =>
          obtain rfl := List.mem_singleton.mp started
          exact .inl ⟨rfl, _, known⟩
      | kept | bounced => cases started
  | requested known kind =>
      obtain rfl := List.mem_singleton.mp started
      rcases kind with rfl | ⟨validators, rfl⟩
      · exact .inl ⟨rfl, _, known⟩
      · exact .inl ⟨rfl, _, known⟩
  | depositMoved found edge plain =>
      rw [Response.dispatched_deposit] at started
      obtain rfl := Option.mem_toList.mp started
      exact .inr (.inl ⟨_, _, _, found, edge, b.applyAll_deposit _ _⟩)
  | redemptionMoved found edge plain =>
      rw [Response.dispatched_redemption] at started
      obtain rfl := Option.mem_toList.mp started
      exact .inr (.inr ⟨_, _, _, found, edge, b.applyAll_redemption _ _⟩)
  | released found awaited plain => simp at started
  | registered | repriced | epochStarted | deposited | depositOpened | delegated | reinvested
  | redeemed | unbonded | paid | quiet | stale | unanswered => cases started

theorem Move.founded (kept : b.WellKept) (orderly : b.Orderly) (move : Move s b cause r)
    {op : RemoteOp} (started : op ∈ r.dispatched) : op.Founded (b.applyAll r.commands) := by
  rcases move.started started with ⟨free, chain, known⟩ |
    ⟨id, batch, next, found, edge, written⟩ | ⟨id, batch, next, found, edge, written⟩
  · -- An operation without figures only needs its chain.
    obtain ⟨chain', known', -⟩ := (move.follows kept orderly).chain known
    refine ⟨⟨chain', known'⟩, ?_⟩
    cases op with
    | transferDeposit | delegate | undelegate | withdrawUnbonded => cases free
    | withdrawRewards | transferRewards | setWithdrawAddress => trivial
  · have member := (Books.mem_deposits found).1
    have past := edge.past orderly member
    have ⟨chain, known⟩ := orderly.depositChain member
    have staffed := orderly.staffed known
    have key := kept.depositKey member
    rw [written]
    have stored : (b.putDeposit { batch with status := next }).deposit? id batch.epoch =
        some { batch with status := next } := by
      simp [Books.deposit?_putDeposit, key]
    cases edge with
    | sent current earlier due known isOpen held =>
        exact ⟨⟨_, known⟩, past, _, stored, rfl⟩
    | divided current earlier due known' isOpen something gone shared =>
        cases known.symm.trans known'
        exact ⟨⟨_, known⟩, past, _, stored, (Allocation.byWeight?_sum staffed shared).1⟩
    | redriven failed known' isOpen shared =>
        cases known.symm.trans known'
        exact ⟨⟨_, known⟩, past, _, stored, (Allocation.byWeight?_sum staffed shared).1⟩
    | arrived awaited known' isOpen shared =>
        cases known.symm.trans known'
        exact ⟨⟨_, known⟩, past, _, stored, (Allocation.byWeight?_sum staffed shared).1⟩
  · have member := (Books.mem_redemptions found).1
    have past := edge.past orderly member
    have ⟨chain, known⟩ := orderly.redemptionChain member
    have staffed := orderly.staffed known
    have key := kept.redemptionKey member
    rw [written]
    have stored : (b.putRedemption { batch with status := next }).redemption? id batch.epoch =
        some { batch with status := next } := by
      simp [Books.redemption?_putRedemption, key]
    cases edge with
    | started current earlier due known' isOpen shared =>
        cases known.symm.trans known'
        exact ⟨⟨_, known⟩, past, _, stored, Allocation.withinHoldings?_sum staffed shared⟩
    | withdrawn current earlier due known isOpen =>
        exact ⟨⟨_, known⟩, past, _, stored, rfl⟩

/-! ## Sound states -/

structure HubState.Sound (h : HubState) : Prop where
  kept : h.books.WellKept
  orderly : h.books.Orderly
  founded : ∀ op ∈ h.outstanding, op.Founded h.books

theorem Cause.Takes.heard {op : RemoteOp} {outcome : Outcome} {before after : List RemoteOp}
    (takes : (Cause.heard op outcome).Takes before after) : op ∈ before :=
  takes.symm.subset List.mem_cons_self

theorem Cause.Takes.subset {before after : List RemoteOp} (takes : cause.Takes before after) :
    ∀ op ∈ after, op ∈ before := by
  intro op member
  cases cause with
  | asked request => exact takes ▸ member
  | heard heard outcome => exact takes.symm.subset (List.mem_cons_of_mem _ member)
  | closed chain account => exact takes ▸ member

namespace HubState.Sound

variable {h : HubState} {rest : List RemoteOp}

theorem initial : Sound .initial := ⟨.empty, .empty, nofun⟩

theorem heard (sound : h.Sound) (takes : cause.Takes h.outstanding rest) {op : RemoteOp}
    {outcome : Outcome} (equal : cause = .heard op outcome) : op.Founded h.books := by
  subst equal
  exact sound.founded op takes.heard

theorem move (sound : h.Sound) (move : Move s h.books cause r)
    (takes : cause.Takes h.outstanding rest) : (HubState.commit ⟨h.books, rest⟩ r).Sound where
  kept := sound.kept.applyAll _
  orderly := move.orderly sound.kept sound.orderly fun equal => (sound.heard takes equal).1
  founded op member := by
    rcases List.mem_append.mp member with old | started
    · exact (sound.founded op (takes.subset op old)).mono (move.follows sound.kept sound.orderly)
    · exact move.founded sound.kept sound.orderly started

end HubState.Sound

theorem HubState.after_sound (steps : List Step) : (HubState.after steps).Sound :=
  after_preserves (P := fun _ h => h.Sound) .initial
    (fun _ _ _ _ _ _ _ sound move takes _ => sound.move move takes) steps

end LiquidStaking
