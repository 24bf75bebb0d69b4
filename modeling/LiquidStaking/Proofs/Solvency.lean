import LiquidStaking.Proofs.Orderly

/-!
# Redemptions are covered by stake

What the redemptions still to be started have promised never exceeds what the
chain has staked.  The promise is made against available stake, and it is kept
because an undelegation takes off the stake exactly what its batch promised.
-/

namespace LiquidStaking

variable {s : Surroundings} {b : Books} {cause : Cause} {r : Response}

def Books.Solvent (b : Books) : Prop :=
  ∀ id chain, b.chain? id = some chain → b.promised id ≤ chain.staked

namespace Books.Solvent

theorem putChain (solvent : b.Solvent) (record : Chain)
    (covered : b.promised record.id ≤ record.staked) : (b.putChain record).Solvent := by
  intro id chain known
  rw [chain?_putChain] at known
  split at known
  · rename_i same
    cases known
    exact same ▸ covered
  · exact solvent id chain known

theorem putRedemption (kept : b.WellKept) (solvent : b.Solvent)
    (record : RedemptionBatch) {batch : RedemptionBatch}
    (stored : b.redemption? record.chain record.epoch = some batch ∨
      (b.redemption? record.chain record.epoch = none ∧
        batch = .empty record.chain record.epoch))
    (covered : ∀ chain, b.chain? record.chain = some chain →
      b.promised record.chain +
          part RedemptionBatch.holdsStake RedemptionBatch.redeemable record ≤
        chain.staked +
          part RedemptionBatch.holdsStake RedemptionBatch.redeemable batch) :
    (b.putRedemption record).Solvent := by
  intro id chain known
  by_cases same : id = record.chain
  · subst same
    have change := kept.redemptionTotal_collect RedemptionBatch.holdsStake
      RedemptionBatch.redeemable record stored rfl
    have := covered chain known
    simp only [promised] at this ⊢
    lia
  · rw [promised, redemptionTotal_put_other _ _ record same]
    exact solvent id chain known

theorem redeemable_le (solvent : b.Solvent) {id : ChainId} {chain : Chain}
    {batch : RedemptionBatch} (known : b.chain? id = some chain)
    (member : batch ∈ b.redemptions id) (holding : batch.holdsStake = true) :
    batch.redeemable ≤ chain.staked := by
  have own := part_le_totalWhere RedemptionBatch.holdsStake RedemptionBatch.redeemable member
  rw [part_counted holding] at own
  exact Nat.le_trans own (solvent id chain known)

end Books.Solvent

theorem RedemptionEdge.promises {id : ChainId} {batch : RedemptionBatch}
    {next : RedemptionStatus} {op : Option RemoteOp}
    (edge : RedemptionEdge s b id batch cause next op) :
    next.holdsStake = batch.status.holdsStake := by
  cases edge with
  | started current earlier due known isOpen shared =>
      rcases due with pending | failed
      · simp [pending, RedemptionStatus.holdsStake]
      · simp [failed, RedemptionStatus.holdsStake]
  | withdrawn current earlier due known isOpen =>
      rcases due with ⟨waiting, -⟩ | failed
      · rw [waiting]
        rfl
      · rw [failed]
        rfl
  | startReset awaited => simp [awaited, RedemptionStatus.holdsStake]
  | withdrawalReset awaited => rw [awaited]; rfl
  | refused awaited failed => simp [awaited, RedemptionStatus.holdsStake]
  | stayed awaited failed => rw [awaited]; rfl

theorem Move.solvent (kept : b.WellKept) (orderly : b.Orderly) (solvent : b.Solvent)
    (move : Move s b cause r)
    (founded : ∀ {op outcome}, cause = .heard op outcome → op.Founded b) :
    (b.applyAll r.commands).Solvent := by
  have sameStake {id : ChainId} {chain : Chain} (record : Chain)
      (known : b.chain? id = some chain) (key : record.id = chain.id)
      (staked : chain.staked ≤ record.staked) :
      (b.putChain record).Solvent := by
    refine solvent.putChain record ?_
    rw [key, kept.chainKey known]
    exact Nat.le_trans (solvent id chain known) staked
  cases move with
  | @registered r sound fresh =>
      refine solvent.putChain r.profile ?_
      have nothing : b.redemptions r.profile.id = [] := orderly.no_redemptions fresh
      simp [Books.promised, Books.redemptionTotal, nothing]
  | revised known edge plain =>
      rw [Books.applyAll_chain]
      exact sameStake _ known edge.revises.id (Nat.le_of_eq edge.revises.staked.symm)
  | rewarded known edge told =>
      rw [Books.applyAll_chain]
      exact sameStake _ known edge.revises.id (Nat.le_of_eq edge.revises.staked.symm)
  | repriced known backed priced => exact sameStake _ known rfl (Nat.le_refl _)
  | depositMoved found edge plain =>
      rw [Books.applyAll_deposit]
      exact solvent
  | @delegated id chain batch shares total receipts notices found awaited known summed told =>
      have fits := orderly.stakedFits known
      exact sameStake (chain.delegating receipts shares total) known (by simp)
        (Width.le_addSat fits total)
  | @redeemed id chain epoch batch amount owed owner known current fresh positive priced
      worthwhile covered found burnedFits redeemableFits =>
      obtain ⟨rfl, rfl, pending, stored⟩ := orderly.collecting_redemption kept current found
      have holding : batch.holdsStake = true := batch.holdsStake_eq pending
      refine solvent.putRedemption kept
        (batch.joining amount owed (claimId batch.chain batch.epoch owner)) stored
        fun chain' known' => ?_
      cases known.symm.trans known'
      rw [part_counted holding, part_counted (by exact holding)]
      simp only [RedemptionBatch.joining]
      lia
  | @redemptionMoved id batch cause next op notices found edge plain =>
      rw [Books.applyAll_redemption]
      obtain rfl := kept.redemptionKey (Books.mem_redemptions found).1
      refine solvent.putRedemption kept { batch with status := next } (.inl found)
        fun chain known => ?_
      have held := solvent _ _ known
      have same : part RedemptionBatch.holdsStake RedemptionBatch.redeemable
          { batch with status := next } =
            part RedemptionBatch.holdsStake RedemptionBatch.redeemable batch :=
        part_same edge.promises rfl
      rw [same]
      simp only
      lia
  | @unbonded id chain batch shares total completion receipts notices found awaited known summed
      due told =>
      obtain rfl := kept.redemptionKey (Books.mem_redemptions found).1
      have sums := (founded rfl).undelegation found
      obtain ⟨rfl, -⟩ := Allocation.total?_eq_some.mp summed
      have holding : batch.holdsStake = true := batch.holdsStake_eq awaited
      have held := solvent _ _ known
      have change := kept.redemptionTotal_put RedemptionBatch.holdsStake
        RedemptionBatch.redeemable { batch with
          completion := some completion, status := .waiting } found
      rw [part_counted holding, part_ignored rfl] at change
      -- The batch no longer promises anything before the stake it promised is taken off.
      have released := solvent.putRedemption kept { batch with
        completion := some completion, status := .waiting } (.inl found) fun chain' known' => by
          rw [part_ignored rfl]
          have := solvent _ _ known'
          lia
      refine released.putChain (chain.undelegating receipts shares (Allocation.sum shares)) ?_
      rw [Chain.id_undelegating, kept.chainKey known, Chain.staked_undelegating]
      simp only [Books.promised] at held ⊢
      lia
  | @released id batch amount receipts notices found awaited plain =>
      rw [Books.applyAll_released]
      obtain rfl := kept.redemptionKey (Books.mem_redemptions found).1
      have found' : (b.release batch.members).redemption? batch.chain batch.epoch =
          some batch := by
        simpa using found
      have solvent' : (b.release batch.members).Solvent := by
        simpa [Books.Solvent, Books.promised, Books.redemptionTotal] using solvent
      refine solvent'.putRedemption (kept.release _) { batch with status := .done }
        (.inl found') fun chain known => ?_
      have := solvent' _ _ known
      rw [part_ignored rfl]
      simp only
      lia
  | requested | epochStarted | deposited | depositOpened | reinvested | paid | quiet | stale
  | unanswered => exact solvent

theorem Books.Solvent.empty : Books.empty.Solvent := nofun

theorem HubState.after_solvent (steps : List Step) : (HubState.after steps).books.Solvent :=
  (after_preserves (P := fun _ h => h.Sound ∧ h.books.Solvent) ⟨.initial, .empty⟩
    (fun _ _ _ _ _ _ _ holds move takes _ =>
      ⟨holds.1.move move takes,
        move.solvent holds.1.kept holds.1.orderly holds.2 (holds.1.heard takes)⟩) steps).2

/-- In every state of every run a chain has staked what its redemptions still to
be started promise.  So the sum of the promises is an amount, available stake is
the exact difference, and an undelegation that is waited for asks for what its
batch promised, which is still staked when the acknowledgement arrives. -/
theorem HubState.redemptions_covered (steps : List Step) (id : ChainId) (chain : Chain)
    (known : (HubState.after steps).books.chain? id = some chain) :
    (HubState.after steps).books.promised id ≤ chain.staked ∧
      (HubState.after steps).books.promised id < Width.limit 128 ∧
      Hub.availableStake? (HubState.after steps).books.view chain =
        some (chain.staked - (HubState.after steps).books.promised id) ∧
      ∀ epoch shares batch, .undelegate id epoch shares ∈ (HubState.after steps).outstanding →
        (HubState.after steps).books.redemption? id epoch = some batch →
        batch.status = .starting →
        Allocation.total? shares = some batch.redeemable ∧ batch.redeemable ≤ chain.staked := by
  have sound := after_sound steps
  have covered := after_solvent steps id chain known
  have fits := Nat.lt_of_le_of_lt covered (sound.orderly.stakedFits known)
  refine ⟨covered, fits, ?_, ?_⟩
  · rw [Hub.availableStake?_view, sound.kept.chainKey known, Width.narrow?_of_lt fits]
    rfl
  · intro epoch shares batch waiting found awaited
    obtain ⟨-, -, batch', found', sums⟩ := sound.founded _ waiting
    cases found.symm.trans found'
    have member := (Books.mem_redemptions found).1
    have promising : batch.holdsStake = true := batch.holdsStake_eq awaited
    refine ⟨Allocation.total?_eq_some.mpr ⟨sums, ?_⟩,
      (after_solvent steps).redeemable_le known member promising⟩
    rw [sums]
    exact sound.orderly.redemptionFits member

theorem HubState.redemptions_covered_sample :
    ∃ chain, (HubState.after Step.sampleRun).books.chain? "cosmoshub" = some chain ∧
      (HubState.after Step.sampleRun).books.promised "cosmoshub" = 400 ∧
      (HubState.after Step.sampleRun).books.promised "cosmoshub" ≤ chain.staked ∧
      Hub.availableStake? (HubState.after Step.sampleRun).books.view chain =
        some (chain.staked - (HubState.after Step.sampleRun).books.promised "cosmoshub") := by
  obtain ⟨chain, known⟩ : ∃ chain,
      (HubState.after Step.sampleRun).books.chain? "cosmoshub" = some chain :=
    Option.isSome_iff_exists.mp (by decide +kernel)
  obtain ⟨covered, -, available, -⟩ :=
    redemptions_covered Step.sampleRun "cosmoshub" chain known
  exact ⟨chain, known, by decide +kernel, covered, available⟩

end LiquidStaking
