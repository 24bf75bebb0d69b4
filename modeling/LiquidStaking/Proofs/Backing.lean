import LiquidStaking.Proofs.Conversions
import LiquidStaking.Proofs.Settlement

/-!
# The rate never falls

Every conversion rounds in favour of those who hold the derivative: a deposit
mints at most what it pays for, a redemption takes at most its share, and a new
rate is at most what the backing is worth.  So the backing of a chain covers its
supply at the recorded rate, and since a new rate is the largest one that is
covered, it is never below the recorded one.  What a redemption was promised at
an older rate is covered by the derivative it locks, however much later that is
burned.
-/

namespace LiquidStaking

variable {s : Surroundings} {b c : Books} {cause : Cause} {r : Response} {id : ChainId}
  {denom : Denom}

/-! ## Rounding -/

namespace Rate

variable {rate : Rate}

theorem toDerivative?_worth {native minted : Amount}
    (priced : rate.toDerivative? native = some minted) :
    minted * rate.value.raw ≤ native * Decimal.scale := by
  rw [← floor_of_toDerivative? priced]
  exact Nat.div_mul_le_self _ _

theorem toNative?_worth {derivative owed : Amount}
    (priced : rate.toNative? derivative = some owed) :
    owed * Decimal.scale ≤ rate.value.raw * derivative := by
  rw [← floor_of_toNative? priced, Nat.mul_comm rate.value.raw]
  exact Nat.div_mul_le_self _ _

/-- A new rate is the largest one at which the backing covers the supply. -/
theorem ofBacking?_largest {backing supply : Amount}
    (priced : ofBacking? backing supply = some rate) (raw : Nat) :
    raw * supply ≤ backing * Decimal.scale ↔ raw ≤ rate.value.raw := by
  have issued : 0 < supply := by
    apply Nat.pos_of_ne_zero
    rintro rfl
    cases priced
  rw [ofBacking?_eq backing issued] at priced
  cases priced
  exact (Nat.le_div_iff_mul_le issued).symm

end Rate

/-! ## Status changes leave what is in flight -/

theorem DepositEdge.flies {batch : DepositBatch} {next : DepositStatus} {op : Option RemoteOp}
    (edge : DepositEdge b id batch cause next op) (before : batch.status ≠ .failed)
    (after : next ≠ .failed) :
    part DepositBatch.inFlight DepositBatch.amount { batch with status := next } =
      part DepositBatch.inFlight DepositBatch.amount batch := by
  -- What the next epoch takes up is in flight, so only a failure or an empty batch counts less.
  have due_flying (due : batch.status.awaitsEpoch) : batch.status.inFlight = true := by
    revert due
    cases batch.status <;> decide
  have ofStatus (flying : batch.status.inFlight = next.inFlight) :
      part DepositBatch.inFlight DepositBatch.amount { batch with status := next } =
        part DepositBatch.inFlight DepositBatch.amount batch :=
    part_same flying.symm rfl
  cases edge with
  | emptied current earlier due nothing => simp [part, nothing]
  | sent current earlier due known isOpen held => exact ofStatus (due_flying due)
  | divided current earlier due known isOpen something gone shared =>
      exact ofStatus (due_flying due)
  | redriven failed known isOpen shared => exact absurd failed before
  | transferReset awaited => exact ofStatus (by rw [awaited]; rfl)
  | delegationReset awaited => exact absurd rfl after
  | returned awaited failed => exact ofStatus (by rw [awaited]; rfl)
  | stranded awaited known isClosed => exact absurd rfl after
  | arrived awaited known isOpen shared => exact ofStatus (by rw [awaited]; rfl)
  | refused awaited failed => exact absurd rfl after

/-! ## Backing -/

namespace Books

def NoneFailed (b : Books) (id : ChainId) : Prop :=
  ∀ batch ∈ b.deposits id, batch.status ≠ .failed

theorem WellKept.inFlight_reinvesting (kept : b.WellKept) {batch : DepositBatch}
    (amount : Amount) (stored : b.deposit? batch.chain batch.epoch = some batch ∨
      (b.deposit? batch.chain batch.epoch = none ∧ batch = .empty batch.chain batch.epoch))
    (pending : batch.status = .pending) (fits : batch.amount < Width.limit 128) :
    b.inFlight id ≤ (b.putDeposit (batch.reinvesting amount)).inFlight id := by
  by_cases own : id = batch.chain
  · subst own
    have flying : batch.inFlight = true := batch.inFlight_eq pending
    have grows := Width.le_addSat fits amount
    have change := kept.depositTotal_collect DepositBatch.inFlight DepositBatch.amount
      (batch.reinvesting amount) stored rfl
    rw [part_counted flying, part_counted (by exact flying)] at change
    simp only [DepositBatch.reinvesting] at change
    simp only [inFlight, DepositBatch.reinvesting]
    lia
  · exact Nat.le_of_eq (depositTotal_put_other _ _ (batch.reinvesting amount) own).symm

/-- What backs the derivative of a chain covers what was minted less what was
burned, and what a redemption promises is covered by what it will burn. -/
structure Backed (b : Books) (id : ChainId) (minted burned : Nat) : Prop where
  unissued : b.chain? id = none → minted = 0 ∧ burned = 0
  covered : ∀ chain, b.chain? id = some chain → chain.rate.value.raw * minted ≤
    (chain.staked + b.inFlight id) * Decimal.scale + chain.rate.value.raw * burned
  promised : ∀ chain, b.chain? id = some chain → ∀ batch ∈ b.redemptions id,
    batch.holdsStake = true → batch.redeemable * Decimal.scale ≤
      chain.rate.value.raw * batch.burned

theorem staked_add_inFlight_le_collected (balanced : b.Balanced id) {chain : Chain}
    (known : b.chain? id = some chain) : chain.staked + b.inFlight id ≤ b.collected id := by
  have staked := balanced chain known
  have split := totalWhere_split (fun _ => true) DepositBatch.settled DepositBatch.amount
    (b.deposits id)
  have flying : totalWhere DepositBatch.inFlight DepositBatch.amount (b.deposits id) ≤
      totalWhere (fun batch => true && !DepositBatch.settled batch) DepositBatch.amount
        (b.deposits id) := by
    refine totalWhere_le fun batch _ => ?_
    cases status : batch.status <;>
      simp [part, DepositBatch.inFlight, DepositBatch.settled, DepositStatus.inFlight, status]
  simp only [Bool.true_and] at split flying
  simp only [collected, inFlight, Books.settled, depositTotal] at staked ⊢
  lia

namespace Backed

variable {minted burned : Nat}

theorem congr (backed : b.Backed id minted burned)
    (missing : c.chain? id = none → b.chain? id = none)
    (chains : ∀ chain', c.chain? id = some chain' → ∃ chain, b.chain? id = some chain ∧
      chain'.rate = chain.rate ∧ chain'.staked = chain.staked)
    (flying : b.inFlight id ≤ c.inFlight id)
    (redemptions : ∀ batch ∈ c.redemptions id, batch.holdsStake = true →
      ∃ old ∈ b.redemptions id, old.holdsStake = true ∧ old.redeemable = batch.redeemable ∧
        old.burned = batch.burned) :
    c.Backed id minted burned where
  unissued absent := backed.unissued (missing absent)
  covered chain' known' := by
    obtain ⟨chain, known, rate, staked⟩ := chains chain' known'
    have before := backed.covered chain known
    have more := Nat.mul_le_mul_right Decimal.scale (Nat.add_le_add_left flying chain.staked)
    rw [rate, staked]
    omega
  promised chain' known' batch member holding := by
    obtain ⟨chain, known, rate, -⟩ := chains chain' known'
    obtain ⟨old, oldMember, oldHolding, redeemable, burned⟩ := redemptions batch member holding
    rw [rate, ← redeemable, ← burned]
    exact backed.promised chain known old oldMember oldHolding

theorem same_chain (backed : b.Backed id minted burned) (chain : c.chain? id = b.chain? id)
    (flying : b.inFlight id ≤ c.inFlight id)
    (redemptions : ∀ batch ∈ c.redemptions id, batch.holdsStake = true →
      ∃ old ∈ b.redemptions id, old.holdsStake = true ∧ old.redeemable = batch.redeemable ∧
        old.burned = batch.burned) :
    c.Backed id minted burned :=
  backed.congr (fun absent => chain ▸ absent)
    (fun record known => ⟨record, chain ▸ known, rfl, rfl⟩) flying redemptions

theorem same_redemptions (backed : b.Backed id minted burned) (chain : c.chain? id = b.chain? id)
    (flying : b.inFlight id ≤ c.inFlight id) (redemptions : c.redemptions id = b.redemptions id) :
    c.Backed id minted burned :=
  backed.same_chain chain flying fun batch member holding =>
    ⟨batch, redemptions ▸ member, holding, rfl, rfl⟩

theorem putChain_other (backed : b.Backed id minted burned) (record : Chain)
    (differ : id ≠ record.id) : (b.putChain record).Backed id minted burned :=
  backed.same_redemptions (by rw [chain?_putChain, if_neg differ]) (Nat.le_refl _) rfl

theorem putDeposit_other (backed : b.Backed id minted burned) (record : DepositBatch)
    (differ : id ≠ record.chain) : (b.putDeposit record).Backed id minted burned :=
  backed.same_redemptions rfl (Nat.le_of_eq (depositTotal_put_other _ _ record differ).symm) rfl

theorem putRedemption_other (backed : b.Backed id minted burned) (record : RedemptionBatch)
    (differ : id ≠ record.chain) : (b.putRedemption record).Backed id minted burned :=
  backed.same_redemptions rfl (Nat.le_refl _) (by rw [redemptions_putRedemption, if_neg differ])

theorem putChain (kept : b.WellKept) (backed : b.Backed id minted burned) {id' : ChainId}
    {chain : Chain} (record : Chain) (known : b.chain? id' = some chain)
    (key : record.id = chain.id) (rate : record.rate = chain.rate)
    (staked : record.staked = chain.staked) : (b.putChain record).Backed id minted burned := by
  by_cases own : id = record.id
  · rw [key, kept.chainKey known] at own
    subst own
    refine backed.congr (fun absent => ?_) (fun chain' known' => ?_) (Nat.le_refl _)
      fun batch member holding => ⟨batch, member, holding, rfl, rfl⟩
    · simp [chain?_putChain, key, kept.chainKey known] at absent
    · rw [chain?_putChain, key, kept.chainKey known, if_pos rfl] at known'
      cases known'
      exact ⟨chain, known, rate, staked⟩
  · exact backed.putChain_other record own

theorem registered (orderly : b.Orderly) (backed : b.Backed id minted burned) (record : Chain)
    (fresh : b.chain? record.id = none) : (b.putChain record).Backed id minted burned := by
  by_cases own : id = record.id
  · subst own
    obtain ⟨rfl, rfl⟩ := backed.unissued fresh
    refine ⟨fun absent => ?_, fun chain known => by simp, fun chain known batch member => ?_⟩
    · simp [chain?_putChain] at absent
    · have inBatches : batch ∈ b.redemptions record.id := member
      rw [orderly.no_redemptions fresh] at inBatches
      cases inBatches
  · exact backed.putChain_other record own

/-- A new rate is covered, and since it is the largest one that is, no lower than the old. -/
theorem rises (backed : b.Backed id minted burned) (balanced : b.Balanced id)
    (fits : b.collected id < Width.limit 128) {chain : Chain} {supply : Amount} {rate : Rate}
    (known : b.chain? id = some chain) (supplied : supply + burned = minted)
    (priced : Rate.ofBacking?
      (Width.addSat 128 chain.staked (Width.clamp 128 (b.inFlight id))) supply = some rate) :
    chain.rate.value.raw ≤ rate.value.raw ∧
      rate.value.raw * supply ≤ (chain.staked + b.inFlight id) * Decimal.scale := by
  have room := Nat.lt_of_le_of_lt (b.staked_add_inFlight_le_collected balanced known) fits
  have exact_sum : Width.addSat 128 chain.staked (Width.clamp 128 (b.inFlight id)) =
      chain.staked + b.inFlight id := by
    rw [Width.clamp_of_lt (Nat.lt_of_le_of_lt (Nat.le_add_left _ _) room),
      Width.addSat_of_lt room]
  rw [exact_sum] at priced
  have largest := Rate.ofBacking?_largest priced
  refine ⟨(largest _).mp ?_, (largest _).mpr (Nat.le_refl _)⟩
  have covered := backed.covered chain known
  rw [← supplied, Nat.mul_add] at covered
  exact Nat.le_of_add_le_add_right covered

theorem repriced_own (kept : b.WellKept) (backed : b.Backed id minted burned)
    (balanced : b.Balanced id) (fits : b.collected id < Width.limit 128) {chain : Chain}
    {supply : Amount} {rate : Rate} (known : b.chain? id = some chain)
    (supplied : supply + burned = minted)
    (priced : Rate.ofBacking?
      (Width.addSat 128 chain.staked (Width.clamp 128 (b.inFlight id))) supply = some rate) :
    (b.putChain { chain with rate }).Backed id minted burned := by
  obtain ⟨higher, covers⟩ := backed.rises balanced fits known supplied priced
  have key := kept.chainKey known
  refine ⟨fun absent => ?_, fun chain' known' => ?_, fun chain' known' batch member holding => ?_⟩
  · simp [chain?_putChain, key] at absent
  · rw [chain?_putChain, if_pos key.symm] at known'
    cases known'
    have same : (b.putChain { chain with rate }).inFlight id = b.inFlight id := rfl
    rw [same, ← supplied, Nat.mul_add]
    exact Nat.add_le_add_right covers _
  · rw [chain?_putChain, if_pos key.symm] at known'
    cases known'
    exact Nat.le_trans (backed.promised chain known batch member holding)
      (Nat.mul_le_mul_right _ higher)

theorem deposited_own (kept : b.WellKept) {batch : DepositBatch}
    (backed : b.Backed batch.chain minted burned) {chain : Chain} {amount issued : Amount}
    (known : b.chain? batch.chain = some chain)
    (found : b.deposit? batch.chain batch.epoch = some batch) (flying : batch.inFlight = true)
    (worth : issued * chain.rate.value.raw ≤ amount * Decimal.scale) :
    (b.putDeposit { batch with amount := batch.amount + amount }).Backed batch.chain
      (minted + issued) burned := by
  have change := kept.depositTotal_put DepositBatch.inFlight DepositBatch.amount
    { batch with amount := batch.amount + amount } found
  rw [part_counted flying, part_counted (by exact flying)] at change
  have flown : (b.putDeposit { batch with amount := batch.amount + amount }).inFlight batch.chain =
      b.inFlight batch.chain + amount := by
    simp only [inFlight]
    lia
  refine ⟨fun absent => ?_, fun chain' known' => ?_, fun chain' => backed.promised chain'⟩
  · cases known.symm.trans absent
  · cases known.symm.trans known'
    have before := backed.covered chain known
    rw [flown]
    simp only [Nat.mul_add, Nat.add_mul] at before ⊢
    rw [Nat.mul_comm issued] at worth
    generalize Decimal.scale = unit at before worth ⊢
    lia

theorem delegated_own (kept : b.WellKept) {batch : DepositBatch}
    (backed : b.Backed batch.chain minted burned) (balanced : b.Balanced batch.chain)
    (fits : b.collected batch.chain < Width.limit 128) {chain : Chain} (receipts : List Receipt)
    {shares : Allocation} (known : b.chain? batch.chain = some chain)
    (found : b.deposit? batch.chain batch.epoch = some batch)
    (awaited : batch.status = .delegating) (sums : Allocation.sum shares = batch.amount) :
    ((b.putChain (chain.delegating receipts shares (Allocation.sum shares))).putDeposit
      { batch with status := .done }).Backed batch.chain minted burned := by
  have flying : batch.inFlight = true := batch.inFlight_eq awaited
  have unsettled : batch.settled = false := batch.settled_eq awaited
  have change := kept.depositTotal_put DepositBatch.inFlight DepositBatch.amount
    { batch with status := .done } found
  rw [part_counted flying, part_ignored rfl] at change
  have landed : ((b.putChain (chain.delegating receipts shares (Allocation.sum shares))).putDeposit
      { batch with status := .done }).inFlight batch.chain + batch.amount =
        b.inFlight batch.chain := change
  have known' : (b.putChain (chain.delegating receipts shares (Allocation.sum shares))).chain?
      batch.chain = some (chain.delegating receipts shares (Allocation.sum shares)) := by
    rw [chain?_putChain, Chain.id_delegating, if_pos (kept.chainKey known).symm]
  have exact_sum := balanced.addSat_staked fits known (mem_deposits found).1 unsettled
  rw [← sums] at exact_sum
  refine ⟨fun absent => ?_, fun chain' read => ?_, fun chain' read batch' member holding => ?_⟩
  · cases known'.symm.trans absent
  · cases known'.symm.trans read
    have before := backed.covered chain known
    rw [← landed] at before
    rw [Chain.rate_delegating, Chain.staked_delegating, exact_sum, sums]
    rw [Nat.add_right_comm, Nat.add_assoc]
    exact before
  · cases known'.symm.trans read
    rw [Chain.rate_delegating]
    exact backed.promised chain known batch' member holding

theorem redeemed (backed : b.Backed id minted burned) {batch : RedemptionBatch} {chain : Chain}
    {amount owed : Amount} (member : String) (known : b.chain? batch.chain = some chain)
    (stored : b.redemption? batch.chain batch.epoch = some batch ∨
      (b.redemption? batch.chain batch.epoch = none ∧ batch = .empty batch.chain batch.epoch))
    (holding : batch.holdsStake = true)
    (worth : owed * Decimal.scale ≤ chain.rate.value.raw * amount) :
    (b.putRedemption (batch.joining amount owed member)).Backed id minted burned where
  unissued := backed.unissued
  covered := backed.covered
  promised chain' known' batch' inBatches holding' := by
    rcases mem_putRedemption inBatches with ⟨rfl, rfl⟩ | old
    · cases known.symm.trans known'
      have before : batch.redeemable * Decimal.scale ≤ chain.rate.value.raw * batch.burned := by
        rcases stored with found | ⟨-, opened⟩
        · exact backed.promised chain known batch (mem_redemptions found).1 holding
        · have nothing : batch.redeemable = 0 := by rw [opened]; rfl
          rw [nothing, Nat.zero_mul]
          exact Nat.zero_le _
      have sum := Nat.add_le_add before worth
      rw [← Nat.add_mul, ← Nat.mul_add] at sum
      exact sum
    · exact backed.promised chain' known' batch' old holding'

theorem unbonded_own (kept : b.WellKept) (solvent : b.Solvent) {batch : RedemptionBatch}
    (backed : b.Backed batch.chain minted burned) {chain : Chain} (receipts : List Receipt)
    {shares : Allocation} (completion : Seconds) (known : b.chain? batch.chain = some chain)
    (found : b.redemption? batch.chain batch.epoch = some batch)
    (awaited : batch.status = .starting) (sums : Allocation.sum shares = batch.redeemable) :
    ((b.putChain (chain.undelegating receipts shares (Allocation.sum shares))).putRedemption
      { batch with completion := some completion, status := .waiting }).Backed batch.chain
        minted (burned + batch.burned) := by
  have member := (mem_redemptions found).1
  have holding : batch.holdsStake = true := batch.holdsStake_eq awaited
  have known' : (b.putChain (chain.undelegating receipts shares (Allocation.sum shares))).chain?
      batch.chain = some (chain.undelegating receipts shares (Allocation.sum shares)) := by
    rw [chain?_putChain, Chain.id_undelegating, if_pos (kept.chainKey known).symm]
  have covered := solvent.redeemable_le known member holding
  refine ⟨fun absent => ?_, fun chain' read => ?_, fun chain' read batch' joined holding' => ?_⟩
  · cases known'.symm.trans absent
  · cases known'.symm.trans read
    have before := backed.covered chain known
    have worth := backed.promised chain known batch member holding
    have same : ((b.putChain (chain.undelegating receipts shares
        (Allocation.sum shares))).putRedemption { batch with
          completion := some completion, status := .waiting }).inFlight batch.chain =
            b.inFlight batch.chain := rfl
    rw [same, Chain.rate_undelegating, Chain.staked_undelegating, sums]
    obtain ⟨left, staked⟩ := Nat.exists_eq_add_of_le' covered
    rw [staked] at before ⊢
    rw [Nat.add_sub_cancel]
    simp only [Nat.add_mul, Nat.mul_add] at before ⊢
    generalize Decimal.scale = unit at before worth ⊢
    lia
  · cases known'.symm.trans read
    rw [Chain.rate_undelegating]
    rcases mem_putRedemption joined with ⟨rfl, -⟩ | old
    · cases holding'
    · exact backed.promised chain known batch' old holding'

/-! ### Whichever chain it is about -/

theorem repriced (kept : b.WellKept) (backed : b.Backed id minted burned)
    (balanced : b.Balanced id) (fits : b.collected id < Width.limit 128)
    (issues : b.Issues id denom) (supplied : s.supply denom + burned = minted)
    {other : ChainId} {chain : Chain} {rate : Rate} (known : b.chain? other = some chain)
    (priced : Rate.ofBacking?
      (Width.addSat 128 chain.staked (Width.clamp 128 (b.inFlight other)))
      (s.supply chain.derivativeDenom) = some rate) :
    (b.putChain { chain with rate }).Backed id minted burned := by
  by_cases own : other = id
  · subst own
    rw [(issues other chain known).mpr rfl] at priced
    exact backed.repriced_own kept balanced fits known supplied priced
  · have differ : id ≠ ({ chain with rate } : Chain).id := by
      simpa [kept.chainKey known] using Ne.symm own
    exact backed.putChain_other _ differ

theorem deposited (kept : b.WellKept) (backed : b.Backed id minted burned)
    (issues : b.Issues id denom) {batch : DepositBatch} {chain : Chain} {amount issued : Amount}
    (known : b.chain? batch.chain = some chain)
    (found : b.deposit? batch.chain batch.epoch = some batch) (pending : batch.status = .pending)
    (priced : chain.rate.toDerivative? amount = some issued) :
    (b.putDeposit { batch with amount := batch.amount + amount }).Backed id
      (minted + if chain.derivativeDenom = denom then issued else 0) burned := by
  by_cases own : batch.chain = id
  · subst own
    rw [if_pos ((issues _ _ known).mpr rfl)]
    exact backed.deposited_own kept known found (batch.inFlight_eq pending)
      (Rate.toDerivative?_worth priced)
  · rw [if_neg fun same => own ((issues _ _ known).mp same)]
    exact backed.putDeposit_other { batch with amount := batch.amount + amount } (Ne.symm own)

theorem moved (kept : b.WellKept) (backed : b.Backed id minted burned) {batch : DepositBatch}
    {next : DepositStatus} {op : Option RemoteOp}
    (edge : DepositEdge b batch.chain batch cause next op)
    (found : b.deposit? batch.chain batch.epoch = some batch) (noneFailed : b.NoneFailed id)
    (noneFailed' : (b.putDeposit { batch with status := next }).NoneFailed id) :
    (b.putDeposit { batch with status := next }).Backed id minted burned := by
  by_cases own : id = batch.chain
  · subst own
    have stored : (b.putDeposit { batch with status := next }).deposit? batch.chain batch.epoch =
        some { batch with status := next } := by
      simp [Books.deposit?_putDeposit]
    have flies := edge.flies (noneFailed batch (mem_deposits found).1)
      (noneFailed' _ (mem_deposits stored).1)
    have same := kept.depositTotal_collect_same _ _ { batch with status := next } (.inl found) rfl
      flies batch.chain
    exact backed.same_redemptions rfl (Nat.le_of_eq same.symm) rfl
  · exact backed.putDeposit_other { batch with status := next } own

theorem delegated (kept : b.WellKept) (backed : b.Backed id minted burned)
    (balanced : b.Balanced id) (fits : b.collected id < Width.limit 128) {batch : DepositBatch}
    {chain : Chain} (receipts : List Receipt) {shares : Allocation}
    (known : b.chain? batch.chain = some chain)
    (found : b.deposit? batch.chain batch.epoch = some batch)
    (awaited : batch.status = .delegating) (sums : Allocation.sum shares = batch.amount) :
    ((b.putChain (chain.delegating receipts shares (Allocation.sum shares))).putDeposit
      { batch with status := .done }).Backed id minted burned := by
  by_cases own : batch.chain = id
  · subst own
    exact backed.delegated_own kept balanced fits receipts known found awaited sums
  · have differ : id ≠ (chain.delegating receipts shares (Allocation.sum shares)).id := by
      rw [Chain.id_delegating, kept.chainKey known]
      exact Ne.symm own
    exact (backed.putChain_other _ differ).putDeposit_other { batch with status := .done }
      (Ne.symm own)

theorem reinvested (kept : b.WellKept) (orderly : b.Orderly) (backed : b.Backed id minted burned)
    {batch : DepositBatch} (amount : Amount)
    (stored : b.deposit? batch.chain batch.epoch = some batch ∨
      (b.deposit? batch.chain batch.epoch = none ∧ batch = .empty batch.chain batch.epoch))
    (pending : batch.status = .pending) :
    (b.putDeposit (batch.reinvesting amount)).Backed id minted burned := by
  have fits : batch.amount < Width.limit 128 := by
    rcases stored with known | ⟨-, opened⟩
    · exact (orderly.depositFits (mem_deposits known).1).2
    · rw [opened]
      exact Width.limit_pos 128
  exact backed.same_redemptions rfl (kept.inFlight_reinvesting amount stored pending fits) rfl

theorem redemption_moved (backed : b.Backed id minted burned) {batch : RedemptionBatch}
    {next : RedemptionStatus} {op : Option RemoteOp}
    (edge : RedemptionEdge s b batch.chain batch cause next op)
    (found : b.redemption? batch.chain batch.epoch = some batch) :
    (b.putRedemption { batch with status := next }).Backed id minted burned := by
  refine backed.same_chain rfl (Nat.le_refl _) fun batch' member holding => ?_
  rcases mem_putRedemption member with ⟨rfl, rfl⟩ | old
  · exact ⟨batch, (mem_redemptions found).1, edge.promises.symm.trans holding, rfl, rfl⟩
  · exact ⟨batch', old, holding, rfl, rfl⟩

theorem unbonded (kept : b.WellKept) (solvent : b.Solvent) (backed : b.Backed id minted burned)
    (issues : b.Issues id denom) {batch : RedemptionBatch} {chain : Chain}
    (receipts : List Receipt) {shares : Allocation} (completion : Seconds)
    (known : b.chain? batch.chain = some chain)
    (found : b.redemption? batch.chain batch.epoch = some batch)
    (awaited : batch.status = .starting) (sums : Allocation.sum shares = batch.redeemable) :
    ((b.putChain (chain.undelegating receipts shares (Allocation.sum shares))).putRedemption
      { batch with completion := some completion, status := .waiting }).Backed id minted
        (burned + if chain.derivativeDenom = denom then batch.burned else 0) := by
  by_cases own : batch.chain = id
  · subst own
    rw [if_pos ((issues _ _ known).mpr rfl)]
    exact backed.unbonded_own kept solvent receipts completion known found awaited sums
  · rw [if_neg fun same => own ((issues _ _ known).mp same)]
    have differ : id ≠ (chain.undelegating receipts shares (Allocation.sum shares)).id := by
      rw [Chain.id_undelegating, kept.chainKey known]
      exact Ne.symm own
    exact (backed.putChain_other _ differ).putRedemption_other
      { batch with completion := some completion, status := .waiting } (Ne.symm own)

theorem released (backed : b.Backed id minted burned) (batch : RedemptionBatch) :
    ((b.release batch.members).putRedemption { batch with status := .done }).Backed id
      minted burned := by
  refine backed.same_chain (by simp) (Nat.le_of_eq ?_) fun batch' member holding => ?_
  · simp [Books.inFlight, Books.depositTotal]
  · rcases mem_putRedemption member with ⟨rfl, -⟩ | old
    · cases holding
    · rw [redemptions_release] at old
      exact ⟨batch', old, holding, rfl, rfl⟩

end Backed

end Books

/-! ## One move -/

section Moves

variable {minted burned : Nat}

/-- No move leaves less backing than the supply is worth, unless a batch fails. -/
theorem Move.backed (kept : b.WellKept) (orderly : b.Orderly) (solvent : b.Solvent)
    (balanced : b.Balanced id) (fits : b.collected id < Width.limit 128)
    (issues : b.Issues id denom) (noneFailed : b.NoneFailed id)
    (noneFailed' : (b.applyAll r.commands).NoneFailed id)
    (supplied : ∀ kind epoch, cause = .asked (.startEpoch kind epoch) →
      s.supply denom + burned = minted)
    (backed : b.Backed id minted burned) (move : Move s b cause r)
    (founded : ∀ {op outcome}, cause = .heard op outcome → op.Founded b) :
    (b.applyAll r.commands).Backed id (minted + r.ordered (Command.minted denom))
      (burned + r.ordered (Command.burned denom)) := by
  have tokenless (none : r.Tokenless) (after : (b.applyAll r.commands).Backed id minted burned) :
      (b.applyAll r.commands).Backed id (minted + r.ordered (Command.minted denom))
        (burned + r.ordered (Command.burned denom)) := by
    rw [none.ordered Command.minted_eq_zero, none.ordered Command.burned_eq_zero]
    exact after
  cases move with
  | @registered registration sound fresh =>
      exact tokenless (.of_all rfl) (backed.registered orderly registration.profile fresh)
  | revised known edge plain =>
      refine tokenless (.chain _ _ _) ?_
      rw [Books.applyAll_chain]
      exact backed.putChain kept _ known edge.revises.id edge.revises.rate edge.revises.staked
  | rewarded known edge told =>
      refine tokenless (.chain _ _ _) ?_
      rw [Books.applyAll_chain]
      exact backed.putChain kept _ known edge.revises.id edge.revises.rate edge.revises.staked
  | repriced known covered priced =>
      exact tokenless (.of_all rfl)
        (backed.repriced kept balanced fits issues (supplied _ _ rfl) known priced)
  | epochStarted later =>
      exact tokenless (.of_all rfl) (backed.same_redemptions rfl (Nat.le_refl _) rfl)
  | @deposited id' chain batch amount issued depositor known current found positive priced
      worthwhile fits' =>
      obtain ⟨rfl, -, pending, -⟩ :=
        orderly.collecting_deposit kept current (by rw [found, Option.getD_some])
      have after := backed.deposited kept issues known found pending priced
      simp only [Response.ordered_cons, Command.minted, Command.burned, Nat.zero_add]
      exact after
  | @depositOpened id' chain epoch known current absent =>
      have same := kept.depositTotal_collect_same DepositBatch.inFlight DepositBatch.amount
        (.empty id' epoch) (.inr ⟨absent, rfl⟩) rfl rfl id
      exact tokenless (.of_all rfl) (backed.same_redemptions rfl (Nat.le_of_eq same.symm) rfl)
  | @depositMoved id' batch cause next op notices found edge plain =>
      obtain rfl := kept.depositKey (Books.mem_deposits found).1
      refine tokenless (.deposit _ _ _) ?_
      rw [Books.applyAll_deposit] at noneFailed' ⊢
      exact backed.moved kept edge found noneFailed noneFailed'
  | @delegated id' chain batch shares total receipts notices found awaited known summed told =>
      obtain rfl := kept.depositKey (Books.mem_deposits found).1
      have sums := (founded rfl).delegation found
      obtain ⟨rfl, -⟩ := Allocation.total?_eq_some.mp summed
      exact tokenless (.of_all rfl)
        (backed.delegated kept balanced fits receipts known found awaited sums)
  | @reinvested id' epoch batch amount receipts notices current found plain =>
      obtain ⟨rfl, rfl, pending, -, stored⟩ := orderly.collecting_deposit kept current found
      exact tokenless (.of_all rfl) (backed.reinvested kept orderly amount stored pending)
  | @redeemed id' chain epoch batch amount owed owner known current fresh positive priced
      worthwhile covered found burnedFits redeemableFits =>
      obtain ⟨rfl, rfl, pending, stored⟩ := orderly.collecting_redemption kept current found
      have joined := backed.redeemed (claimId batch.chain batch.epoch owner) known stored
        (batch.holdsStake_eq pending) (Rate.toNative?_worth priced)
      exact tokenless (.of_all rfl) (joined.same_redemptions rfl (Nat.le_refl _) rfl)
  | @redemptionMoved id' batch cause next op notices found edge plain =>
      obtain rfl := kept.redemptionKey (Books.mem_redemptions found).1
      refine tokenless (.redemption _ _ _) ?_
      rw [Books.applyAll_redemption]
      exact backed.redemption_moved edge found
  | @unbonded id' chain batch shares total completion receipts notices found awaited known summed
      due told =>
      obtain rfl := kept.redemptionKey (Books.mem_redemptions found).1
      have sums := (founded rfl).undelegation found
      obtain ⟨rfl, -⟩ := Allocation.total?_eq_some.mp summed
      have after := backed.unbonded kept solvent issues receipts completion known found awaited sums
      simp only [Response.ordered_cons, Command.minted, Command.burned, Nat.zero_add]
      exact after
  | @released id' batch amount receipts notices found awaited plain =>
      refine tokenless (.released _ _ _) ?_
      rw [Books.applyAll_released]
      exact backed.released batch
  | paid known found claimable covered =>
      exact backed.same_redemptions rfl (Nat.le_refl _) rfl
  | requested | quiet | stale | unanswered => exact tokenless (.of_all rfl) backed

theorem Move.rate_rises (kept : b.WellKept) (balanced : b.Balanced id)
    (fits : b.collected id < Width.limit 128) (issues : b.Issues id denom)
    (supplied : ∀ kind epoch, cause = .asked (.startEpoch kind epoch) →
      s.supply denom + burned = minted)
    (backed : b.Backed id minted burned) (move : Move s b cause r) {chain : Chain}
    (known : b.chain? id = some chain) :
    ∃ chain', (b.applyAll r.commands).chain? id = some chain' ∧
      chain.rate.value.raw ≤ chain'.rate.value.raw := by
  have put {id' : ChainId} {old : Chain} (record : Chain) (known' : b.chain? id' = some old)
      (key : record.id = old.id)
      (higher : id' = id → old.rate.value.raw ≤ record.rate.value.raw) :
      ∃ chain', (b.putChain record).chain? id = some chain' ∧
        chain.rate.value.raw ≤ chain'.rate.value.raw := by
    rw [Books.chain?_putChain, key, kept.chainKey known']
    by_cases own : id = id'
    · subst own
      cases known.symm.trans known'
      exact ⟨record, if_pos rfl, higher rfl⟩
    · exact ⟨chain, by rw [if_neg own, known], Nat.le_refl _⟩
  have unchanged : ∃ chain', b.chain? id = some chain' ∧
      chain.rate.value.raw ≤ chain'.rate.value.raw := ⟨chain, known, Nat.le_refl _⟩
  cases move with
  | @registered registration sound fresh =>
      have differ : id ≠ registration.profile.id := by
        rintro rfl
        have fresh' : b.chain? registration.profile.id = none := fresh
        cases known.symm.trans fresh'
      have same : (b.putChain registration.profile).chain? id = b.chain? id := by
        rw [Books.chain?_putChain, if_neg differ]
      exact ⟨chain, same.trans known, Nat.le_refl _⟩
  | revised known' edge plain =>
      rw [Books.applyAll_chain]
      exact put _ known' edge.revises.id fun _ =>
        Nat.le_of_eq (by rw [edge.revises.rate])
  | rewarded known' edge told =>
      rw [Books.applyAll_chain]
      exact put _ known' edge.revises.id fun _ =>
        Nat.le_of_eq (by rw [edge.revises.rate])
  | @repriced id' old rate epoch known' covered priced =>
      refine put { old with rate } known' rfl fun own => ?_
      subst own
      rw [(issues id' old known').mpr rfl] at priced
      exact (backed.rises balanced fits known' (supplied _ _ rfl) priced).1
  | @depositMoved id' batch cause next op notices found edge plain =>
      rw [Books.applyAll_deposit]
      exact unchanged
  | @delegated id' old batch shares total receipts notices found awaited known' summed told =>
      exact put (old.delegating receipts shares total) known' (by simp) fun _ => by simp
  | @redemptionMoved id' batch cause next op notices found edge plain =>
      rw [Books.applyAll_redemption]
      exact unchanged
  | @unbonded id' old batch shares total completion receipts notices found awaited known' summed
      due told =>
      exact put (old.undelegating receipts shares total) known' (by simp) fun _ => by simp
  | @released id' batch amount receipts notices found awaited plain =>
      rw [Books.applyAll_released]
      simpa using unchanged
  | requested | epochStarted | deposited | depositOpened | reinvested | redeemed | paid | quiet
  | stale | unanswered => exact unchanged

end Moves

end LiquidStaking
