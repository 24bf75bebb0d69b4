import LiquidStaking.Proofs.Funding
import LiquidStaking.Proofs.Solvency

/-!
# Every batch settles once

What a chain has staked is what its delegation batches brought in less what its
redemption batches took out; and the derivative the hub holds is what was handed
in for redemption less what was burned.  A batch that was reset may have two
operations outstanding, but only the acknowledgement that finds it waiting is
booked, and the other one is stale.
-/

namespace LiquidStaking

variable {s : Surroundings} {b c : Books} {cause : Cause} {r : Response} {id : ChainId}
  {denom : Denom}

def DepositBatch.settled (batch : DepositBatch) : Bool := batch.status == .done

def RedemptionStatus.unbonded : RedemptionStatus → Bool
  | .waiting | .withdrawing | .transferFailed | .done => true
  | .pending | .starting | .startFailed => false

def RedemptionBatch.unbonded (batch : RedemptionBatch) : Bool := batch.status.unbonded

theorem DepositBatch.settled_eq (batch : DepositBatch) {status : DepositStatus}
    (is : batch.status = status) : batch.settled = (status == .done) := by
  rw [settled, is]

theorem RedemptionBatch.unbonded_eq (batch : RedemptionBatch) {status : RedemptionStatus}
    (is : batch.status = status) : batch.unbonded = status.unbonded := congrArg _ is

namespace Books

def settled (b : Books) (id : ChainId) : Nat :=
  b.depositTotal id DepositBatch.settled DepositBatch.amount

def unbonded (b : Books) (id : ChainId) : Nat :=
  b.redemptionTotal id RedemptionBatch.unbonded RedemptionBatch.redeemable

def locked (b : Books) (id : ChainId) : Nat :=
  b.redemptionTotal id RedemptionBatch.holdsStake RedemptionBatch.burned

/-- The stake of a chain is what was settled less what was unbonded. -/
def Balanced (b : Books) (id : ChainId) : Prop :=
  ∀ chain, b.chain? id = some chain → chain.staked + b.unbonded id = b.settled id

/-- The chain issues the derivative, and no other chain does. -/
def Issues (b : Books) (id : ChainId) (denom : Denom) : Prop :=
  ∀ other chain, b.chain? other = some chain → (chain.derivativeDenom = denom ↔ other = id)

theorem Issues.before (issues : c.Issues id denom) (follows : c.Follows b) :
    b.Issues id denom := by
  intro other chain known
  obtain ⟨chain', known', -, same⟩ := follows.chain known
  rw [← same]
  exact issues other chain' known'

theorem WellKept.issues_only (kept : b.WellKept) (only : b.chainIds = [id])
    (same : (b.chain? id).map Chain.derivativeDenom = some denom) : b.Issues id denom := by
  intro other chain known
  have listed := kept.listed known
  rw [only, List.mem_singleton] at listed
  subst listed
  rw [known] at same
  simpa using same

end Books

/-! ## Status changes settle and unbond nothing -/

theorem DepositEdge.settles {batch : DepositBatch} {next : DepositStatus}
    {op : Option RemoteOp} (edge : DepositEdge b id batch cause next op) :
    part DepositBatch.settled DepositBatch.amount { batch with status := next } =
      part DepositBatch.settled DepositBatch.amount batch := by
  have ofStatus (before : batch.settled = false)
      (after : ({ batch with status := next } : DepositBatch).settled = false) :
      part DepositBatch.settled DepositBatch.amount { batch with status := next } =
        part DepositBatch.settled DepositBatch.amount batch := by
    rw [part_ignored before, part_ignored after]
  have due_unsettled (due : batch.status.awaitsEpoch) : batch.settled = false := by
    revert due
    simp only [DepositBatch.settled]
    cases batch.status <;> decide
  cases edge with
  | emptied current earlier due nothing =>
      rw [part_ignored (due_unsettled due)]
      simp [part, nothing]
  | sent current earlier due known isOpen held => exact ofStatus (due_unsettled due) rfl
  | divided current earlier due known isOpen something gone shared =>
      exact ofStatus (due_unsettled due) rfl
  | redriven failed known isOpen shared =>
      exact ofStatus (by simp [DepositBatch.settled, failed]) rfl
  | transferReset awaited => exact ofStatus (by simp [DepositBatch.settled, awaited]) rfl
  | delegationReset awaited => exact ofStatus (by simp [DepositBatch.settled, awaited]) rfl
  | returned awaited failed => exact ofStatus (by simp [DepositBatch.settled, awaited]) rfl
  | stranded awaited known isClosed => exact ofStatus (by simp [DepositBatch.settled, awaited]) rfl
  | arrived awaited known isOpen shared =>
      exact ofStatus (by simp [DepositBatch.settled, awaited]) rfl
  | refused awaited failed => exact ofStatus (by simp [DepositBatch.settled, awaited]) rfl

theorem RedemptionStatus.unbonded_eq (status : RedemptionStatus) :
    status.unbonded = !status.holdsStake := by
  cases status <;> rfl

theorem RedemptionEdge.unbonds {batch : RedemptionBatch} {next : RedemptionStatus}
    {op : Option RemoteOp} (edge : RedemptionEdge s b id batch cause next op) :
    next.unbonded = batch.status.unbonded := by
  rw [RedemptionStatus.unbonded_eq, RedemptionStatus.unbonded_eq, edge.promises]

/-! ## Stake -/

namespace Books

theorem settled_add_le_collected {batch : DepositBatch} (member : batch ∈ b.deposits id)
    (unsettled : batch.settled = false) : b.settled id + batch.amount ≤ b.collected id := by
  have split := totalWhere_split (fun _ => true) DepositBatch.settled DepositBatch.amount
    (b.deposits id)
  have own := part_le_totalWhere (fun batch => true && !DepositBatch.settled batch)
    DepositBatch.amount member
  rw [part_counted (by simp [unsettled])] at own
  simp only [Bool.true_and] at split own
  simp only [collected, settled, depositTotal]
  lia

theorem settled_put (kept : b.WellKept) (record : DepositBatch) {batch : DepositBatch}
    (stored : b.deposit? record.chain record.epoch = some batch ∨
      (b.deposit? record.chain record.epoch = none ∧ batch = .empty record.chain record.epoch))
    (same : part DepositBatch.settled DepositBatch.amount record =
      part DepositBatch.settled DepositBatch.amount batch) :
    (b.putDeposit record).settled id = b.settled id :=
  kept.depositTotal_collect_same _ _ record stored rfl same id

theorem unbonded_put (kept : b.WellKept) (record : RedemptionBatch) {batch : RedemptionBatch}
    (stored : b.redemption? record.chain record.epoch = some batch ∨
      (b.redemption? record.chain record.epoch = none ∧
        batch = .empty record.chain record.epoch))
    (same : part RedemptionBatch.unbonded RedemptionBatch.redeemable record =
      part RedemptionBatch.unbonded RedemptionBatch.redeemable batch) :
    (b.putRedemption record).unbonded id = b.unbonded id :=
  kept.redemptionTotal_collect_same _ _ record stored rfl same id

namespace Balanced

theorem congr (balanced : b.Balanced id)
    (stake : ∀ chain', c.chain? id = some chain' →
      ∃ chain, b.chain? id = some chain ∧ chain'.staked = chain.staked)
    (unbonded : c.unbonded id = b.unbonded id) (settled : c.settled id = b.settled id) :
    c.Balanced id := by
  intro chain' known'
  obtain ⟨chain, known, staked⟩ := stake chain' known'
  rw [staked, unbonded, settled]
  exact balanced chain known

theorem same_chains (balanced : b.Balanced id) (chains : c.chain? = b.chain?)
    (unbonded : c.unbonded id = b.unbonded id) (settled : c.settled id = b.settled id) :
    c.Balanced id :=
  balanced.congr (fun chain known => ⟨chain, chains ▸ known, rfl⟩) unbonded settled

theorem putChain (kept : b.WellKept) (balanced : b.Balanced id) {id' : ChainId} {chain : Chain}
    (record : Chain) (known : b.chain? id' = some chain) (key : record.id = chain.id)
    (staked : record.staked = chain.staked) : (b.putChain record).Balanced id := by
  refine balanced.congr (fun chain' known' => ?_) rfl rfl
  rw [chain?_putChain, key, kept.chainKey known] at known'
  split at known'
  · rename_i same
    cases known'
    exact ⟨chain, same ▸ known, staked⟩
  · exact ⟨chain', known', rfl⟩

/-- Nothing is lost when a batch is settled: its amount and what is staked were
both collected. -/
theorem addSat_staked (balanced : b.Balanced id) (fits : b.collected id < Width.limit 128)
    {chain : Chain} {batch : DepositBatch} (known : b.chain? id = some chain)
    (member : batch ∈ b.deposits id) (unsettled : batch.settled = false) :
    Width.addSat 128 chain.staked batch.amount = chain.staked + batch.amount := by
  have before := balanced chain known
  have room := b.settled_add_le_collected member unsettled
  refine Width.addSat_of_lt ?_
  lia

theorem registered (orderly : b.Orderly) (balanced : b.Balanced id) (record : Chain)
    (fresh : b.chain? record.id = none) (idle : record.staked = 0) :
    (b.putChain record).Balanced id := by
  intro chain known
  rw [Books.chain?_putChain] at known
  split at known
  · rename_i same
    cases known
    rw [← same] at fresh
    have unbonded : b.unbonded id = 0 := by
      simp [Books.unbonded, Books.redemptionTotal, orderly.no_redemptions fresh]
    have settled : b.settled id = 0 := by
      simp [Books.settled, Books.depositTotal, orderly.no_deposits fresh]
    have nothing : record.staked + b.unbonded id = b.settled id := by
      rw [idle, unbonded, settled]
    exact nothing
  · exact balanced chain known

theorem delegated (kept : b.WellKept) (balanced : b.Balanced id)
    (fits : b.collected id < Width.limit 128) {batch : DepositBatch} {chain : Chain}
    {shares : Allocation} (receipts : List Receipt) (known : b.chain? batch.chain = some chain)
    (found : b.deposit? batch.chain batch.epoch = some batch)
    (awaited : batch.status = .delegating) (sums : Allocation.sum shares = batch.amount) :
    ((b.putChain (chain.delegating receipts shares (Allocation.sum shares))).putDeposit
      { batch with status := .done }).Balanced id := by
  have unsettled : batch.settled = false := batch.settled_eq awaited
  have change := kept.depositTotal_put DepositBatch.settled DepositBatch.amount
    { batch with status := .done } found
  rw [part_ignored unsettled, part_counted rfl] at change
  intro chain' read
  have known' : (b.putChain (chain.delegating receipts shares (Allocation.sum shares))).chain?
      id = some chain' := read
  rw [Books.chain?_putChain, Chain.id_delegating, kept.chainKey known] at known'
  by_cases same : id = batch.chain
  · rw [if_pos same] at known'
    cases known'
    subst same
    have before := balanced chain known
    have exact_sum := balanced.addSat_staked fits known (Books.mem_deposits found).1 unsettled
    rw [← sums] at exact_sum
    have after : Width.addSat 128 chain.staked (Allocation.sum shares) +
        b.unbonded batch.chain =
          (b.putDeposit { batch with status := .done }).settled batch.chain := by
      simp only [Books.settled] at change before ⊢
      lia
    exact after
  · rw [if_neg same] at known'
    have other : (b.putDeposit { batch with status := .done }).settled id = b.settled id :=
      Books.depositTotal_put_other _ _ { batch with status := .done } same
    have after : chain'.staked + b.unbonded id =
        (b.putDeposit { batch with status := .done }).settled id := by
      rw [other]
      exact balanced chain' known'
    exact after

theorem unbonded (kept : b.WellKept) (solvent : b.Solvent) (balanced : b.Balanced id)
    {batch : RedemptionBatch} {chain : Chain} {shares : Allocation} (receipts : List Receipt)
    (completion : Seconds) (known : b.chain? batch.chain = some chain)
    (found : b.redemption? batch.chain batch.epoch = some batch)
    (awaited : batch.status = .starting) (sums : Allocation.sum shares = batch.redeemable) :
    ((b.putChain (chain.undelegating receipts shares (Allocation.sum shares))).putRedemption
      { batch with completion := some completion, status := .waiting }).Balanced id := by
  have held : batch.unbonded = false := batch.unbonded_eq awaited
  have promising : batch.holdsStake = true := batch.holdsStake_eq awaited
  have change := kept.redemptionTotal_put RedemptionBatch.unbonded RedemptionBatch.redeemable
    { batch with completion := some completion, status := .waiting } found
  rw [part_ignored held, part_counted rfl] at change
  intro chain' read
  have known' : (b.putChain (chain.undelegating receipts shares
      (Allocation.sum shares))).chain? id = some chain' := read
  rw [Books.chain?_putChain, Chain.id_undelegating, kept.chainKey known] at known'
  by_cases same : id = batch.chain
  · rw [if_pos same] at known'
    cases known'
    subst same
    have before := balanced chain known
    have covered := solvent.redeemable_le known (Books.mem_redemptions found).1 promising
    have after : chain.staked - Allocation.sum shares +
        (b.putRedemption { batch with
          completion := some completion, status := .waiting }).unbonded batch.chain =
            b.settled batch.chain := by
      simp only [Books.unbonded] at change before ⊢
      lia
    exact after
  · rw [if_neg same] at known'
    have other : (b.putRedemption { batch with
        completion := some completion, status := .waiting }).unbonded id = b.unbonded id :=
      Books.redemptionTotal_put_other _ _ { batch with
        completion := some completion, status := .waiting } same
    have after : chain'.staked + (b.putRedemption { batch with
        completion := some completion, status := .waiting }).unbonded id = b.settled id := by
      rw [other]
      exact balanced chain' known'
    exact after

end Balanced

end Books

/-- As long as what is collected is an amount, every move keeps the balance. -/
theorem Move.balanced (kept : b.WellKept) (orderly : b.Orderly) (solvent : b.Solvent)
    (fits : b.collected id < Width.limit 128) (balanced : b.Balanced id)
    (move : Move s b cause r)
    (founded : ∀ {op outcome}, cause = .heard op outcome → op.Founded b) :
    (b.applyAll r.commands).Balanced id := by
  cases move with
  | @registered registration sound fresh =>
      exact balanced.registered orderly registration.profile fresh rfl
  | revised known edge plain =>
      rw [Books.applyAll_chain]
      exact balanced.putChain kept _ known edge.revises.id edge.revises.staked
  | rewarded known edge told =>
      rw [Books.applyAll_chain]
      exact balanced.putChain kept _ known edge.revises.id edge.revises.staked
  | @repriced id' chain rate epoch known backed priced =>
      exact balanced.putChain kept { chain with rate } known rfl rfl
  | @deposited id' chain batch amount minted depositor known current found positive priced
      worthwhile fits =>
      have member := (Books.mem_deposits found).1
      obtain ⟨rfl, -, pending, -⟩ :=
        orderly.collecting_deposit kept current (by rw [found, Option.getD_some])
      have unsettled : batch.settled = false := batch.settled_eq pending
      refine balanced.same_chains rfl rfl
        (b.settled_put kept { batch with amount := batch.amount + amount } (.inl found) ?_)
      rw [part_ignored unsettled, part_ignored (by exact unsettled)]
  | @depositOpened id' chain epoch known current absent =>
      exact balanced.same_chains rfl rfl
        (b.settled_put kept (.empty id' epoch) (.inr ⟨absent, rfl⟩) rfl)
  | @depositMoved id' batch cause next op notices found edge plain =>
      obtain rfl := kept.depositKey (Books.mem_deposits found).1
      rw [Books.applyAll_deposit]
      exact balanced.same_chains rfl rfl
        (b.settled_put kept { batch with status := next } (.inl found) edge.settles)
  | @delegated id' chain batch shares total receipts notices found awaited known summed told =>
      obtain rfl := kept.depositKey (Books.mem_deposits found).1
      have sums := (founded rfl).delegation found
      obtain ⟨rfl, -⟩ := Allocation.total?_eq_some.mp summed
      exact balanced.delegated kept fits receipts known found awaited sums
  | @reinvested id' epoch batch amount receipts notices current found plain =>
      obtain ⟨rfl, rfl, pending, -, stored⟩ := orderly.collecting_deposit kept current found
      have unsettled : batch.settled = false := batch.settled_eq pending
      refine balanced.same_chains rfl rfl (b.settled_put kept (batch.reinvesting amount) stored ?_)
      rw [part_ignored unsettled, part_ignored (by exact unsettled)]
  | @redeemed id' chain epoch batch amount owed owner known current fresh positive priced
      worthwhile covered found burnedFits redeemableFits =>
      obtain ⟨rfl, rfl, pending, stored⟩ := orderly.collecting_redemption kept current found
      have held : batch.unbonded = false := batch.unbonded_eq pending
      refine balanced.same_chains rfl (b.unbonded_put kept (batch.joining amount owed
        (claimId batch.chain batch.epoch owner)) stored ?_) rfl
      rw [part_ignored held, part_ignored (by exact held)]
  | @redemptionMoved id' batch cause next op notices found edge plain =>
      obtain rfl := kept.redemptionKey (Books.mem_redemptions found).1
      rw [Books.applyAll_redemption]
      exact balanced.same_chains rfl (b.unbonded_put kept { batch with status := next }
        (.inl found) (part_same edge.unbonds rfl)) rfl
  | @unbonded id' chain batch shares total completion receipts notices found awaited known summed
      due told =>
      obtain rfl := kept.redemptionKey (Books.mem_redemptions found).1
      have sums := (founded rfl).undelegation found
      obtain ⟨rfl, -⟩ := Allocation.total?_eq_some.mp summed
      exact balanced.unbonded kept solvent receipts completion known found awaited sums
  | @released id' batch amount receipts notices found awaited plain =>
      obtain rfl := kept.redemptionKey (Books.mem_redemptions found).1
      rw [Books.applyAll_released]
      have found' : (b.release batch.members).redemption? batch.chain batch.epoch =
          some batch := by
        simpa using found
      have balanced' : (b.release batch.members).Balanced id := balanced.same_chains
        (b.chain?_release _) (by simp [Books.unbonded, Books.redemptionTotal])
        (by simp [Books.settled, Books.depositTotal])
      refine balanced'.same_chains rfl (Books.unbonded_put (kept.release _)
        { batch with status := .done } (.inl found') (part_same ?_ rfl)) rfl
      rw [RedemptionBatch.unbonded, RedemptionBatch.unbonded, awaited]
      rfl
  | requested | epochStarted | paid | quiet | stale | unanswered => exact balanced

/-! ## Derivative -/

namespace Books

theorem locked_joining (kept : b.WellKept) {batch : RedemptionBatch}
    (stored : b.redemption? batch.chain batch.epoch = some batch ∨
      (b.redemption? batch.chain batch.epoch = none ∧ batch = .empty batch.chain batch.epoch))
    (pending : batch.status = .pending) (amount owed : Amount) (member : String) (id : ChainId) :
    (b.putRedemption (batch.joining amount owed member)).locked id =
      b.locked id + if batch.chain = id then amount else 0 := by
  have holding : batch.holdsStake = true := batch.holdsStake_eq pending
  refine kept.redemptionTotal_grown RedemptionBatch.holdsStake RedemptionBatch.burned
    (batch.joining amount owed member) stored rfl amount ?_ id
  rw [part_counted holding, part_counted (by exact holding)]
  rfl

theorem locked_unbonded (kept : b.WellKept) {batch : RedemptionBatch} (completion : Seconds)
    (found : b.redemption? batch.chain batch.epoch = some batch)
    (awaited : batch.status = .starting) (id : ChainId) :
    (b.putRedemption { batch with completion := some completion, status := .waiting }).locked id +
        (if batch.chain = id then batch.burned else 0) = b.locked id := by
  have holding : batch.holdsStake = true := batch.holdsStake_eq awaited
  by_cases own : batch.chain = id
  · subst own
    have change := kept.redemptionTotal_put RedemptionBatch.holdsStake RedemptionBatch.burned
      { batch with completion := some completion, status := .waiting } found
    rw [part_counted holding, part_ignored rfl] at change
    simpa [locked] using change
  · rw [if_neg own]
    exact redemptionTotal_put_other _ _ { batch with
      completion := some completion, status := .waiting } (Ne.symm own)

theorem locked_released (kept : b.WellKept) {batch : RedemptionBatch}
    (found : b.redemption? batch.chain batch.epoch = some batch)
    (awaited : batch.status = .withdrawing) (id : ChainId) :
    ((b.release batch.members).putRedemption { batch with status := .done }).locked id =
      b.locked id := by
  have before : (b.release batch.members).locked id = b.locked id := by
    simp [locked, redemptionTotal]
  have found' : (b.release batch.members).redemption? batch.chain batch.epoch = some batch := by
    simpa using found
  rw [← before]
  refine (kept.release _).redemptionTotal_collect_same _ _ { batch with status := .done }
    (.inl found') rfl (part_same ?_ rfl) id
  rw [RedemptionBatch.holdsStake, RedemptionBatch.holdsStake, awaited]
  rfl

end Books

/-- A redemption locks derivative, and only the start of its batch burns it. -/
theorem Move.locked (kept : b.WellKept) (orderly : b.Orderly) (move : Move s b cause r)
    (id : ChainId) :
    (b.applyAll r.commands).locked id +
        (if cause.settles id then r.ordered Command.burnedAny else 0) =
      b.locked id + cause.redeemed id := by
  have tokenless (none : r.Tokenless) (same : (b.applyAll r.commands).locked id = b.locked id)
      (free : cause.redeemed id = 0) : (b.applyAll r.commands).locked id +
        (if cause.settles id then r.ordered Command.burnedAny else 0) =
          b.locked id + cause.redeemed id := by
    rw [none.ordered Command.burnedAny_eq_zero, same, free, ite_self]
  cases move with
  | revised known edge plain =>
      refine tokenless (.chain _ _ _) ?_ (by cases edge <;> rfl)
      rw [Books.applyAll_chain]
      rfl
  | rewarded known edge told =>
      refine tokenless (.chain _ _ _) ?_ (by cases edge <;> rfl)
      rw [Books.applyAll_chain]
      rfl
  | depositMoved found edge plain =>
      refine tokenless (.deposit _ _ _) ?_ (by cases edge <;> rfl)
      rw [Books.applyAll_deposit]
      rfl
  | @redeemed id' chain epoch batch amount owed owner known current fresh positive priced
      worthwhile covered found burnedFits redeemableFits =>
      obtain ⟨rfl, rfl, pending, stored⟩ := orderly.collecting_redemption kept current found
      exact b.locked_joining kept stored pending amount owed _ id
  | @redemptionMoved id' batch cause next op notices found edge plain =>
      obtain rfl := kept.redemptionKey (Books.mem_redemptions found).1
      refine tokenless (.redemption _ _ _) ?_ (by cases edge <;> rfl)
      rw [Books.applyAll_redemption]
      exact kept.redemptionTotal_collect_same _ _ { batch with status := next } (.inl found) rfl
        (part_same edge.promises rfl) id
  | @unbonded id' chain batch shares total completion receipts notices found awaited known summed
      due told =>
      obtain rfl := kept.redemptionKey (Books.mem_redemptions found).1
      have unlocked := b.locked_unbonded kept completion found awaited id
      simp only [Response.ordered_cons, Command.burnedAny, Nat.zero_add, Cause.settles,
        RemoteOp.chain, beq_iff_eq]
      exact unlocked
  | @released id' batch amount receipts notices found awaited plain =>
      obtain rfl := kept.redemptionKey (Books.mem_redemptions found).1
      refine tokenless (.released _ _ _) ?_ rfl
      rw [Books.applyAll_released]
      exact b.locked_released kept found awaited id
  | delegated | reinvested | stale | unanswered => exact tokenless (.of_all rfl) rfl rfl
  | registered | requested | repriced | epochStarted | deposited | depositOpened | paid
  | quiet => rfl

theorem Move.retired (issues : b.Issues id denom) (move : Move s b cause r) :
    r.ordered (Command.burned denom) =
      if cause.settles id then r.ordered Command.burnedAny else 0 := by
  have tokenless (none : r.Tokenless) : r.ordered (Command.burned denom) =
      if cause.settles id then r.ordered Command.burnedAny else 0 := by
    rw [none.ordered Command.burned_eq_zero, none.ordered Command.burnedAny_eq_zero, ite_self]
  cases move with
  | revised known edge plain => exact tokenless (.chain _ _ _)
  | rewarded known edge told => exact tokenless (.chain _ _ _)
  | depositMoved found edge plain => exact tokenless (.deposit _ _ _)
  | redemptionMoved found edge plain => exact tokenless (.redemption _ _ _)
  | released found awaited plain => exact tokenless (.released _ _ _)
  | deposited | paid => rfl
  | @unbonded id' chain batch shares total completion receipts notices found awaited known summed
      due told =>
      have own := issues id' chain known
      simp only [Response.ordered, List.map_cons, List.map_nil, Width.total_cons,
        Width.total_nil, Command.burned, Command.burnedAny, Cause.settles, RemoteOp.chain,
        beq_iff_eq, own, Nat.zero_add, Nat.add_zero]
  | registered | requested | repriced | epochStarted | depositOpened | delegated | reinvested
  | redeemed | quiet | stale | unanswered => exact tokenless (.of_all rfl)

/-! ## Runs -/

theorem HubState.after_retired (steps : List Step)
    (issues : (HubState.after steps).books.Issues id denom) :
    (Tally.after steps).burned denom = (Tally.after steps).retired id := by
  refine (after_preserves (P := fun t h => h.Sound ∧
    (h.books.Issues id denom → t.burned denom = t.retired id)) ⟨.initial, fun _ => rfl⟩
    ?_ steps).2 issues
  intro step t h cause r rest _ ⟨sound, before⟩ move takes _
  refine ⟨sound.move move takes, fun issues => ?_⟩
  have issues' := issues.before (move.follows sound.kept sound.orderly)
  have flow := move.retired issues'
  simp only [Tally.record, before issues', flow]

theorem HubState.after_locked (steps : List Step) (id : ChainId) :
    (Tally.after steps).redeemed id =
      (Tally.after steps).retired id + (HubState.after steps).books.locked id := by
  refine (after_preserves (P := fun t h => h.Sound ∧
    t.redeemed id = t.retired id + h.books.locked id) ⟨.initial, rfl⟩ ?_ steps).2
  intro step t h cause r rest _ holds move takes _
  refine ⟨holds.1.move move takes, ?_⟩
  have flow := move.locked holds.1.kept holds.1.orderly id
  have before := holds.2
  simp only [Tally.record, HubState.commit]
  omega

structure HubState.Settled (t : Tally) (h : HubState) (id : ChainId) : Prop where
  sound : h.Sound
  solvent : h.books.Solvent
  funded : h.Funded t id
  balanced : t.paidIn id < Width.limit 128 → h.books.Balanced id

namespace HubState.Settled

variable {t : Tally} {h : HubState} {rest : List RemoteOp}

theorem initial (id : ChainId) : Settled .zero .initial id :=
  ⟨.initial, .empty, Nat.le_refl 0, nofun⟩

theorem collected (settled : h.Settled t id) (below : t.paidIn id < Width.limit 128) :
    h.books.collected id < Width.limit 128 := by
  have funded := settled.funded
  simp only [HubState.Funded] at funded
  omega

theorem move (settled : h.Settled t id) (move : Move s h.books cause r)
    (takes : cause.Takes h.outstanding rest) :
    (HubState.commit ⟨h.books, rest⟩ r).Settled (t.record cause r) id where
  sound := settled.sound.move move takes
  solvent := move.solvent settled.sound.kept settled.sound.orderly settled.solvent
    (settled.sound.heard takes)
  funded := settled.funded.move settled.sound move takes
  balanced below := by
    have bound := Nat.lt_of_le_of_lt (t.paidIn_le_record cause r id) below
    exact move.balanced settled.sound.kept settled.sound.orderly settled.solvent
      (settled.collected bound) (settled.balanced bound) (settled.sound.heard takes)

end HubState.Settled

theorem HubState.after_settled (steps : List Step) (id : ChainId) :
    (HubState.after steps).Settled (Tally.after steps) id :=
  after_preserves (P := fun t h => h.Settled t id) (.initial id)
    (fun _ _ _ _ _ _ _ settled move takes _ => settled.move move takes) steps

theorem HubState.after_balanced (steps : List Step) (id : ChainId)
    (below : (Tally.after steps).paidIn id < Width.limit 128) :
    (HubState.after steps).books.Balanced id := (after_settled steps id).balanced below

/-- In every state of every run, as long as what is paid in for a chain is an
amount, the chain has staked what its delegation batches settled less what its
redemption batches unbonded.  And the derivative handed in for redemption is
what was burned and what batches still to be started hold, so each of them finds
what it has to burn.  If no other chain issues the derivative, what was burned on
acknowledgements of the chain is all of it that was burned. -/
theorem HubState.batches_settle_once (steps : List Step) (id : ChainId) :
    (∀ chain, (HubState.after steps).books.chain? id = some chain →
      (Tally.after steps).paidIn id < Width.limit 128 →
        chain.staked + (HubState.after steps).books.unbonded id =
          (HubState.after steps).books.settled id) ∧
      (Tally.after steps).redeemed id =
        (Tally.after steps).retired id + (HubState.after steps).books.locked id ∧
      (∀ denom, (HubState.after steps).books.Issues id denom →
        (Tally.after steps).burned denom = (Tally.after steps).retired id) ∧
      ∀ batch ∈ (HubState.after steps).books.redemptions id, batch.holdsStake = true →
        batch.burned ≤ (Tally.after steps).redeemed id - (Tally.after steps).retired id := by
  have burns := after_locked steps id
  refine ⟨fun chain known below => after_balanced steps id below chain known, burns,
    fun denom issues => after_retired steps issues, ?_⟩
  intro batch member holding
  have own := part_le_totalWhere RedemptionBatch.holdsStake RedemptionBatch.burned member
  rw [part_counted holding] at own
  simp only [Books.locked, Books.redemptionTotal] at burns
  lia

theorem HubState.batches_settle_once_sample :
    ∃ chain, (HubState.after Step.sampleUnbonding).books.chain? "cosmoshub" = some chain ∧
      chain.staked + (HubState.after Step.sampleUnbonding).books.unbonded "cosmoshub" =
        (HubState.after Step.sampleUnbonding).books.settled "cosmoshub" ∧
      (HubState.after Step.sampleUnbonding).books.unbonded "cosmoshub" = 400 ∧
      (Tally.after Step.sampleUnbonding).burned "statom" =
        (Tally.after Step.sampleUnbonding).retired "cosmoshub" ∧
      (Tally.after Step.sampleUnbonding).retired "cosmoshub" = 400 := by
  obtain ⟨chain, known⟩ : ∃ chain,
      (HubState.after Step.sampleUnbonding).books.chain? "cosmoshub" = some chain :=
    Option.isSome_iff_exists.mp (by decide +kernel)
  have issues : (HubState.after Step.sampleUnbonding).books.Issues "cosmoshub" "statom" :=
    (after_wellKept Step.sampleUnbonding).issues_only (by decide +kernel) (by decide +kernel)
  obtain ⟨balance, -, retired, -⟩ := batches_settle_once Step.sampleUnbonding "cosmoshub"
  exact ⟨chain, known, balance chain known (by decide +kernel), by decide +kernel,
    retired "statom" issues, by decide +kernel⟩

end LiquidStaking
