import LiquidStaking.Proofs.Settlement

/-!
# What becomes of one batch

Seen from the batch of a chain and an epoch, a move opens it, adds to it while it
collects, moves it along or settles it, or it leaves it as it was.  So what a batch
keeps through each of these it keeps through every run: a batch on its way carries
something, and a redemption batch has a completion time from when it is unbonded.
-/

namespace LiquidStaking

variable {s : Surroundings} {b c : Books} {cause : Cause} {r : Response} {id : ChainId}
  {epoch : Epoch}

/-! ## Changes -/

inductive DepositChange (b : Books) (id : ChainId) (epoch : Epoch) :
    Cause → Option DepositBatch → DepositBatch → Prop
  | opened (current : b.epoch? .delegation = some epoch) :
      DepositChange b id epoch (.asked (.startEpoch .delegation epoch)) none (.empty id epoch)
  | deposited {batch : DepositBatch} {amount : Amount} {depositor : Address}
      (current : b.epoch? .delegation = some epoch) (pending : batch.status = .pending) :
      DepositChange b id epoch (.asked (.deposit id amount depositor)) (some batch)
        { batch with amount := batch.amount + amount }
  | reinvested {before : Option DepositBatch} {batch : DepositBatch} {amount : Amount}
      {receipts : List Receipt} (current : b.epoch? .delegation = some epoch)
      (found : batch = before.getD (.empty id epoch)) (pending : batch.status = .pending) :
      DepositChange b id epoch (.heard (.transferRewards id amount) (.success receipts)) before
        (batch.reinvesting amount)
  | moved {batch : DepositBatch} {cause : Cause} {next : DepositStatus} {op : Option RemoteOp}
      (own : batch.epoch = epoch) (edge : DepositEdge b id batch cause next op) :
      DepositChange b id epoch cause (some batch) { batch with status := next }
  | settled {batch : DepositBatch} {shares : Allocation} {receipts : List Receipt}
      (awaited : batch.status = .delegating) :
      DepositChange b id epoch (.heard (.delegate id epoch shares) (.success receipts))
        (some batch) { batch with status := .done }

inductive RedemptionChange (s : Surroundings) (b : Books) (id : ChainId) (epoch : Epoch) :
    Cause → Option RedemptionBatch → RedemptionBatch → Prop
  | joined {before : Option RedemptionBatch} {batch : RedemptionBatch} {amount owed : Amount}
      {owner : Address} (current : b.epoch? .undelegation = some epoch)
      (found : batch = before.getD (.empty id epoch)) (pending : batch.status = .pending)
      (worthwhile : owed ≠ 0) :
      RedemptionChange s b id epoch (.asked (.redeem id amount owner)) before
        (batch.joining amount owed (claimId id epoch owner))
  | moved {batch : RedemptionBatch} {cause : Cause} {next : RedemptionStatus}
      {op : Option RemoteOp} (own : batch.epoch = epoch)
      (edge : RedemptionEdge s b id batch cause next op) :
      RedemptionChange s b id epoch cause (some batch) { batch with status := next }
  | unbonded {batch : RedemptionBatch} {shares : Allocation} {receipts : List Receipt}
      {completion : Seconds} (awaited : batch.status = .starting) :
      RedemptionChange s b id epoch (.heard (.undelegate id epoch shares) (.success receipts))
        (some batch) { batch with completion := some completion, status := .waiting }
  | released {batch : RedemptionBatch} {amount : Amount} {receipts : List Receipt}
      (awaited : batch.status = .withdrawing) :
      RedemptionChange s b id epoch
        (.heard (.withdrawUnbonded id epoch amount) (.success receipts)) (some batch)
        { batch with status := .done }

namespace Books

theorem deposit?_put_or (record : DepositBatch) {P : DepositBatch → Prop}
    (own : id = record.chain → epoch = record.epoch → P record) :
    (b.putDeposit record).deposit? id epoch = b.deposit? id epoch ∨
      ∃ batch, (b.putDeposit record).deposit? id epoch = some batch ∧ P batch := by
  rw [deposit?_putDeposit]
  split
  · rename_i same
    exact .inr ⟨record, rfl, own same.1 same.2⟩
  · exact .inl rfl

theorem redemption?_put_or (record : RedemptionBatch) {P : RedemptionBatch → Prop}
    (own : id = record.chain → epoch = record.epoch → P record) :
    (b.putRedemption record).redemption? id epoch = b.redemption? id epoch ∨
      ∃ batch, (b.putRedemption record).redemption? id epoch = some batch ∧ P batch := by
  rw [redemption?_putRedemption]
  split
  · rename_i same
    exact .inr ⟨record, rfl, own same.1 same.2⟩
  · exact .inl rfl

end Books

theorem Move.deposit_change (kept : b.WellKept) (orderly : b.Orderly) (move : Move s b cause r)
    (id : ChainId) (epoch : Epoch) :
    (b.applyAll r.commands).deposit? id epoch = b.deposit? id epoch ∨
      ∃ batch, (b.applyAll r.commands).deposit? id epoch = some batch ∧
        DepositChange b id epoch cause (b.deposit? id epoch) batch := by
  cases move with
  | @deposited id' chain batch amount minted depositor known current found positive priced
      worthwhile fits =>
      obtain ⟨rfl, -, pending, -⟩ :=
        orderly.collecting_deposit kept current (by rw [found, Option.getD_some])
      refine Books.deposit?_put_or { batch with amount := batch.amount + amount } ?_
      rintro rfl rfl
      rw [found]
      exact .deposited current pending
  | @depositOpened id' chain epoch' known current absent =>
      refine Books.deposit?_put_or (.empty id' epoch') ?_
      rintro rfl rfl
      rw [DepositBatch.empty, absent]
      exact .opened current
  | @depositMoved id' batch cause next op notices found edge plain =>
      obtain rfl := kept.depositKey (Books.mem_deposits found).1
      rw [Books.applyAll_deposit]
      refine Books.deposit?_put_or { batch with status := next } ?_
      rintro rfl rfl
      rw [found]
      exact .moved rfl edge
  | @delegated id' chain batch shares total receipts notices found awaited known summed told =>
      obtain rfl := kept.depositKey (Books.mem_deposits found).1
      refine Books.deposit?_put_or (b := b.putChain (chain.delegating receipts shares total))
        { batch with status := .done } ?_
      rintro rfl rfl
      rw [found]
      exact .settled awaited
  | @reinvested id' epoch' batch amount receipts notices current found plain =>
      obtain ⟨rfl, rfl, pending, -⟩ := orderly.collecting_deposit kept current found
      refine Books.deposit?_put_or (batch.reinvesting amount) ?_
      rintro rfl rfl
      exact .reinvested current found pending
  | revised known edge plain => exact .inl (by rw [Books.applyAll_chain]; rfl)
  | rewarded known edge told => exact .inl (by rw [Books.applyAll_chain]; rfl)
  | redemptionMoved found edge plain => exact .inl (by rw [Books.applyAll_redemption]; rfl)
  | released found awaited plain =>
      refine .inl ?_
      rw [Books.applyAll_released]
      simp [Books.deposit?]
  | registered | requested | repriced | epochStarted | redeemed | unbonded | paid | quiet
  | stale | unanswered => exact .inl rfl

theorem Move.redemption_change (kept : b.WellKept) (orderly : b.Orderly)
    (move : Move s b cause r) (id : ChainId) (epoch : Epoch) :
    (b.applyAll r.commands).redemption? id epoch = b.redemption? id epoch ∨
      ∃ batch, (b.applyAll r.commands).redemption? id epoch = some batch ∧
        RedemptionChange s b id epoch cause (b.redemption? id epoch) batch := by
  cases move with
  | @redeemed id' chain epoch' batch amount owed owner known current fresh positive priced
      worthwhile covered found burnedFits redeemableFits =>
      obtain ⟨rfl, rfl, pending, -⟩ := orderly.collecting_redemption kept current found
      refine Books.redemption?_put_or
        (batch.joining amount owed (claimId batch.chain batch.epoch owner)) ?_
      rintro rfl rfl
      exact .joined current found pending worthwhile
  | @redemptionMoved id' batch cause next op notices found edge plain =>
      obtain rfl := kept.redemptionKey (Books.mem_redemptions found).1
      rw [Books.applyAll_redemption]
      refine Books.redemption?_put_or { batch with status := next } ?_
      rintro rfl rfl
      rw [found]
      exact .moved rfl edge
  | @unbonded id' chain batch shares total completion receipts notices found awaited known summed
      due told =>
      obtain rfl := kept.redemptionKey (Books.mem_redemptions found).1
      refine Books.redemption?_put_or (b := b.putChain (chain.undelegating receipts shares total))
        { batch with completion := some completion, status := .waiting } ?_
      rintro rfl rfl
      rw [found]
      exact .unbonded awaited
  | @released id' batch amount receipts notices found awaited plain =>
      obtain rfl := kept.redemptionKey (Books.mem_redemptions found).1
      have same : (b.release batch.members).redemption? id epoch = b.redemption? id epoch := by
        simp [Books.redemption?]
      rw [Books.applyAll_released, ← same]
      refine Books.redemption?_put_or { batch with status := .done } ?_
      rintro rfl rfl
      rw [same, found]
      exact .released awaited
  | revised known edge plain => exact .inl (by rw [Books.applyAll_chain]; rfl)
  | rewarded known edge told => exact .inl (by rw [Books.applyAll_chain]; rfl)
  | depositMoved found edge plain => exact .inl (by rw [Books.applyAll_deposit]; rfl)
  | registered | requested | repriced | epochStarted | deposited | depositOpened | delegated
  | reinvested | paid | quiet | stale | unanswered => exact .inl rfl

/-! ## What batches carry -/

def DepositBatch.Laden (batch : DepositBatch) : Prop :=
  match batch.status with
  | .transferring | .transferFailed => batch.net ≠ 0
  | .delegating | .failed => batch.amount ≠ 0
  | .pending | .done => True

theorem DepositBatch.amount_of_net {batch : DepositBatch} (held : batch.net ≠ 0) :
    batch.amount ≠ 0 := by
  intro none
  simp [net, none] at held

structure RedemptionBatch.Laden (batch : RedemptionBatch) : Prop where
  redeems : batch.redeemable ≠ 0
  /-- There is a completion time from when the batch is unbonded. -/
  dated : batch.completion.isSome = batch.unbonded

theorem DepositChange.laden {before : Option DepositBatch} {after : DepositBatch}
    (change : DepositChange b id epoch cause before after)
    (laden : ∀ batch, before = some batch → batch.Laden) : after.Laden := by
  cases change with
  | opened current => trivial
  | deposited current pending => simp [DepositBatch.Laden, pending]
  | reinvested current found pending =>
      simp [DepositBatch.Laden, DepositBatch.reinvesting, pending]
  | settled awaited => trivial
  | @moved batch cause next op own edge =>
      have carried := laden batch rfl
      cases edge with
      | emptied current earlier due nothing => trivial
      | sent current earlier due known isOpen held => exact held
      | divided current earlier due known isOpen something gone shared => exact something
      | redriven awaited known isOpen shared | transferReset awaited | delegationReset awaited
      | returned awaited failed | refused awaited failed =>
          simp only [DepositBatch.Laden, awaited] at carried
          exact carried
      | stranded awaited known isClosed | arrived awaited known isOpen shared =>
          simp only [DepositBatch.Laden, awaited] at carried
          exact DepositBatch.amount_of_net carried

theorem RedemptionEdge.keeps_unbonded {batch : RedemptionBatch} {next : RedemptionStatus}
    {op : Option RemoteOp} (edge : RedemptionEdge s b id batch cause next op) :
    next.unbonded = batch.status.unbonded := by
  cases edge with
  | started current earlier due known isOpen shared =>
      rcases due with same | same <;> rw [same] <;> rfl
  | withdrawn current earlier due known isOpen =>
      rcases due with ⟨same, -⟩ | same <;> rw [same] <;> rfl
  | startReset awaited | withdrawalReset awaited => rw [awaited]; rfl
  | refused awaited failed | stayed awaited failed => rw [awaited]; rfl

theorem RedemptionChange.laden {before : Option RedemptionBatch} {after : RedemptionBatch}
    (change : RedemptionChange s b id epoch cause before after)
    (laden : ∀ batch, before = some batch → batch.Laden) : after.Laden := by
  cases change with
  | @joined before batch amount owed owner current found pending worthwhile =>
      refine ⟨by simp only [RedemptionBatch.joining]; lia, ?_⟩
      cases before with
      | none =>
          cases found
          rfl
      | some old =>
          cases found
          exact (laden _ rfl).dated
  | @moved batch cause next op own edge =>
      obtain ⟨redeems, dated⟩ := laden batch rfl
      exact ⟨redeems, dated.trans edge.keeps_unbonded.symm⟩
  | @unbonded batch shares receipts completion awaited => exact ⟨(laden batch rfl).redeems, rfl⟩
  | @released batch amount receipts awaited =>
      obtain ⟨redeems, dated⟩ := laden batch rfl
      refine ⟨redeems, dated.trans ?_⟩
      rw [batch.unbonded_eq awaited]
      rfl

structure Books.Laden (b : Books) : Prop where
  deposit : ∀ {id epoch batch}, b.deposit? id epoch = some batch → batch.Laden
  redemption : ∀ {id epoch batch}, b.redemption? id epoch = some batch → batch.Laden

theorem Move.laden (kept : b.WellKept) (orderly : b.Orderly) (laden : b.Laden)
    (move : Move s b cause r) : (b.applyAll r.commands).Laden where
  deposit {id epoch batch} found := by
    rcases move.deposit_change kept orderly id epoch with same | ⟨after, written, change⟩
    · exact laden.deposit (same ▸ found)
    · cases found.symm.trans written
      exact change.laden fun _ stored => laden.deposit stored
  redemption {id epoch batch} found := by
    rcases move.redemption_change kept orderly id epoch with same | ⟨after, written, change⟩
    · exact laden.redemption (same ▸ found)
    · cases found.symm.trans written
      exact change.laden fun _ stored => laden.redemption stored

/-! ## What operations carry -/

def RemoteOp.Laden : RemoteOp → Prop
  | .transferDeposit _ _ amount => amount ≠ 0
  | .delegate _ _ shares => Allocation.sum shares ≠ 0
  | .undelegate _ _ shares => Allocation.sum shares ≠ 0
  | .withdrawUnbonded _ _ amount => amount ≠ 0
  | _ => True

theorem DepositEdge.op_laden {batch : DepositBatch} {next : DepositStatus}
    {op : RemoteOp} (staffed : ∀ chain, b.chain? id = some chain → chain.validators ≠ [])
    (laden : batch.Laden) (edge : DepositEdge b id batch cause next (some op)) : op.Laden := by
  have shared_all {chain : Chain} {shares : Allocation} (known : b.chain? id = some chain)
      (shared : Allocation.byWeight? batch.amount chain.validators = some shares)
      (something : batch.amount ≠ 0) : Allocation.sum shares ≠ 0 := by
    rwa [(Allocation.byWeight?_sum (staffed chain known) shared).1]
  cases edge with
  | sent current earlier due known isOpen held => exact held
  | divided current earlier due known isOpen something gone shared =>
      exact shared_all known shared something
  | redriven failed known isOpen shared =>
      simp only [DepositBatch.Laden, failed] at laden
      exact shared_all known shared laden
  | arrived awaited known isOpen shared =>
      simp only [DepositBatch.Laden, awaited] at laden
      exact shared_all known shared (DepositBatch.amount_of_net laden)

theorem RedemptionEdge.op_laden {batch : RedemptionBatch} {next : RedemptionStatus}
    {op : RemoteOp} (staffed : ∀ chain, b.chain? id = some chain → chain.validators ≠ [])
    (laden : batch.Laden) (edge : RedemptionEdge s b id batch cause next (some op)) :
    op.Laden := by
  cases edge with
  | started current earlier due known isOpen shared =>
      simpa [RemoteOp.Laden, Allocation.withinHoldings?_sum (staffed _ known) shared]
        using laden.redeems
  | withdrawn current earlier due known isOpen => exact laden.redeems

theorem Move.op_laden (orderly : b.Orderly) (laden : b.Laden) (move : Move s b cause r)
    {op : RemoteOp} (started : op ∈ r.dispatched) : op.Laden := by
  have staffed {id : ChainId} (chain : Chain) (known : b.chain? id = some chain) :
      chain.validators ≠ [] := orderly.staffed known
  rcases move.started started with ⟨free, -⟩ | ⟨id, batch, next, found, edge, -⟩ |
    ⟨id, batch, next, found, edge, -⟩
  · cases op with
    | transferDeposit | delegate | undelegate | withdrawUnbonded => cases free
    | withdrawRewards | transferRewards | setWithdrawAddress => trivial
  · exact edge.op_laden staffed (laden.deposit found)
  · exact edge.op_laden staffed (laden.redemption found)

/-! ## Runs -/

structure HubState.Laden (h : HubState) : Prop where
  sound : h.Sound
  books : h.books.Laden
  ops : ∀ op ∈ h.outstanding, op.Laden

theorem HubState.Laden.move {h : HubState} {rest : List RemoteOp} (laden : h.Laden)
    (move : Move s h.books cause r) (takes : cause.Takes h.outstanding rest) :
    (HubState.commit ⟨h.books, rest⟩ r).Laden where
  sound := laden.sound.move move takes
  books := move.laden laden.sound.kept laden.sound.orderly laden.books
  ops op member := by
    rcases List.mem_append.mp member with old | started
    · exact laden.ops op (takes.subset op old)
    · exact move.op_laden laden.sound.orderly laden.books started

theorem HubState.after_laden (steps : List Step) : (after steps).Laden :=
  after_preserves (P := fun _ h => h.Laden) ⟨.initial, ⟨nofun, nofun⟩, nofun⟩
    (fun _ _ _ _ _ _ _ laden move takes _ => laden.move move takes) steps

end LiquidStaking
