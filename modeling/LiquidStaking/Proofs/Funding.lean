import LiquidStaking.Proofs.Orderly

/-!
# What is collected was paid in

The batches of a chain, the rewards it holds and the rewards on their way to its
delegate account never amount to more than the deposits accepted and the rewards
reported.  Where a sum stops at the largest amount something is lost, so this is
an inequality; it is also what keeps every other sum from getting that large.
-/

namespace LiquidStaking

variable {s : Surroundings} {b : Books} {cause : Cause} {r : Response}

def RemoteOp.rewardsFor (id : ChainId) : RemoteOp → Amount
  | .transferRewards chain amount => if chain = id then amount else 0
  | _ => 0

def RemoteOp.total (figure : RemoteOp → Nat) (ops : List RemoteOp) : Nat :=
  Width.total (ops.map figure)

def Cause.answered (figure : RemoteOp → Nat) : Cause → Nat
  | .heard op _ => figure op
  | _ => 0

namespace Books

def collected (b : Books) (id : ChainId) : Nat :=
  b.depositTotal id (fun _ => true) DepositBatch.amount

/-- Rewards held by the unbond account; none of a chain that is not registered. -/
def pendingRewards (b : Books) (id : ChainId) : Nat := (b.chain? id).elim 0 Chain.pendingRewards

end Books

/-! ## Sums over outstanding operations -/

namespace RemoteOp

variable (figure : RemoteOp → Nat)

@[simp] theorem total_nil : total figure [] = 0 := rfl

@[simp] theorem total_cons (op : RemoteOp) (ops : List RemoteOp) :
    total figure (op :: ops) = figure op + total figure ops := rfl

@[simp] theorem total_append (first second : List RemoteOp) :
    total figure (first ++ second) = total figure first + total figure second := by
  simp [total]

theorem total_perm {first second : List RemoteOp} (perm : first.Perm second) :
    total figure first = total figure second := Width.total_perm (perm.map figure)

theorem total_eq_countP {counts : RemoteOp → Bool}
    (indicator : ∀ op, figure op = (counts op).toNat) (ops : List RemoteOp) :
    total figure ops = ops.countP counts := by
  induction ops with
  | nil => rfl
  | cons op ops ih =>
      rw [total_cons, List.countP_cons, ih, indicator op]
      cases counts op <;> simp [Nat.add_comm]

end RemoteOp

theorem Cause.Takes.total {before after : List RemoteOp} (takes : cause.Takes before after)
    (figure : RemoteOp → Nat) :
    RemoteOp.total figure before = cause.answered figure + RemoteOp.total figure after := by
  cases cause with
  | asked request =>
      rw [show after = before from takes]
      simp [answered]
  | heard op outcome => exact RemoteOp.total_perm figure takes
  | closed chain account =>
      rw [show after = before from takes]
      simp [answered]

/-! ## What a write changes -/

namespace Books

theorem pendingRewards_putChain (record : Chain) (id : ChainId) :
    (b.putChain record).pendingRewards id =
      if id = record.id then record.pendingRewards else b.pendingRewards id := by
  simp only [pendingRewards, chain?_putChain]
  split <;> rfl

theorem pendingRewards_revised (kept : b.WellKept) {id : ChainId} {chain : Chain}
    (record : Chain) (known : b.chain? id = some chain) (key : record.id = chain.id)
    (other : ChainId) :
    (b.putChain record).pendingRewards other + (if id = other then chain.pendingRewards else 0) =
      b.pendingRewards other + if id = other then record.pendingRewards else 0 := by
  rw [pendingRewards_putChain, key, kept.chainKey known]
  by_cases same : id = other
  · subst same
    simp [pendingRewards, known]
    lia
  · simp [same, Ne.symm same]

theorem pendingRewards_registered (record : Chain) (fresh : b.chain? record.id = none)
    (nothing : record.pendingRewards = 0) (id : ChainId) :
    (b.putChain record).pendingRewards id = b.pendingRewards id := by
  rw [pendingRewards_putChain]
  split
  · rename_i own
    rw [own, pendingRewards, fresh, nothing]
    rfl
  · rfl

theorem pendingRewards_kept (kept : b.WellKept) {id : ChainId} {chain : Chain} (record : Chain)
    (known : b.chain? id = some chain) (key : record.id = chain.id)
    (same : record.pendingRewards = chain.pendingRewards) (other : ChainId) :
    (b.putChain record).pendingRewards other = b.pendingRewards other := by
  have change := b.pendingRewards_revised kept record known key other
  rw [same] at change
  exact Nat.add_right_cancel change

theorem pendingRewards_held (kept : b.WellKept) {id : ChainId} {chain : Chain} (record : Chain)
    {reported : Amount} (known : b.chain? id = some chain) (key : record.id = chain.id)
    (held : record.pendingRewards ≤ chain.pendingRewards + reported) (other : ChainId) :
    (b.putChain record).pendingRewards other ≤
      b.pendingRewards other + if id = other then reported else 0 := by
  have change := b.pendingRewards_revised kept record known key other
  by_cases same : id = other
  · simp only [same, if_true] at change ⊢
    lia
  · simp only [same, if_false] at change ⊢
    lia

theorem collected_restatus (kept : b.WellKept) {id : ChainId} {batch : DepositBatch}
    (found : b.deposit? id batch.epoch = some batch) (next : DepositStatus) (other : ChainId) :
    (b.putDeposit { batch with status := next }).collected other = b.collected other := by
  obtain rfl := kept.depositKey (mem_deposits found).1
  exact kept.depositTotal_collect_same _ _ { batch with status := next } (.inl found) rfl rfl other

theorem amount_le_collected {batch : DepositBatch}
    (stored : b.deposit? batch.chain batch.epoch = some batch ∨
      (b.deposit? batch.chain batch.epoch = none ∧ batch = .empty batch.chain batch.epoch)) :
    batch.amount ≤ b.collected batch.chain := by
  rcases stored with found | ⟨-, opened⟩
  · exact part_le_totalWhere (fun _ => true) DepositBatch.amount (mem_deposits found).1
  · rw [opened]
    exact Nat.zero_le _

end Books

/-! ## What an edge starts -/

section Edges

variable {id : ChainId} (figure : RemoteOp → Nat)

theorem ChainEdge.starts {chain chain' : Chain} {ops : List RemoteOp}
    (edge : ChainEdge b id chain cause chain' ops)
    (nothing : figure (.setWithdrawAddress id) = 0) : RemoteOp.total figure ops = 0 := by
  cases edge with
  | opened account address => split <;> simp [nothing]
  | restaffed sound noDelegation noUndelegation noneAbandoned => rfl
  | withdrawAddressSet receipts => rfl
  | closed account => rfl

theorem RewardEdge.starts {chain chain' : Chain} {ops : List RemoteOp} {reported : Amount}
    (edge : RewardEdge b id chain cause chain' ops reported)
    (nothing : ∀ amount, figure (.transferRewards id amount) = 0) :
    RemoteOp.total figure ops = 0 := by
  cases edge with
  | collected held => simp [nothing]
  | forwarded bothOpen held => simp [nothing]
  | kept held => rfl
  | bounced unable => rfl

/-- What a chain holds and starts to move is what it held, heard of or is told of. -/
theorem RewardEdge.funds {chain chain' : Chain} {ops : List RemoteOp} {reported : Amount}
    (edge : RewardEdge b id chain cause chain' ops reported) (other : ChainId) :
    (if id = other then chain'.pendingRewards else 0) +
        RemoteOp.total (RemoteOp.rewardsFor other) ops ≤
      (if id = other then chain.pendingRewards else 0) +
        cause.answered (RemoteOp.rewardsFor other) + if id = other then reported else 0 := by
  by_cases same : id = other
  · simp only [same, if_true]
    cases edge with
    | collected held => simp [RemoteOp.rewardsFor, same]
    | @forwarded validators receipts bothOpen held =>
        have := Width.addSat_le 128 (Receipt.totalRewards receipts) chain.pendingRewards
        simp only [RemoteOp.total_cons, RemoteOp.total_nil, RemoteOp.rewardsFor, same, if_true]
        lia
    | @kept validators receipts held =>
        have := Width.addSat_le 128 (Receipt.totalRewards receipts) chain.pendingRewards
        simp only [RemoteOp.total_nil]
        lia
    | @bounced amount outcome unable =>
        have := Width.addSat_le 128 chain.pendingRewards amount
        simp only [RemoteOp.total_nil, Cause.answered, RemoteOp.rewardsFor, same, if_true]
        lia
  · cases edge <;> simp [RemoteOp.rewardsFor, same]

theorem DepositEdge.starts {batch : DepositBatch} {next : DepositStatus} {op : Option RemoteOp}
    (edge : DepositEdge b id batch cause next op)
    (noTransfer : ∀ amount, figure (.transferDeposit id batch.epoch amount) = 0)
    (noDelegation : ∀ shares, figure (.delegate id batch.epoch shares) = 0) :
    RemoteOp.total figure op.toList = 0 := by
  cases edge <;> simp [noTransfer, noDelegation]

theorem RedemptionEdge.starts {batch : RedemptionBatch} {next : RedemptionStatus}
    {op : Option RemoteOp} (edge : RedemptionEdge s b id batch cause next op)
    (noUndelegation : ∀ shares, figure (.undelegate id batch.epoch shares) = 0)
    (noWithdrawal : ∀ amount, figure (.withdrawUnbonded id batch.epoch amount) = 0) :
    RemoteOp.total figure op.toList = 0 := by
  cases edge <;> simp [noUndelegation, noWithdrawal]

end Edges

/-! ## One move -/

variable (cause r) in
theorem Response.funded_of {id : ChainId} (joined held : Nat)
    (collected : (b.applyAll r.commands).collected id ≤ b.collected id + joined)
    (rewards : (b.applyAll r.commands).pendingRewards id +
      RemoteOp.total (RemoteOp.rewardsFor id) r.dispatched ≤ b.pendingRewards id + held)
    (paid : joined + held ≤
      cause.answered (RemoteOp.rewardsFor id) + cause.deposited id + r.rewarded id) :
    (b.applyAll r.commands).collected id + (b.applyAll r.commands).pendingRewards id +
        RemoteOp.total (RemoteOp.rewardsFor id) r.dispatched ≤
      b.collected id + b.pendingRewards id + cause.answered (RemoteOp.rewardsFor id) +
        cause.deposited id + r.rewarded id := by
  omega

/-- No move collects, holds or moves more than it takes in. -/
theorem Move.funded (kept : b.WellKept) (orderly : b.Orderly) (move : Move s b cause r)
    (id : ChainId) :
    (b.applyAll r.commands).collected id + (b.applyAll r.commands).pendingRewards id +
        RemoteOp.total (RemoteOp.rewardsFor id) r.dispatched ≤
      b.collected id + b.pendingRewards id + cause.answered (RemoteOp.rewardsFor id) +
        cause.deposited id + r.rewarded id := by
  -- Most moves start to move no rewards and add to nothing.
  have unmoved (same : (b.applyAll r.commands).collected id = b.collected id)
      (held : (b.applyAll r.commands).pendingRewards id = b.pendingRewards id)
      (still : RemoteOp.total (RemoteOp.rewardsFor id) r.dispatched = 0) :=
    Response.funded_of cause r 0 0 (Nat.le_of_eq same)
      (Nat.le_of_eq (by rw [held, still])) (Nat.zero_le _)
  cases move with
  | @registered registration sound fresh =>
      exact unmoved rfl (b.pendingRewards_registered registration.profile fresh rfl id) rfl
  | @revised id' chain chain' cause ops notices known edge plain =>
      rw [Books.applyAll_chain, Response.dispatched_chain] at unmoved ⊢
      exact unmoved rfl
        (b.pendingRewards_kept kept chain' known edge.revises.id edge.pendingRewards id)
        (edge.starts _ rfl)
  | @rewarded id' chain chain' cause ops reported notices known edge told =>
      have change := b.pendingRewards_revised kept chain' known edge.revises.id id
      have flow := edge.funds id
      have same : (b.putChain chain').collected id = b.collected id := rfl
      rw [Response.dispatched_chain, Books.applyAll_chain, same, Response.rewarded_mk, told]
      lia
  | requested known kind =>
      refine unmoved rfl rfl ?_
      rcases kind with rfl | ⟨validators, rfl⟩ <;> rfl
  | @repriced id' chain rate epoch known backed priced =>
      exact unmoved rfl (b.pendingRewards_kept kept { chain with rate } known rfl rfl id) rfl
  | @deposited id' chain batch amount minted depositor known current found positive priced
      worthwhile fits =>
      obtain rfl := kept.depositKey (Books.mem_deposits found).1
      have grown := kept.depositTotal_grown_le (fun _ => true) DepositBatch.amount
        { batch with amount := batch.amount + amount } (.inl found) rfl amount (Nat.le_refl _) id
      exact Response.funded_of _ _ _ 0 grown (Nat.le_refl _)
        (Nat.le_of_eq (by simp [Cause.deposited, Cause.answered, Response.rewarded]))
  | @depositOpened id' chain epoch known current absent =>
      exact unmoved (kept.depositTotal_collect_same _ _ (.empty id' epoch) (.inr ⟨absent, rfl⟩)
        rfl rfl id) rfl rfl
  | @depositMoved id' batch cause next op notices found edge plain =>
      rw [Books.applyAll_deposit, Response.dispatched_deposit] at unmoved ⊢
      exact unmoved (b.collected_restatus kept found next id) rfl
        (edge.starts _ (fun _ => rfl) fun _ => rfl)
  | @delegated id' chain batch shares total receipts notices found awaited known summed told =>
      have same := Books.collected_restatus
        (kept.putChain (chain.delegating receipts shares total)) found .done id
      have held := b.pendingRewards_held kept (chain.delegating receipts shares total) known
        (by simp) (Hub.holdRewards_pendingRewards_le chain receipts) id
      rw [← told id] at held
      exact Response.funded_of _ _ 0 _ (Nat.le_of_eq same) held
        (Nat.add_le_add_right (Nat.zero_le _) _)
  | @reinvested id' epoch batch amount receipts notices current found plain =>
      obtain ⟨rfl, rfl, -, -, stored⟩ := orderly.collecting_deposit kept current found
      have grown := kept.depositTotal_grown_le (fun _ => true) DepositBatch.amount
        (batch.reinvesting amount) stored rfl amount (Width.addSat_le 128 batch.amount amount) id
      exact Response.funded_of _ _ _ 0 grown (Nat.le_refl _)
        (Nat.le_add_right_of_le (Nat.le_refl _))
  | @redemptionMoved id' batch cause next op notices found edge plain =>
      rw [Books.applyAll_redemption, Response.dispatched_redemption] at unmoved ⊢
      exact unmoved rfl rfl (edge.starts _ (fun _ => rfl) fun _ => rfl)
  | @unbonded id' chain batch shares total completion receipts notices found awaited known summed
      due told =>
      have held := b.pendingRewards_held kept (chain.undelegating receipts shares total) known
        (by simp) (Hub.holdRewards_pendingRewards_le chain receipts) id
      rw [← told id] at held
      exact Response.funded_of _ _ 0 _ (Nat.le_refl _) held
        (Nat.add_le_add_right (Nat.zero_le _) _)
  | released found awaited plain =>
      rw [Books.applyAll_released, Response.dispatched_released] at unmoved ⊢
      exact unmoved (by simp [Books.collected, Books.depositTotal])
        (by simp [Books.pendingRewards]) rfl
  | epochStarted | redeemed | paid | quiet | stale | unanswered => exact unmoved rfl rfl rfl

/-! ## Runs -/

/-- What a run has paid in for a chain: deposits accepted and rewards reported. -/
def Tally.paidIn (t : Tally) (id : ChainId) : Nat := t.deposited id + t.rewarded id

def HubState.Funded (t : Tally) (h : HubState) (id : ChainId) : Prop :=
  h.books.collected id + h.books.pendingRewards id +
    RemoteOp.total (RemoteOp.rewardsFor id) h.outstanding ≤ t.paidIn id

theorem Tally.paidIn_record (t : Tally) (cause : Cause) (r : Response) (id : ChainId) :
    (t.record cause r).paidIn id = t.paidIn id + cause.deposited id + r.rewarded id := by
  simp only [paidIn, record]
  omega

theorem Tally.paidIn_le_record (t : Tally) (cause : Cause) (r : Response) (id : ChainId) :
    t.paidIn id ≤ (t.record cause r).paidIn id := by
  rw [paidIn_record]
  omega

theorem HubState.Funded.move {t : Tally} {h : HubState} {rest : List RemoteOp} {id : ChainId}
    (funded : h.Funded t id) (sound : h.Sound) (move : Move s h.books cause r)
    (takes : cause.Takes h.outstanding rest) :
    (HubState.commit ⟨h.books, rest⟩ r).Funded (t.record cause r) id := by
  have flow := move.funded sound.kept sound.orderly id
  have taken := takes.total (RemoteOp.rewardsFor id)
  simp only [HubState.Funded, HubState.commit, Tally.paidIn_record,
    RemoteOp.total_append] at funded ⊢
  omega

theorem HubState.after_funded (steps : List Step) (id : ChainId) :
    (HubState.after steps).Funded (Tally.after steps) id :=
  (after_preserves (P := fun t h => h.Sound ∧ h.Funded t id) ⟨.initial, Nat.le_refl 0⟩
    (fun _ _ _ _ _ _ _ holds move takes _ =>
      ⟨holds.1.move move takes, holds.2.move holds.1 move takes⟩) steps).2

end LiquidStaking
