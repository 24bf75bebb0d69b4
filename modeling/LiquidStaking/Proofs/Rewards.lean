import LiquidStaking.Proofs.Answers
import LiquidStaking.Proofs.Dilution

/-!
# Rewards are reinvested once

All that was reported as rewards of a chain is held as pending, is on its way to
the delegate account, or was reinvested with one of the chain's batches.  A
transfer that does not arrive brings back what it took along.  Sums stop at the
largest amount, so this holds as long as what is paid in for the chain is one.
-/

namespace LiquidStaking

variable {s : Surroundings} {b : Books} {cause : Cause} {r : Response} {id : ChainId}
  {t : Tally} {h : HubState}

namespace Books

def reinvested (b : Books) (id : ChainId) : Nat :=
  b.depositTotal id (fun _ => true) DepositBatch.reinvested

theorem pendingRewards_of_known {chain : Chain} (known : b.chain? id = some chain) :
    b.pendingRewards id = chain.pendingRewards := by
  rw [pendingRewards, known]
  rfl

theorem reinvested_put (kept : b.WellKept) (id : ChainId) (record : DepositBatch)
    {batch : DepositBatch}
    (stored : b.deposit? record.chain record.epoch = some batch ∨
      (b.deposit? record.chain record.epoch = none ∧ batch = .empty record.chain record.epoch))
    (same : record.reinvested = batch.reinvested) :
    (b.putDeposit record).reinvested id = b.reinvested id :=
  kept.depositTotal_collect_same _ _ record stored rfl (part_same rfl same) id

theorem reinvested_grown (kept : b.WellKept) (id : ChainId) {batch : DepositBatch}
    {amount : Amount}
    (stored : b.deposit? batch.chain batch.epoch = some batch ∨
      (b.deposit? batch.chain batch.epoch = none ∧ batch = .empty batch.chain batch.epoch))
    (fits : batch.chain = id → batch.reinvested + amount < Width.limit 128) :
    (b.putDeposit (batch.reinvesting amount)).reinvested id =
      b.reinvested id + if batch.chain = id then amount else 0 :=
  kept.depositTotal_grown (fun _ => true) DepositBatch.reinvested (batch.reinvesting amount)
    stored rfl amount id fun own => Width.addSat_of_lt (fits own)

theorem Orderly.reinvested_le_collected (orderly : b.Orderly) {batch : DepositBatch}
    (stored : b.deposit? batch.chain batch.epoch = some batch ∨
      (b.deposit? batch.chain batch.epoch = none ∧ batch = .empty batch.chain batch.epoch)) :
    batch.reinvested ≤ b.collected batch.chain := by
  rcases stored with found | ⟨-, opened⟩
  · exact Nat.le_trans (orderly.depositFits (mem_deposits found).1).1
      (amount_le_collected (.inl found))
  · rw [opened]
    exact Nat.zero_le _

theorem pendingRewards_added (kept : b.WellKept) (id : ChainId) {other : ChainId}
    {chain : Chain} (record : Chain) (reported : Amount) (known : b.chain? other = some chain)
    (key : record.id = chain.id)
    (held : other = id → record.pendingRewards = chain.pendingRewards + reported) :
    (b.putChain record).pendingRewards id =
      b.pendingRewards id + if other = id then reported else 0 := by
  have change := b.pendingRewards_revised kept record known key id
  by_cases own : other = id
  · have grown := held own
    simp only [own, if_true] at change ⊢
    lia
  · simp only [own, if_false] at change ⊢
    lia

theorem pendingRewards_booked (kept : b.WellKept) (id : ChainId) {other : ChainId}
    {chain : Chain} (record : Chain) {receipts : List Receipt} (known : b.chain? other = some chain)
    (key : record.id = chain.id)
    (holds : record.pendingRewards = (Hub.holdRewards chain receipts).1.pendingRewards)
    (fits : b.pendingRewards id + (if other = id then Receipt.totalRewards receipts else 0) <
      Width.limit 128) :
    (b.putChain record).pendingRewards id =
      b.pendingRewards id + if other = id then Receipt.totalRewards receipts else 0 := by
  refine b.pendingRewards_added kept id record _ known key fun own => ?_
  rw [if_pos own, ← own, b.pendingRewards_of_known known] at fits
  rw [holds]
  exact Hub.holdRewards_pendingRewards chain receipts fits

end Books

/-! ## What an edge moves -/

theorem ChainEdge.answered {chain chain' : Chain} {ops : List RemoteOp}
    (edge : ChainEdge b id chain cause chain' ops) (other : ChainId) :
    cause.answered (RemoteOp.rewardsFor other) = 0 := by
  cases edge <;> rfl

theorem DepositEdge.answered {batch : DepositBatch} {next : DepositStatus} {op : Option RemoteOp}
    (edge : DepositEdge b id batch cause next op) (other : ChainId) :
    cause.answered (RemoteOp.rewardsFor other) = 0 := by
  cases edge <;> rfl

theorem RedemptionEdge.answered {batch : RedemptionBatch} {next : RedemptionStatus}
    {op : Option RemoteOp} (edge : RedemptionEdge s b id batch cause next op) (other : ChainId) :
    cause.answered (RemoteOp.rewardsFor other) = 0 := by
  cases edge <;> rfl

theorem RewardEdge.carries {chain chain' : Chain} {ops : List RemoteOp} {reported : Amount}
    (edge : RewardEdge b id chain cause chain' ops reported)
    (fits : chain.pendingRewards + cause.answered (RemoteOp.rewardsFor id) + reported <
      Width.limit 128) :
    chain'.pendingRewards + RemoteOp.total (RemoteOp.rewardsFor id) ops =
      chain.pendingRewards + cause.answered (RemoteOp.rewardsFor id) + reported := by
  cases edge with
  | collected held => simp [RemoteOp.rewardsFor, Cause.answered]
  | @forwarded validators receipts bothOpen held =>
      simp only [Cause.answered, RemoteOp.rewardsFor, Nat.add_zero] at fits ⊢
      rw [Width.addSat_of_lt (Nat.add_comm .. ▸ fits)]
      simp only [RemoteOp.total_cons, RemoteOp.total_nil, RemoteOp.rewardsFor, if_true]
      lia
  | @kept validators receipts held =>
      simp only [Cause.answered, RemoteOp.rewardsFor, Nat.add_zero] at fits ⊢
      rw [Width.addSat_of_lt (Nat.add_comm .. ▸ fits), RemoteOp.total_nil]
      lia
  | @bounced amount outcome unable =>
      simp only [Cause.answered, RemoteOp.rewardsFor, if_true, Nat.add_zero] at fits ⊢
      rw [Width.addSat_of_lt fits, RemoteOp.total_nil, Nat.add_zero]

theorem RewardEdge.carries_other {chain chain' : Chain} {ops : List RemoteOp} {reported : Amount}
    (edge : RewardEdge b id chain cause chain' ops reported) {other : ChainId}
    (differ : id ≠ other) :
    RemoteOp.total (RemoteOp.rewardsFor other) ops = 0 ∧
      cause.answered (RemoteOp.rewardsFor other) = 0 := by
  cases edge <;> simp [RemoteOp.rewardsFor, Cause.answered, differ]

theorem RewardEdge.moves (kept : b.WellKept) {owner : ChainId} {chain chain' : Chain}
    {ops : List RemoteOp} {reported : Amount} (known : b.chain? owner = some chain)
    (edge : RewardEdge b owner chain cause chain' ops reported) (id : ChainId)
    (fits : b.pendingRewards id + cause.answered (RemoteOp.rewardsFor id) +
      (if owner = id then reported else 0) < Width.limit 128) :
    (b.putChain chain').pendingRewards id + RemoteOp.total (RemoteOp.rewardsFor id) ops =
      b.pendingRewards id +
        (cause.answered (RemoteOp.rewardsFor id) + if owner = id then reported else 0) := by
  have change := b.pendingRewards_revised kept chain' known edge.revises.id id
  by_cases own : owner = id
  · subst own
    have held := b.pendingRewards_of_known known
    simp only [↓reduceIte] at change fits ⊢
    have carried := edge.carries (by lia)
    lia
  · obtain ⟨none, nothing⟩ := edge.carries_other own
    simp only [own, ↓reduceIte] at change ⊢
    lia

/-! ## One move -/

theorem Hub.unanswered_rewards {op : RemoteOp} {outcome : Outcome}
    (known : ∃ chain, b.chain? op.chain = some chain)
    (failed : ∀ response, resolve b.view s op outcome ≠ .ok response) (id : ChainId) :
    op.rewardsFor id = 0 := by
  cases op with
  | transferRewards target amount =>
      obtain ⟨chain, known⟩ := known
      have proceeds : ∃ r, proceed b.view s (.transferRewards target amount) outcome = .ok r :=
        rewardsTransferred_answers known
      obtain ⟨response, answer⟩ := resolve_of_proceeds known proceeds
      exact absurd answer (failed response)
  | _ => rfl

variable (cause r) in
theorem Response.rewards_of (joined held : Nat)
    (reinvested : (b.applyAll r.commands).reinvested id = b.reinvested id + joined)
    (pending : (b.applyAll r.commands).pendingRewards id +
      RemoteOp.total (RemoteOp.rewardsFor id) r.dispatched = b.pendingRewards id + held)
    (sources : joined + held = cause.answered (RemoteOp.rewardsFor id) + r.rewarded id) :
    (b.applyAll r.commands).reinvested id + (b.applyAll r.commands).pendingRewards id +
        RemoteOp.total (RemoteOp.rewardsFor id) r.dispatched =
      b.reinvested id + b.pendingRewards id + cause.answered (RemoteOp.rewardsFor id) +
        r.rewarded id := by
  omega

/-- A move leaves as pending, on the way or reinvested what was there and what is reported. -/
theorem Move.rewards (id : ChainId) (kept : b.WellKept) (orderly : b.Orderly)
    (move : Move s b cause r)
    (fits : b.collected id + b.pendingRewards id + cause.answered (RemoteOp.rewardsFor id) +
      r.rewarded id < Width.limit 128)
    (founded : ∀ {op outcome}, cause = .heard op outcome → op.Founded b) :
    (b.applyAll r.commands).reinvested id + (b.applyAll r.commands).pendingRewards id +
        RemoteOp.total (RemoteOp.rewardsFor id) r.dispatched =
      b.reinvested id + b.pendingRewards id + cause.answered (RemoteOp.rewardsFor id) +
        r.rewarded id := by
  -- Most moves tell of no rewards, and neither hear of any nor start to move any.
  have unmoved (same : (b.applyAll r.commands).reinvested id = b.reinvested id)
      (held : (b.applyAll r.commands).pendingRewards id = b.pendingRewards id)
      (still : RemoteOp.total (RemoteOp.rewardsFor id) r.dispatched = 0)
      (unheard : cause.answered (RemoteOp.rewardsFor id) = 0) (silent : r.rewarded id = 0) :=
    Response.rewards_of cause r 0 0 same (by rw [held, still]) (by rw [unheard, silent])
  cases move with
  | @registered registration sound fresh =>
      exact unmoved rfl (b.pendingRewards_registered registration.profile fresh rfl id) rfl rfl rfl
  | @revised other chain chain' cause ops notices known edge plain =>
      rw [Books.applyAll_chain, Response.dispatched_chain] at unmoved ⊢
      exact unmoved rfl
        (b.pendingRewards_kept kept chain' known edge.revises.id edge.pendingRewards id)
        (edge.starts _ rfl) (edge.answered id) (plain id)
  | @rewarded other chain chain' cause ops reported notices known edge told =>
      rw [Response.rewarded_mk, told] at fits
      have moved := edge.moves kept known id (by omega)
      have same : (b.putChain chain').reinvested id = b.reinvested id := rfl
      rw [Books.applyAll_chain, Response.dispatched_chain, Response.rewarded_mk, told, same]
      omega
  | requested known kind =>
      refine unmoved rfl rfl ?_ rfl rfl
      rcases kind with rfl | ⟨validators, rfl⟩ <;> rfl
  | @repriced other chain rate epoch known backed priced =>
      exact unmoved rfl (b.pendingRewards_kept kept { chain with rate } known rfl rfl id)
        rfl rfl rfl
  | @deposited other chain batch amount minted depositor known current found positive priced
      worthwhile fits' =>
      obtain rfl := kept.depositKey (Books.mem_deposits found).1
      have same := b.reinvested_put kept id
        { batch with amount := batch.amount + amount } (.inl found) rfl
      exact unmoved same rfl rfl rfl rfl
  | @depositOpened other chain epoch known current absent =>
      have same := b.reinvested_put kept id (.empty other epoch) (.inr ⟨absent, rfl⟩) rfl
      exact unmoved same rfl rfl rfl rfl
  | @depositMoved other batch cause next op notices found edge plain =>
      obtain rfl := kept.depositKey (Books.mem_deposits found).1
      have same := b.reinvested_put kept id { batch with status := next } (.inl found) rfl
      rw [Books.applyAll_deposit, Response.dispatched_deposit] at unmoved ⊢
      exact unmoved same rfl (edge.starts _ (fun _ => rfl) fun _ => rfl) (edge.answered id)
        (plain id)
  | @delegated other chain batch shares total receipts notices found awaited known summed told =>
      obtain rfl := kept.depositKey (Books.mem_deposits found).1
      have same := Books.reinvested_put (kept.putChain (chain.delegating receipts shares total)) id
        { batch with status := .done } (.inl found) rfl
      rw [Response.rewarded_mk, told] at fits
      have held := b.pendingRewards_booked kept id (chain.delegating receipts shares total) known
        (by simp) rfl (by omega)
      exact Response.rewards_of _ _ 0 _ same held (by rw [← told id]; rfl)
  | @reinvested other epoch batch amount receipts notices current found plain =>
      obtain ⟨rfl, rfl, -, -, stored⟩ := orderly.collecting_deposit kept current found
      have silent : Response.rewarded id ⟨[.deposit (batch.reinvesting amount)], notices⟩ = 0 :=
        plain id
      have grown := b.reinvested_grown kept id stored fun own => by
        subst own
        have room := orderly.reinvested_le_collected stored
        rw [silent, Cause.answered, RemoteOp.rewardsFor, if_pos rfl] at fits
        show batch.reinvested + amount < _
        lia
      exact Response.rewards_of _ _ _ 0 grown rfl (by rw [silent]; rfl)
  | @redemptionMoved other batch cause next op notices found edge plain =>
      rw [Books.applyAll_redemption, Response.dispatched_redemption] at unmoved ⊢
      exact unmoved rfl rfl (edge.starts _ (fun _ => rfl) fun _ => rfl) (edge.answered id)
        (plain id)
  | @unbonded other chain batch shares total completion receipts notices found awaited known
      summed due told =>
      rw [Response.rewarded_mk, told] at fits
      have held := b.pendingRewards_booked kept id (chain.undelegating receipts shares total) known
        (by simp) rfl (by omega)
      exact Response.rewards_of _ _ 0 _ rfl held (by rw [← told id]; rfl)
  | released found awaited plain =>
      rw [Books.applyAll_released, Response.dispatched_released] at unmoved ⊢
      exact unmoved (by simp [Books.reinvested, Books.depositTotal])
        (by simp [Books.pendingRewards]) rfl rfl (plain id)
  | quiet plain => exact unmoved rfl rfl rfl rfl (plain id)
  | @stale op outcome notices stale plain =>
      refine unmoved rfl rfl rfl ?_ (plain id)
      cases op with
      | transferRewards target amount => exact stale.elim
      | _ => rfl
  | unanswered failed =>
      exact unmoved rfl rfl rfl (Hub.unanswered_rewards (founded rfl).1 failed id) rfl
  | epochStarted | redeemed | paid => exact unmoved rfl rfl rfl rfl rfl

/-! ## Runs -/

structure HubState.Rewarded (t : Tally) (h : HubState) (id : ChainId) : Prop where
  sound : h.Sound
  funded : h.Funded t id
  accounted : t.paidIn id < Width.limit 128 → t.rewarded id = h.books.reinvested id +
    h.books.pendingRewards id + RemoteOp.total (RemoteOp.rewardsFor id) h.outstanding

theorem HubState.Rewarded.move {rest : List RemoteOp} (rewarded : h.Rewarded t id)
    (move : Move s h.books cause r) (takes : cause.Takes h.outstanding rest) :
    (HubState.commit ⟨h.books, rest⟩ r).Rewarded (t.record cause r) id where
  sound := rewarded.sound.move move takes
  funded := rewarded.funded.move rewarded.sound move takes
  accounted below := by
    have sound := rewarded.sound
    have funded := rewarded.funded
    have before := rewarded.accounted (Nat.lt_of_le_of_lt (t.paidIn_le_record cause r id) below)
    have taken := takes.total (RemoteOp.rewardsFor id)
    rw [t.paidIn_record] at below
    simp only [HubState.Funded] at funded
    have flow := move.rewards id sound.kept sound.orderly (by omega) (sound.heard takes)
    simp only [Tally.record, HubState.commit, RemoteOp.total_append]
    omega

/-- As long as what is paid in for a chain is an amount, the rewards reported for it
are pending, on their way to the delegate account, or reinvested with its batches. -/
theorem HubState.rewards_conserved (steps : List Step) (id : ChainId) (chain : Chain)
    (known : (after steps).books.chain? id = some chain)
    (below : (Tally.after steps).paidIn id < Width.limit 128) :
    (Tally.after steps).rewarded id =
      chain.pendingRewards +
        RemoteOp.total (RemoteOp.rewardsFor id) (after steps).outstanding +
        (after steps).books.reinvested id := by
  have rewarded := after_preserves (P := fun t h => h.Rewarded t id)
    ⟨.initial, Nat.le_refl 0, fun _ => rfl⟩
    (fun _ _ _ _ _ _ _ rewarded move takes _ => rewarded.move move takes) steps
  rw [rewarded.accounted below, (after steps).books.pendingRewards_of_known known]
  omega

def Step.sampleHoldings : List Step :=
  sampleRewards ++
    [.acknowledge (.sample 600 0) 1 (.success [.rewards 5]),
      .acknowledge (.sample 600 0) 0 (.success [.rewards 7])]

theorem HubState.rewards_conserved_sample :
    ∃ chain, (after Step.sampleHoldings).books.chain? "cosmoshub" = some chain ∧
      chain.pendingRewards = 7 ∧
      (after Step.sampleHoldings).outstanding = [.transferRewards "cosmoshub" 5] ∧
      (Tally.after Step.sampleHoldings).rewarded "cosmoshub" =
        7 + 5 + (after Step.sampleHoldings).books.reinvested "cosmoshub" := by
  obtain ⟨chain, known⟩ : ∃ chain,
      (after Step.sampleHoldings).books.chain? "cosmoshub" = some chain :=
    Option.isSome_iff_exists.mp (by decide +kernel)
  have held : ((after Step.sampleHoldings).books.chain? "cosmoshub").map Chain.pendingRewards =
      some 7 := by decide +kernel
  have moving : (after Step.sampleHoldings).outstanding = [.transferRewards "cosmoshub" 5] := by
    decide +kernel
  have carried : RemoteOp.total (RemoteOp.rewardsFor "cosmoshub")
      [.transferRewards "cosmoshub" 5] = 5 := by decide +kernel
  rw [known] at held
  have conserved := rewards_conserved Step.sampleHoldings "cosmoshub" chain known
    (by decide +kernel)
  rw [Option.some.inj held, moving, carried] at conserved
  exact ⟨chain, known, Option.some.inj held, moving, by lia⟩

end LiquidStaking
