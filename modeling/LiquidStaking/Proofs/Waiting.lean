import LiquidStaking.Proofs.Orderly

/-!
# Waiting for an acknowledgement

The status of a batch tells which leg of its way it waits to hear of, if any.  A
move lets a batch begin to wait and starts the one operation it waits for, or it
ends the wait, on word of such an operation or by a reset, or it leaves both the
wait and the operations for that stage alone.
-/

namespace LiquidStaking

variable {s : Surroundings} {b c : Books} {cause : Cause} {r : Response} {id : ChainId}
  {stage : Stage} {answered : Prop}

def DepositStatus.leg? : DepositStatus → Option Leg
  | .transferring => some .transfer
  | .delegating => some .delegation
  | _ => none

def RedemptionStatus.leg? : RedemptionStatus → Option Leg
  | .starting => some .undelegation
  | .withdrawing => some .withdrawal
  | _ => none

theorem DepositStatus.leg?_transfer {status : DepositStatus} :
    status.leg? = some .transfer ↔ status = .transferring := by
  cases status <;> simp [leg?]

theorem DepositStatus.leg?_delegation {status : DepositStatus} :
    status.leg? = some .delegation ↔ status = .delegating := by
  cases status <;> simp [leg?]

theorem RedemptionStatus.leg?_undelegation {status : RedemptionStatus} :
    status.leg? = some .undelegation ↔ status = .starting := by
  cases status <;> simp [leg?]

theorem RedemptionStatus.leg?_withdrawal {status : RedemptionStatus} :
    status.leg? = some .withdrawal ↔ status = .withdrawing := by
  cases status <;> simp [leg?]

def Books.awaits (b : Books) (stage : Stage) : Bool :=
  if stage.leg.ofDeposit then
    (b.deposit? stage.chain stage.epoch).any fun batch =>
      decide (batch.status.leg? = some stage.leg)
  else
    (b.redemption? stage.chain stage.epoch).any fun batch =>
      decide (batch.status.leg? = some stage.leg)

namespace Cause

def answers (stage : Stage) : Cause → Bool
  | .heard op _ => op.serves stage
  | _ => false

def releases (stage : Stage) (cause : Cause) : Bool := cause.answers stage || cause.drops stage

def Answered (s : Surroundings) (b : Books) (stage : Stage) (cause : Cause) : Prop :=
  ∀ op outcome, cause = .heard op outcome → op.serves stage = true →
    ∃ response, Hub.resolve b.view s op outcome = .ok response

end Cause

/-- Whether a batch waits for a stage before and after, how many operations are
started for the stage, and whether what it waits for is released.  A release goes
by where the batch does not wait, or where the hub has no answer. -/
inductive Turn (answered : Prop) (before after : Bool) (started : Nat) (released : Bool) : Prop
  | begun (idle : before = false) (waiting : after = true) (one : started = 1)
      (kept : released = false)
  | finished (waiting : before = true) (idle : after = false) (none : started = 0)
      (freed : released = true)
  | same (unchanged : after = before) (none : started = 0)
      (missed : released = true → before = false ∨ ¬answered)

theorem Turn.ended {before after released : Bool} {started : Nat}
    (turn : Turn answered before after started released) (freed : released = true)
    (word : answered) : after = false := by
  cases turn with
  | begun idle waiting one kept => cases freed.symm.trans kept
  | finished waiting idle none freed => exact idle
  | same unchanged none missed =>
      rw [unchanged]
      exact (missed freed).resolve_right fun unanswered => unanswered word

/-! ## Changes of status -/

/-- The batch of a chain and an epoch waited for the leg `before`, and then waits
for the leg `after`, for which an operation is started. -/
structure Shift (id : ChainId) (epoch : Epoch) (ofDeposit : Bool) (cause : Cause)
    (op : Option RemoteOp) (before after : Option Leg) : Prop where
  own : ∀ {leg}, after = some leg → leg.ofDeposit = ofDeposit
  begins : op.bind RemoteOp.stage? = after.map (Stage.mk id epoch)
  /-- A batch that waits moves on word of what it waits for, or by a reset. -/
  ends : ∀ {leg}, before = some leg →
    cause.releases ⟨id, epoch, leg⟩ = true ∧ after ≠ some leg
  /-- Only stages of the batch are released, and it does not wait for them again. -/
  frees : ∀ {stage : Stage}, cause.releases stage = true → stage.chain = id ∧
    stage.epoch = epoch ∧ stage.leg.ofDeposit = ofDeposit ∧ after ≠ some stage.leg

namespace Shift

variable {epoch : Epoch} {ofDeposit : Bool} {op : Option RemoteOp} {before after : Option Leg}

theorem started (shift : Shift id epoch ofDeposit cause op before after) (stage : Stage) :
    op.toList.countP (RemoteOp.serves stage) =
      if id = stage.chain ∧ epoch = stage.epoch ∧ after = some stage.leg then 1 else 0 := by
  have begins := shift.begins
  cases op with
  | none =>
      cases after with
      | none => simp
      | some leg => cases begins
  | some op =>
      rw [Option.bind_some] at begins
      cases after with
      | none => simp [RemoteOp.serves, begins]
      | some leg =>
          obtain ⟨chain, epoch', leg'⟩ := stage
          simp [RemoteOp.serves, begins]

theorem heard {op : RemoteOp} {outcome : Outcome} {leg : Leg}
    (serves : op.stage? = some ⟨id, epoch, leg⟩) (kind : leg.ofDeposit = ofDeposit) :
    Shift id epoch ofDeposit (.heard op outcome) none (some leg) none where
  own awaited := by cases awaited
  begins := rfl
  ends same := by
    cases same
    simp [Cause.releases, Cause.answers, RemoteOp.serves, serves]
  frees freed := by
    simp only [Cause.releases, Cause.answers, Cause.drops, Bool.or_false, RemoteOp.serves_iff,
      serves, Option.some.injEq] at freed
    subst freed
    exact ⟨rfl, rfl, kind, (Option.some_ne_none _).symm⟩

theorem turn (shift : Shift id epoch ofDeposit cause op before after) (stage : Stage)
    {waited waits : Bool}
    (changed : stage.leg.ofDeposit = ofDeposit → stage.chain = id → stage.epoch = epoch →
      waited = decide (before = some stage.leg) ∧ waits = decide (after = some stage.leg))
    (unchanged : ¬(stage.leg.ofDeposit = ofDeposit ∧ stage.chain = id ∧ stage.epoch = epoch) →
      waits = waited) :
    Turn answered waited waits (op.toList.countP (RemoteOp.serves stage))
      (cause.releases stage) := by
  rw [shift.started]
  by_cases own : stage.leg.ofDeposit = ofDeposit ∧ stage.chain = id ∧ stage.epoch = epoch
  · obtain ⟨chain, epoch', leg⟩ := stage
    obtain ⟨kind, rfl, rfl⟩ := own
    obtain ⟨rfl, rfl⟩ := changed kind rfl rfl
    by_cases waiting : before = some leg
    · obtain ⟨freed, left⟩ := shift.ends waiting
      exact .finished (by simpa using waiting) (by simpa using left) (by simp [left]) freed
    · by_cases awaited : after = some leg
      · refine .begun (by simpa using waiting) (by simpa using awaited) (by simp [awaited]) ?_
        by_contra freed
        exact (shift.frees (by simpa using freed)).2.2.2 awaited
      · exact .same (by simp [waiting, awaited]) (by simp [awaited])
          fun _ => .inl (by simp [waiting])
  · refine .same (unchanged own) (if_neg fun started => own ?_) fun freed => absurd ?_ own
    · exact ⟨shift.own started.2.2, started.1.symm, started.2.1.symm⟩
    · obtain ⟨sameChain, sameEpoch, kind, -⟩ := shift.frees freed
      exact ⟨kind, sameChain, sameEpoch⟩

end Shift

theorem DepositStatus.leg?_due {status : DepositStatus} (due : status.awaitsEpoch = true) :
    status.leg? = none := by
  revert due
  cases status <;> decide

theorem DepositEdge.shift {batch : DepositBatch} {next : DepositStatus} {op : Option RemoteOp}
    (edge : DepositEdge b id batch cause next op) :
    Shift id batch.epoch true cause op batch.status.leg? next.leg? where
  own awaited := by cases next <;> cases awaited <;> rfl
  begins := by cases edge <;> rfl
  ends {leg} awaited := by
    have late (due : batch.status.awaitsEpoch = true) : False := by
      rw [DepositStatus.leg?_due due] at awaited
      cases awaited
    cases edge with
    | emptied current earlier due nothing => exact (late due).elim
    | sent current earlier due known isOpen held => exact (late due).elim
    | divided current earlier due known isOpen something gone shared => exact (late due).elim
    | redriven failed known isOpen shared =>
        rw [failed] at awaited
        cases awaited
    | transferReset waiting | delegationReset waiting =>
        rw [waiting] at awaited
        cases awaited
        simp [Cause.releases, Cause.drops, Leg.ofDeposit, DepositStatus.leg?]
    | returned waiting failed | stranded waiting known isClosed
    | arrived waiting known isOpen shared | refused waiting failed =>
        rw [waiting] at awaited
        cases awaited
        simp [Cause.releases, Cause.answers, RemoteOp.serves, RemoteOp.stage?, DepositStatus.leg?]
  frees {stage} freed := by
    cases edge with
    | emptied | sent | divided | redriven => cases freed
    | transferReset | delegationReset =>
        simp only [Cause.releases, Cause.answers, Cause.drops, Bool.false_or, Bool.and_eq_true,
          beq_iff_eq] at freed
        obtain ⟨⟨sameChain, sameEpoch⟩, ofDeposit⟩ := freed
        exact ⟨sameChain.symm, sameEpoch.symm, ofDeposit, (Option.some_ne_none _).symm⟩
    | returned | stranded | arrived | refused =>
        simp only [Cause.releases, Cause.answers, Cause.drops, Bool.or_false, RemoteOp.serves_iff,
          RemoteOp.stage?, Option.some.injEq] at freed
        subst freed
        exact ⟨rfl, rfl, rfl, by simp [DepositStatus.leg?]⟩

theorem RedemptionEdge.shift {batch : RedemptionBatch} {next : RedemptionStatus}
    {op : Option RemoteOp} (edge : RedemptionEdge s b id batch cause next op) :
    Shift id batch.epoch false cause op batch.status.leg? next.leg? where
  own awaited := by cases next <;> cases awaited <;> rfl
  begins := by cases edge <;> rfl
  ends {leg} awaited := by
    cases edge with
    | started current earlier due known isOpen shared =>
        rcases due with pending | failed
        · rw [pending] at awaited
          cases awaited
        · rw [failed] at awaited
          cases awaited
    | withdrawn current earlier due known isOpen =>
        rcases due with ⟨waiting, -⟩ | failed
        · rw [waiting] at awaited
          cases awaited
        · rw [failed] at awaited
          cases awaited
    | startReset waiting | withdrawalReset waiting =>
        rw [waiting] at awaited
        cases awaited
        simp [Cause.releases, Cause.drops, Leg.ofDeposit, RedemptionStatus.leg?]
    | refused waiting failed | stayed waiting failed =>
        rw [waiting] at awaited
        cases awaited
        simp [Cause.releases, Cause.answers, RemoteOp.serves, RemoteOp.stage?,
          RedemptionStatus.leg?]
  frees {stage} freed := by
    cases edge with
    | started | withdrawn => cases freed
    | startReset | withdrawalReset =>
        simp only [Cause.releases, Cause.answers, Cause.drops, Bool.false_or, Bool.and_eq_true,
          beq_iff_eq, Bool.not_eq_true'] at freed
        obtain ⟨⟨sameChain, sameEpoch⟩, ofRedemption⟩ := freed
        exact ⟨sameChain.symm, sameEpoch.symm, ofRedemption, (Option.some_ne_none _).symm⟩
    | refused | stayed =>
        simp only [Cause.releases, Cause.answers, Cause.drops, Bool.or_false, RemoteOp.serves_iff,
          RemoteOp.stage?, Option.some.injEq] at freed
        subst freed
        exact ⟨rfl, rfl, rfl, (Option.some_ne_none _).symm⟩

/-! ## Writing a batch -/

namespace Books

theorem awaits_empty (stage : Stage) : Books.empty.awaits stage = false := by
  rw [awaits]
  split <;> rfl

theorem awaits_congr (deposits : c.deposits = b.deposits)
    (redemptions : c.redemptions = b.redemptions) (stage : Stage) :
    c.awaits stage = b.awaits stage := by
  simp only [awaits, deposit?, redemption?, deposits, redemptions]

theorem awaits_putDeposit (record : DepositBatch) (stage : Stage) :
    (b.putDeposit record).awaits stage =
      if stage.leg.ofDeposit = true ∧ stage.chain = record.chain ∧ stage.epoch = record.epoch then
        decide (record.status.leg? = some stage.leg)
      else b.awaits stage := by
  simp only [awaits, deposit?_putDeposit]
  by_cases ofDeposit : stage.leg.ofDeposit
  · by_cases own : stage.chain = record.chain ∧ stage.epoch = record.epoch <;>
      simp [ofDeposit, own]
  · simp [ofDeposit, redemption?]

theorem awaits_putRedemption (record : RedemptionBatch) (stage : Stage) :
    (b.putRedemption record).awaits stage =
      if stage.leg.ofDeposit = false ∧ stage.chain = record.chain ∧ stage.epoch = record.epoch then
        decide (record.status.leg? = some stage.leg)
      else b.awaits stage := by
  simp only [awaits, redemption?_putRedemption]
  by_cases ofDeposit : stage.leg.ofDeposit
  · simp [ofDeposit, deposit?]
  · by_cases own : stage.chain = record.chain ∧ stage.epoch = record.epoch <;>
      simp [ofDeposit, own]

theorem idle_deposit (ofDeposit : stage.leg.ofDeposit = true) :
    b.awaits stage = false ↔ ∀ batch, b.deposit? stage.chain stage.epoch = some batch →
      batch.status.leg? ≠ some stage.leg := by
  rw [awaits, if_pos ofDeposit]
  cases b.deposit? stage.chain stage.epoch <;> simp

theorem idle_redemption (ofRedemption : stage.leg.ofDeposit = false) :
    b.awaits stage = false ↔ ∀ batch, b.redemption? stage.chain stage.epoch = some batch →
      batch.status.leg? ≠ some stage.leg := by
  rw [awaits, if_neg (by simp [ofRedemption])]
  cases b.redemption? stage.chain stage.epoch <;> simp

theorem awaits_putDeposit_pending (record : DepositBatch) (pending : record.status = .pending)
    {batch : DepositBatch}
    (stored : b.deposit? record.chain record.epoch = some batch ∨
      (b.deposit? record.chain record.epoch = none ∧ batch = .empty record.chain record.epoch))
    (collected : batch.status = .pending) (stage : Stage) :
    (b.putDeposit record).awaits stage = b.awaits stage := by
  rw [awaits_putDeposit]
  split
  · rename_i own
    obtain ⟨ofDeposit, sameChain, sameEpoch⟩ := own
    rw [awaits, if_pos ofDeposit, sameChain, sameEpoch, pending]
    rcases stored with found | ⟨absent, -⟩
    · rw [found, Option.any_some, collected]
    · rw [absent]
      rfl
  · rfl

theorem awaits_putRedemption_pending (record : RedemptionBatch)
    (pending : record.status = .pending) {batch : RedemptionBatch}
    (stored : b.redemption? record.chain record.epoch = some batch ∨
      (b.redemption? record.chain record.epoch = none ∧
        batch = .empty record.chain record.epoch))
    (collected : batch.status = .pending) (stage : Stage) :
    (b.putRedemption record).awaits stage = b.awaits stage := by
  rw [awaits_putRedemption]
  split
  · rename_i own
    obtain ⟨ofRedemption, sameChain, sameEpoch⟩ := own
    rw [awaits, if_neg (by simp [ofRedemption]), sameChain, sameEpoch, pending]
    rcases stored with found | ⟨absent, -⟩
    · rw [found, Option.any_some, collected]
    · rw [absent]
      rfl
  · rfl

end Books

namespace Shift

variable {op : Option RemoteOp}

theorem putDeposit {batch : DepositBatch} (record : DepositBatch)
    (found : b.deposit? record.chain record.epoch = some batch)
    (shift : Shift record.chain record.epoch true cause op batch.status.leg? record.status.leg?)
    (stage : Stage) :
    Turn answered (b.awaits stage) ((b.putDeposit record).awaits stage)
      (op.toList.countP (RemoteOp.serves stage)) (cause.releases stage) := by
  refine shift.turn stage (fun ofDeposit sameChain sameEpoch => ?_) fun differ => ?_
  · rw [Books.awaits_putDeposit, if_pos ⟨ofDeposit, sameChain, sameEpoch⟩, Books.awaits,
      if_pos ofDeposit, sameChain, sameEpoch, found]
    exact ⟨rfl, rfl⟩
  · rw [Books.awaits_putDeposit, if_neg differ]

theorem putRedemption {batch : RedemptionBatch} (record : RedemptionBatch)
    (found : b.redemption? record.chain record.epoch = some batch)
    (shift : Shift record.chain record.epoch false cause op batch.status.leg?
      record.status.leg?) (stage : Stage) :
    Turn answered (b.awaits stage) ((b.putRedemption record).awaits stage)
      (op.toList.countP (RemoteOp.serves stage)) (cause.releases stage) := by
  refine shift.turn stage (fun ofRedemption sameChain sameEpoch => ?_) fun differ => ?_
  · rw [Books.awaits_putRedemption, if_pos ⟨ofRedemption, sameChain, sameEpoch⟩, Books.awaits,
      if_neg (by simp [ofRedemption]), sameChain, sameEpoch, found]
    exact ⟨rfl, rfl⟩
  · rw [Books.awaits_putRedemption, if_neg differ]

end Shift

/-! ## Moves -/

theorem ChainEdge.serves_none {chain chain' : Chain} {ops : List RemoteOp}
    (edge : ChainEdge b id chain cause chain' ops) (stage : Stage) :
    ops.countP (RemoteOp.serves stage) = 0 ∧ cause.releases stage = false := by
  cases edge with
  | opened account address => split <;> exact ⟨rfl, rfl⟩
  | restaffed | withdrawAddressSet | closed => exact ⟨rfl, rfl⟩

theorem RewardEdge.serves_none {chain chain' : Chain} {ops : List RemoteOp} {reported : Amount}
    (edge : RewardEdge b id chain cause chain' ops reported) (stage : Stage) :
    ops.countP (RemoteOp.serves stage) = 0 ∧ cause.releases stage = false := by
  cases edge <;> exact ⟨rfl, rfl⟩

theorem RemoteOp.Stale.idle {op : RemoteOp} (stale : op.Stale b)
    (serves : op.serves stage = true) : b.awaits stage = false := by
  rw [RemoteOp.serves_iff] at serves
  cases op with
  | transferDeposit chain epoch amount =>
      cases serves
      exact (Books.idle_deposit rfl).mpr fun batch found =>
        mt DepositStatus.leg?_transfer.mp (stale batch found)
  | delegate chain epoch shares =>
      cases serves
      exact (Books.idle_deposit rfl).mpr fun batch found =>
        mt DepositStatus.leg?_delegation.mp (stale batch found)
  | undelegate chain epoch shares =>
      cases serves
      exact (Books.idle_redemption rfl).mpr fun batch found =>
        mt RedemptionStatus.leg?_undelegation.mp (stale batch found)
  | withdrawUnbonded chain epoch amount =>
      cases serves
      exact (Books.idle_redemption rfl).mpr fun batch found =>
        mt RedemptionStatus.leg?_withdrawal.mp (stale batch found)
  | withdrawRewards | transferRewards | setWithdrawAddress => cases serves

/-- What a move means for a stage: a batch waits for exactly one operation, that
is started as the batch begins to wait. -/
theorem Move.turn (kept : b.WellKept) (orderly : b.Orderly) (move : Move s b cause r)
    (stage : Stage) :
    Turn (cause.Answered s b stage) (b.awaits stage) ((b.applyAll r.commands).awaits stage)
      (r.dispatched.countP (RemoteOp.serves stage)) (cause.releases stage) := by
  have unrelated (unchanged : (b.applyAll r.commands).awaits stage = b.awaits stage)
      (none : r.dispatched.countP (RemoteOp.serves stage) = 0)
      (kept : cause.releases stage = false) :
      Turn (cause.Answered s b stage) (b.awaits stage) ((b.applyAll r.commands).awaits stage)
        (r.dispatched.countP (RemoteOp.serves stage)) (cause.releases stage) :=
    .same unchanged none fun freed => by simp [kept] at freed
  cases move with
  | revised known edge plain =>
      obtain ⟨none, kept⟩ := edge.serves_none stage
      refine unrelated ?_ (by rwa [Response.dispatched_chain]) kept
      rw [Books.applyAll_chain]
      exact Books.awaits_congr rfl rfl stage
  | rewarded known edge told =>
      obtain ⟨none, kept⟩ := edge.serves_none stage
      refine unrelated ?_ (by rwa [Response.dispatched_chain]) kept
      rw [Books.applyAll_chain]
      exact Books.awaits_congr rfl rfl stage
  | requested known kind =>
      refine unrelated rfl ?_ rfl
      rcases kind with rfl | ⟨validators, rfl⟩ <;> rfl
  | @deposited id chain batch amount minted depositor known current found positive priced
      worthwhile fits =>
      obtain ⟨rfl, -, pending, -⟩ :=
        orderly.collecting_deposit kept current (by rw [found, Option.getD_some])
      exact unrelated (b.awaits_putDeposit_pending
        { batch with amount := batch.amount + amount } pending (.inl found) pending stage) rfl rfl
  | @depositOpened id chain epoch known current absent =>
      exact unrelated (b.awaits_putDeposit_pending (.empty id epoch) rfl (.inr ⟨absent, rfl⟩) rfl
        stage) rfl rfl
  | @depositMoved id batch cause next op notices found edge plain =>
      obtain rfl := kept.depositKey (Books.mem_deposits found).1
      rw [Response.dispatched_deposit, Books.applyAll_deposit]
      exact edge.shift.putDeposit { batch with status := next } found stage
  | @delegated id chain batch shares total receipts notices found awaited known summed told =>
      obtain rfl := kept.depositKey (Books.mem_deposits found).1
      have shift : Shift batch.chain batch.epoch true
          (.heard (.delegate batch.chain batch.epoch shares) (.success receipts)) none
          batch.status.leg? none := by
        rw [awaited]
        exact .heard rfl rfl
      have found' : (b.putChain (chain.delegating receipts shares total)).deposit? batch.chain
          batch.epoch = some batch := found
      exact shift.putDeposit { batch with status := .done } found' stage
  | @reinvested id epoch batch amount receipts notices current found plain =>
      obtain ⟨rfl, rfl, pending, -, stored⟩ := orderly.collecting_deposit kept current found
      exact unrelated (b.awaits_putDeposit_pending (batch.reinvesting amount) pending stored
        pending stage) rfl rfl
  | @redeemed id chain epoch batch amount owed owner known current fresh positive priced
      worthwhile covered found burnedFits redeemableFits =>
      obtain ⟨rfl, rfl, pending, stored⟩ := orderly.collecting_redemption kept current found
      exact unrelated (b.awaits_putRedemption_pending (batch.joining amount owed _) pending stored
        pending stage) rfl rfl
  | @redemptionMoved id batch cause next op notices found edge plain =>
      obtain rfl := kept.redemptionKey (Books.mem_redemptions found).1
      rw [Response.dispatched_redemption, Books.applyAll_redemption]
      exact edge.shift.putRedemption { batch with status := next } found stage
  | @unbonded id chain batch shares total completion receipts notices found awaited known summed
      due told =>
      obtain rfl := kept.redemptionKey (Books.mem_redemptions found).1
      have shift : Shift batch.chain batch.epoch false
          (.heard (.undelegate batch.chain batch.epoch shares) (.success receipts)) none
          batch.status.leg? none := by
        rw [awaited]
        exact .heard rfl rfl
      have found' : (b.putChain (chain.undelegating receipts shares total)).redemption?
          batch.chain batch.epoch = some batch := found
      exact shift.putRedemption { batch with completion := some completion, status := .waiting }
        found' stage
  | @released id batch amount receipts notices found awaited plain =>
      obtain rfl := kept.redemptionKey (Books.mem_redemptions found).1
      have shift : Shift batch.chain batch.epoch false
          (.heard (.withdrawUnbonded batch.chain batch.epoch amount) (.success receipts)) none
          batch.status.leg? none := by
        rw [awaited]
        exact .heard rfl rfl
      have found' : (b.release batch.members).redemption? batch.chain batch.epoch =
          some batch := by
        simpa using found
      rw [Response.dispatched_released, Books.applyAll_released,
        ← Books.awaits_congr (b.deposits_release _) (b.redemptions_release _) stage]
      exact shift.putRedemption { batch with status := .done } found' stage
  | @stale op outcome notices stale plain =>
      refine .same rfl rfl fun freed => .inl ?_
      have serves : op.serves stage = true := by
        simpa [Cause.releases, Cause.answers, Cause.drops] using freed
      exact stale.idle serves
  | @unanswered op outcome failed =>
      refine .same rfl rfl fun freed => .inr fun answered => ?_
      have serves : op.serves stage = true := by
        simpa [Cause.releases, Cause.answers, Cause.drops] using freed
      obtain ⟨response, answer⟩ := answered op outcome rfl serves
      exact failed response answer
  | registered | repriced | epochStarted | paid | quiet => exact unrelated rfl rfl rfl

/-- As long as the stage is not reset while it is waited for, an operation is
started for a batch that then waits, and the wait ends when one is heard of. -/
theorem Move.awaits_flow (kept : b.WellKept) (orderly : b.Orderly) (move : Move s b cause r)
    (undropped : cause.drops stage = true → b.awaits stage = false) :
    r.dispatched.countP (RemoteOp.serves stage) + (b.awaits stage).toNat ≤
      ((b.applyAll r.commands).awaits stage).toNat + (cause.answers stage).toNat := by
  cases move.turn kept orderly stage with
  | begun idle waiting one kept =>
      rw [one, idle, waiting]
      exact Nat.le_add_right _ _
  | finished waiting idle none freed =>
      have heard : cause.answers stage = true := by
        rcases Bool.or_eq_true_iff.mp freed with heard | dropped
        · exact heard
        · rw [undropped dropped] at waiting
          cases waiting
      rw [none, waiting, heard]
      exact Nat.le_add_left _ _
  | same unchanged none missed =>
      rw [none, unchanged, Nat.zero_add]
      exact Nat.le_add_right _ _

theorem Move.asked_idle (kept : b.WellKept) (orderly : b.Orderly) {request : Request}
    (move : Move s b (.asked request) r) (dropped : (Cause.asked request).drops stage = true) :
    (b.applyAll r.commands).awaits stage = false :=
  (move.turn kept orderly stage).ended (by rw [Cause.releases, dropped, Bool.or_true]) nofun

end LiquidStaking
