import LiquidStaking.Proofs.Books
import LiquidStaking.Proofs.Tally

/-!
# The moves of the hub

Everything the hub does to its books comes down to a few kinds of moves, each
about one record: a chain is revised, a batch changes its status or its
figures, a claim is paid.  A request or an acknowledgement makes one move; the
start of an epoch makes many, one after the other, and so does a timeout that
closes an account.  A move says under which conditions it is made and gives the
whole response that carries it out, notices apart that report no rewards.
-/

namespace LiquidStaking

def Notice.rewardedIn (id : ChainId) (notices : List Notice) : Nat :=
  Width.total (notices.map (Notice.rewarded id))

theorem Response.rewarded_mk (id : ChainId) (commands : List Command) (notices : List Notice) :
    Response.rewarded id ⟨commands, notices⟩ = Notice.rewardedIn id notices := rfl

def Notice.Plain (notices : List Notice) : Prop :=
  ∀ id, Notice.rewardedIn id notices = 0

def DepositBatch.inFlight (batch : DepositBatch) : Bool := batch.status.inFlight

def DepositBatch.awaitsEpoch (batch : DepositBatch) : Bool := batch.status.awaitsEpoch

def RedemptionBatch.holdsStake (batch : RedemptionBatch) : Bool := batch.status.holdsStake

section Statuses

variable (batch : DepositBatch) {status : DepositStatus} (is : batch.status = status)
  (redemption : RedemptionBatch) {status' : RedemptionStatus} (is' : redemption.status = status')

include is in
theorem DepositBatch.inFlight_eq : batch.inFlight = status.inFlight := congrArg _ is

include is in
theorem DepositBatch.awaitsEpoch_eq : batch.awaitsEpoch = status.awaitsEpoch := congrArg _ is

include is' in
theorem RedemptionBatch.holdsStake_eq : redemption.holdsStake = status'.holdsStake :=
  congrArg _ is'

end Statuses

def Books.inFlight (b : Books) (id : ChainId) : Nat :=
  b.depositTotal id DepositBatch.inFlight DepositBatch.amount

def Books.promised (b : Books) (id : ChainId) : Nat :=
  b.redemptionTotal id RedemptionBatch.holdsStake RedemptionBatch.redeemable

def Books.escrow (b : Books) (id : ChainId) : Nat :=
  b.depositTotal id DepositBatch.awaitsEpoch DepositBatch.net

/-- The batch does not wait for the operation, or it waits for another one. -/
def RemoteOp.Stale (b : Books) : RemoteOp → Prop
  | .transferDeposit id epoch _ =>
      ∀ batch, b.deposit? id epoch = some batch → batch.status ≠ .transferring
  | .delegate id epoch _ =>
      ∀ batch, b.deposit? id epoch = some batch → batch.status ≠ .delegating
  | .undelegate id epoch _ =>
      ∀ batch, b.redemption? id epoch = some batch → batch.status ≠ .starting
  | .withdrawUnbonded id epoch _ =>
      ∀ batch, b.redemption? id epoch = some batch → batch.status ≠ .withdrawing
  | .transferRewards .. => False
  | _ => True

/-! ## Records as moves leave them -/

namespace Chain

def delegating (chain : Chain) (receipts : List Receipt) (shares : Allocation)
    (total : Amount) : Chain :=
  { (Hub.holdRewards chain receipts).1 with
    validators := Allocation.book (Width.addSat 128) shares chain.validators
    staked := Width.addSat 128 chain.staked total }

def undelegating (chain : Chain) (receipts : List Receipt) (shares : Allocation)
    (total : Amount) : Chain :=
  { (Hub.holdRewards chain receipts).1 with
    validators := Allocation.book (fun held share => held - share) shares chain.validators
    staked := chain.staked - total }

end Chain

def DepositBatch.reinvesting (batch : DepositBatch) (amount : Amount) : DepositBatch :=
  { batch with
    amount := Width.addSat 128 batch.amount amount
    reinvested := Width.addSat 128 batch.reinvested amount }

def RedemptionBatch.joining (batch : RedemptionBatch) (amount owed : Amount)
    (member : String) : RedemptionBatch :=
  { batch with
    burned := batch.burned + amount
    redeemable := batch.redeemable + owed
    members := batch.members ++ [member] }

variable (s : Surroundings) (b : Books) (id : ChainId)

/-! ## Chains -/

/-- Revisions of a chain that leave its stake, its rate and its rewards alone. -/
inductive ChainEdge (chain : Chain) : Cause → Chain → List RemoteOp → Prop
  | opened (account : ControlAccount) (address : Address) :
      ChainEdge chain (.asked (.accountOpened id account address))
        (chain.setAddress account (some address))
        (if (chain.setAddress account (some address)).bothOpen && !chain.withdrawAddressSet then
          [.setWithdrawAddress id] else [])
  | restaffed {next : List (Address × Nat)} (sound : validatorSetDefect? next = none)
      (noDelegation : ∀ batch ∈ b.deposits id, batch.status ≠ .delegating)
      (noUndelegation : ∀ batch ∈ b.redemptions id, batch.status ≠ .starting)
      (noneAbandoned : Hub.abandoned? chain.validators next = none) :
      ChainEdge chain (.asked (.updateValidators id next))
        { chain with validators := Hub.retained chain.validators next } []
  | withdrawAddressSet (receipts : List Receipt) :
      ChainEdge chain (.heard (.setWithdrawAddress id) (.success receipts))
        { chain with withdrawAddressSet := true } []
  | closed (account : ControlAccount) :
      ChainEdge chain (.closed id account) (chain.setAddress account none) []

/-- Revisions of what a chain holds as pending, with the rewards reported. -/
inductive RewardEdge (chain : Chain) : Cause → Chain → List RemoteOp → Amount → Prop
  | collected {epoch : Epoch} (held : 0 < chain.pendingRewards) (bothOpen : chain.bothOpen) :
      RewardEdge chain (.asked (.startEpoch .delegation epoch))
        { chain with pendingRewards := 0 } [.transferRewards id chain.pendingRewards] 0
  | forwarded {validators : List Address} {receipts : List Receipt}
      (bothOpen : chain.bothOpen)
      (held : Width.addSat 128 (Receipt.totalRewards receipts) chain.pendingRewards ≠ 0) :
      RewardEdge chain (.heard (.withdrawRewards id validators) (.success receipts))
        { chain with pendingRewards := 0 }
        [.transferRewards id
          (Width.addSat 128 (Receipt.totalRewards receipts) chain.pendingRewards)]
        (Receipt.totalRewards receipts)
  | kept {validators : List Address} {receipts : List Receipt}
      (held : Width.addSat 128 (Receipt.totalRewards receipts) chain.pendingRewards ≠ 0) :
      RewardEdge chain (.heard (.withdrawRewards id validators) (.success receipts))
        { chain with
          pendingRewards :=
            Width.addSat 128 (Receipt.totalRewards receipts) chain.pendingRewards }
        [] (Receipt.totalRewards receipts)
  | bounced {amount : Amount} {outcome : Outcome}
      (unable : outcome.isSuccess = true → b.epoch? .delegation = none) :
      RewardEdge chain (.heard (.transferRewards id amount) outcome)
        { chain with pendingRewards := Width.addSat 128 chain.pendingRewards amount } [] 0

/-! ## Deposit batches -/

inductive DepositEdge (batch : DepositBatch) :
    Cause → DepositStatus → Option RemoteOp → Prop
  | emptied {epoch : Epoch} (current : b.epoch? .delegation = some epoch)
      (earlier : batch.epoch < epoch) (due : batch.status.awaitsEpoch)
      (nothing : batch.amount = 0) :
      DepositEdge batch (.asked (.startEpoch .delegation epoch)) .done none
  | sent {epoch : Epoch} {chain : Chain} (current : b.epoch? .delegation = some epoch)
      (earlier : batch.epoch < epoch) (due : batch.status.awaitsEpoch)
      (known : b.chain? id = some chain) (isOpen : chain.delegateAddress.isSome)
      (held : batch.net ≠ 0) :
      DepositEdge batch (.asked (.startEpoch .delegation epoch)) .transferring
        (some (.transferDeposit id batch.epoch batch.net))
  | divided {epoch : Epoch} {chain : Chain} {shares : Allocation}
      (current : b.epoch? .delegation = some epoch) (earlier : batch.epoch < epoch)
      (due : batch.status.awaitsEpoch) (known : b.chain? id = some chain)
      (isOpen : chain.delegateAddress.isSome) (something : batch.amount ≠ 0)
      (gone : batch.net = 0)
      (shared : Allocation.byWeight? batch.amount chain.validators = some shares) :
      DepositEdge batch (.asked (.startEpoch .delegation epoch)) .delegating
        (some (.delegate id batch.epoch shares))
  | redriven {chain : Chain} {shares : Allocation} (failed : batch.status = .failed)
      (known : b.chain? id = some chain) (isOpen : chain.delegateAddress.isSome)
      (shared : Allocation.byWeight? batch.amount chain.validators = some shares) :
      DepositEdge batch (.asked (.redriveDeposit id batch.epoch)) .delegating
        (some (.delegate id batch.epoch shares))
  | transferReset (awaited : batch.status = .transferring) :
      DepositEdge batch (.asked (.resetDeposit id batch.epoch)) .transferFailed none
  | delegationReset (awaited : batch.status = .delegating) :
      DepositEdge batch (.asked (.resetDeposit id batch.epoch)) .failed none
  | returned {amount : Amount} {outcome : Outcome} (awaited : batch.status = .transferring)
      (failed : outcome.isSuccess = false) :
      DepositEdge batch (.heard (.transferDeposit id batch.epoch amount) outcome)
        .transferFailed none
  | stranded {amount : Amount} {receipts : List Receipt} {chain : Chain}
      (awaited : batch.status = .transferring) (known : b.chain? id = some chain)
      (isClosed : chain.delegateAddress.isNone) :
      DepositEdge batch (.heard (.transferDeposit id batch.epoch amount) (.success receipts))
        .failed none
  | arrived {amount : Amount} {receipts : List Receipt} {chain : Chain} {shares : Allocation}
      (awaited : batch.status = .transferring) (known : b.chain? id = some chain)
      (isOpen : chain.delegateAddress.isSome)
      (shared : Allocation.byWeight? batch.amount chain.validators = some shares) :
      DepositEdge batch (.heard (.transferDeposit id batch.epoch amount) (.success receipts))
        .delegating (some (.delegate id batch.epoch shares))
  | refused {shares : Allocation} {outcome : Outcome} (awaited : batch.status = .delegating)
      (failed : outcome.isSuccess = false) :
      DepositEdge batch (.heard (.delegate id batch.epoch shares) outcome) .failed none

/-! ## Redemption batches -/

inductive RedemptionEdge (batch : RedemptionBatch) :
    Cause → RedemptionStatus → Option RemoteOp → Prop
  | started {epoch : Epoch} {chain : Chain} {shares : Allocation}
      (current : b.epoch? .undelegation = some epoch) (earlier : batch.epoch < epoch)
      (due : batch.status = .pending ∨ batch.status = .startFailed)
      (known : b.chain? id = some chain) (isOpen : chain.delegateAddress.isSome)
      (shared : Allocation.withinHoldings? batch.redeemable chain.validators = some shares) :
      RedemptionEdge batch (.asked (.startEpoch .undelegation epoch)) .starting
        (some (.undelegate id batch.epoch shares))
  | withdrawn {epoch : Epoch} {chain : Chain}
      (current : b.epoch? .undelegation = some epoch) (earlier : batch.epoch < epoch)
      (due : (batch.status = .waiting ∧ Hub.matured s.now batch) ∨
        batch.status = .transferFailed)
      (known : b.chain? id = some chain) (isOpen : chain.delegateAddress.isSome) :
      RedemptionEdge batch (.asked (.startEpoch .undelegation epoch)) .withdrawing
        (some (.withdrawUnbonded id batch.epoch batch.redeemable))
  | startReset (awaited : batch.status = .starting) :
      RedemptionEdge batch (.asked (.resetRedemption id batch.epoch)) .startFailed none
  | withdrawalReset (awaited : batch.status = .withdrawing) :
      RedemptionEdge batch (.asked (.resetRedemption id batch.epoch)) .transferFailed none
  | refused {shares : Allocation} {outcome : Outcome} (awaited : batch.status = .starting)
      (failed : outcome.isSuccess = false) :
      RedemptionEdge batch (.heard (.undelegate id batch.epoch shares) outcome)
        .startFailed none
  | stayed {amount : Amount} {outcome : Outcome} (awaited : batch.status = .withdrawing)
      (failed : outcome.isSuccess = false) :
      RedemptionEdge batch (.heard (.withdrawUnbonded id batch.epoch amount) outcome)
        .transferFailed none

/-! ## All moves -/

inductive Move : Cause → Response → Prop
  | registered {r : Registration} (sound : r.defect? = none)
      (fresh : b.chain? r.chainId = none) :
      Move (.asked (.register r)) ⟨[.chain r.profile], []⟩
  | revised {id : ChainId} {chain chain' : Chain} {cause : Cause} {ops : List RemoteOp}
      {notices : List Notice} (known : b.chain? id = some chain)
      (edge : ChainEdge b id chain cause chain' ops) (plain : Notice.Plain notices) :
      Move cause ⟨.chain chain' :: ops.map .dispatch, notices⟩
  | rewarded {id : ChainId} {chain chain' : Chain} {cause : Cause} {ops : List RemoteOp}
      {reported : Amount} {notices : List Notice} (known : b.chain? id = some chain)
      (edge : RewardEdge b id chain cause chain' ops reported)
      (told : ∀ other, Notice.rewardedIn other notices = if id = other then reported else 0) :
      Move cause ⟨.chain chain' :: ops.map .dispatch, notices⟩
  | requested {id : ChainId} {chain : Chain} {op : RemoteOp} {epoch : Epoch}
      (known : b.chain? id = some chain)
      (kind : op = .setWithdrawAddress id ∨ ∃ validators, op = .withdrawRewards id validators)
      (bothOpen : chain.bothOpen) :
      Move (.asked (.startEpoch .delegation epoch)) ⟨[.dispatch op], []⟩
  | repriced {id : ChainId} {chain : Chain} {rate : Rate} {epoch : Epoch}
      (known : b.chain? id = some chain)
      (backed : 0 < Width.addSat 128 chain.staked (Width.clamp 128 (b.inFlight id)))
      (priced : Rate.ofBacking?
        (Width.addSat 128 chain.staked (Width.clamp 128 (b.inFlight id)))
        (s.supply chain.derivativeDenom) = some rate) :
      Move (.asked (.startEpoch .delegation epoch))
        ⟨[.chain { chain with rate }], [.rateUpdated id rate]⟩
  | epochStarted {kind : EpochKind} {epoch : Epoch}
      (later : ∀ current, b.epoch? kind = some current → current < epoch) :
      Move (.asked (.startEpoch kind epoch)) ⟨[.epoch kind epoch], []⟩
  | deposited {id : ChainId} {chain : Chain} {batch : DepositBatch} {amount minted : Amount}
      {depositor : Address} (known : b.chain? id = some chain)
      (current : b.epoch? .delegation = some batch.epoch)
      (found : b.deposit? id batch.epoch = some batch) (positive : amount ≠ 0)
      (priced : chain.rate.toDerivative? amount = some minted) (worthwhile : minted ≠ 0)
      (fits : batch.amount + amount < Width.limit 128) :
      Move (.asked (.deposit id amount depositor))
        ⟨[.deposit { batch with amount := batch.amount + amount },
          .token (.mint chain.derivativeDenom minted depositor)], []⟩
  | depositOpened {id : ChainId} {chain : Chain} {epoch : Epoch}
      (known : b.chain? id = some chain) (current : b.epoch? .delegation = some epoch)
      (absent : b.deposit? id epoch = none) :
      Move (.asked (.startEpoch .delegation epoch)) ⟨[.deposit (.empty id epoch)], []⟩
  | depositMoved {id : ChainId} {batch : DepositBatch} {cause : Cause} {next : DepositStatus}
      {op : Option RemoteOp} {notices : List Notice}
      (found : b.deposit? id batch.epoch = some batch)
      (edge : DepositEdge b id batch cause next op) (plain : Notice.Plain notices) :
      Move cause
        ⟨.deposit { batch with status := next } :: (op.map Command.dispatch).toList, notices⟩
  | delegated {id : ChainId} {chain : Chain} {batch : DepositBatch} {shares : Allocation}
      {total : Amount} {receipts : List Receipt} {notices : List Notice}
      (found : b.deposit? id batch.epoch = some batch) (awaited : batch.status = .delegating)
      (known : b.chain? id = some chain) (summed : Allocation.total? shares = some total)
      (told : ∀ other, Notice.rewardedIn other notices =
        if id = other then Receipt.totalRewards receipts else 0) :
      Move (.heard (.delegate id batch.epoch shares) (.success receipts))
        ⟨[.chain (chain.delegating receipts shares total),
          .deposit { batch with status := .done }], notices⟩
  | reinvested {id : ChainId} {epoch : Epoch} {batch : DepositBatch} {amount : Amount}
      {receipts : List Receipt} {notices : List Notice}
      (current : b.epoch? .delegation = some epoch)
      (found : batch = (b.deposit? id epoch).getD (.empty id epoch))
      (plain : Notice.Plain notices) :
      Move (.heard (.transferRewards id amount) (.success receipts))
        ⟨[.deposit (batch.reinvesting amount)], notices⟩
  | redeemed {id : ChainId} {chain : Chain} {epoch : Epoch} {batch : RedemptionBatch}
      {amount owed : Amount} {owner : Address} (known : b.chain? id = some chain)
      (current : b.epoch? .undelegation = some epoch)
      (fresh : b.claim? (claimId id epoch owner) = none) (positive : amount ≠ 0)
      (priced : chain.rate.toNative? amount = some owed) (worthwhile : owed ≠ 0)
      (covered : b.promised id + owed ≤ chain.staked)
      (found : batch = (b.redemption? id epoch).getD (.empty id epoch))
      (burnedFits : batch.burned + amount < Width.limit 128)
      (redeemableFits : batch.redeemable + owed < Width.limit 128) :
      Move (.asked (.redeem id amount owner))
        ⟨[.redemption (batch.joining amount owed (claimId id epoch owner)),
          .claim ⟨claimId id epoch owner, id, epoch, owner, owed, chain.voucherDenom, .pending⟩],
          []⟩
  | redemptionMoved {id : ChainId} {batch : RedemptionBatch} {cause : Cause}
      {next : RedemptionStatus} {op : Option RemoteOp} {notices : List Notice}
      (found : b.redemption? id batch.epoch = some batch)
      (edge : RedemptionEdge s b id batch cause next op) (plain : Notice.Plain notices) :
      Move cause
        ⟨.redemption { batch with status := next } :: (op.map Command.dispatch).toList, notices⟩
  | unbonded {id : ChainId} {chain : Chain} {batch : RedemptionBatch} {shares : Allocation}
      {total : Amount} {completion : Seconds} {receipts : List Receipt} {notices : List Notice}
      (found : b.redemption? id batch.epoch = some batch) (awaited : batch.status = .starting)
      (known : b.chain? id = some chain) (summed : Allocation.total? shares = some total)
      (due : completion = Hub.completionTime s.now chain receipts)
      (told : ∀ other, Notice.rewardedIn other notices =
        if id = other then Receipt.totalRewards receipts else 0) :
      Move (.heard (.undelegate id batch.epoch shares) (.success receipts))
        ⟨[.chain (chain.undelegating receipts shares total),
          .redemption { batch with completion := some completion, status := .waiting },
          .token (.burn chain.derivativeDenom batch.burned)], notices⟩
  | released {id : ChainId} {batch : RedemptionBatch} {amount : Amount}
      {receipts : List Receipt} {notices : List Notice}
      (found : b.redemption? id batch.epoch = some batch)
      (awaited : batch.status = .withdrawing) (plain : Notice.Plain notices) :
      Move (.heard (.withdrawUnbonded id batch.epoch amount) (.success receipts))
        ⟨(batch.members.filterMap b.claim?).map (fun claim =>
            .claim { claim with status := .claimable }) ++
          [.redemption { batch with status := .done }], notices⟩
  | paid {id : ChainId} {chain : Chain} {epoch : Epoch} {owner : Address} {claim : Claim}
      (known : b.chain? id = some chain)
      (found : b.claim? (claimId id epoch owner) = some claim)
      (claimable : claim.status = .claimable)
      (covered : claim.amount ≤ s.balance claim.denom - Width.clamp 128 (b.escrow id)) :
      Move (.asked (.payClaim owner epoch id))
        ⟨[.claim { claim with status := .complete },
          .token (.send claim.denom claim.amount claim.owner)], []⟩
  | quiet {kind : EpochKind} {epoch : Epoch} {notices : List Notice}
      (plain : Notice.Plain notices) :
      Move (.asked (.startEpoch kind epoch)) ⟨[], notices⟩
  | stale {op : RemoteOp} {outcome : Outcome} {notices : List Notice} (stale : op.Stale b)
      (plain : Notice.Plain notices) :
      Move (.heard op outcome) ⟨[], notices⟩
  | unanswered {op : RemoteOp} {outcome : Outcome}
      (failed : ∀ response, Hub.resolve b.view s op outcome ≠ .ok response) :
      Move (.heard op outcome) .empty

/-! ## Responses without tokens -/

variable {r : Response}

def Command.isToken : Command → Bool
  | .token _ => true
  | _ => false

def Response.Tokenless (r : Response) : Prop := ∀ command ∈ r.commands, command.isToken = false

namespace Response.Tokenless

theorem of_all (none : r.commands.all (fun command => !command.isToken) = true) :
    r.Tokenless := by
  intro command member
  simpa using List.all_eq_true.mp none command member

theorem chain (record : Chain) (ops : List RemoteOp) (notices : List Notice) :
    Tokenless ⟨.chain record :: ops.map .dispatch, notices⟩ := by
  intro command member
  rcases List.mem_cons.mp member with rfl | started
  · rfl
  · obtain ⟨op, -, rfl⟩ := List.mem_map.mp started
    rfl

theorem deposit (record : DepositBatch) (op : Option RemoteOp) (notices : List Notice) :
    Tokenless ⟨.deposit record :: (op.map Command.dispatch).toList, notices⟩ := by
  intro command member
  rcases List.mem_cons.mp member with rfl | started
  · rfl
  · obtain ⟨op, -, rfl⟩ := Option.map_eq_some_iff.mp (Option.mem_toList.mp started)
    rfl

theorem redemption (record : RedemptionBatch) (op : Option RemoteOp) (notices : List Notice) :
    Tokenless ⟨.redemption record :: (op.map Command.dispatch).toList, notices⟩ := by
  intro command member
  rcases List.mem_cons.mp member with rfl | started
  · rfl
  · obtain ⟨op, -, rfl⟩ := Option.map_eq_some_iff.mp (Option.mem_toList.mp started)
    rfl

theorem released (claims : List Claim) (record : RedemptionBatch) (notices : List Notice) :
    Tokenless ⟨claims.map (fun claim => .claim { claim with status := .claimable }) ++
      [.redemption record], notices⟩ := by
  intro command member
  rcases List.mem_append.mp member with claimed | last
  · obtain ⟨claim, -, rfl⟩ := List.mem_map.mp claimed
    rfl
  · rw [List.mem_singleton.mp last]
    rfl

theorem ordered (tokenless : r.Tokenless) {figure : Command → Amount}
    (ofTokens : ∀ command, command.isToken = false → figure command = 0) :
    r.ordered figure = 0 := by
  obtain ⟨commands, notices⟩ := r
  simp only [Tokenless, Response.ordered] at tokenless ⊢
  induction commands with
  | nil => rfl
  | cons command commands ih =>
      rw [List.map_cons, Width.total_cons,
        ofTokens command (tokenless command List.mem_cons_self), ih fun later member =>
          tokenless later (List.mem_cons_of_mem _ member)]

end Response.Tokenless

section Figures

variable {denom : Denom} (command : Command) (other : command.isToken = false)

include other

theorem Command.burnedAny_eq_zero : command.burnedAny = 0 := by
  cases command with
  | token order => cases other
  | _ => rfl

theorem Command.minted_eq_zero : command.minted denom = 0 := by
  cases command with
  | token order => cases other
  | _ => rfl

theorem Command.burned_eq_zero : command.burned denom = 0 := by
  cases command with
  | token order => cases other
  | _ => rfl

theorem Command.sent_eq_zero : command.sent denom = 0 := by
  cases command with
  | token order => cases other
  | _ => rfl

end Figures

end LiquidStaking
