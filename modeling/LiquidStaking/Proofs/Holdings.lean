import LiquidStaking.Proofs.Attempts
import LiquidStaking.Proofs.Settlement
import LiquidStaking.Proofs.Shares

/-!
# What validators hold

A chain has staked what its validators hold.  Shares are booked by address, so
this rests on the set being the one that the shares were made for: it is replaced
only while no batch waits for a delegation or an undelegation, and then no
operation of that kind is outstanding that was not given up.
-/

namespace LiquidStaking

variable {s : Surroundings} {b : Books} {t : Tally} {h : HubState} {id : ChainId}
  {cause : Cause} {r : Response} {chain chain' : Chain} {shares : Allocation}

def RemoteOp.shares? : RemoteOp → Option Allocation
  | .delegate _ _ shares | .undelegate _ _ shares => some shares
  | _ => none

def Books.Resting (b : Books) (id : ChainId) : Prop :=
  ∀ epoch, b.awaits ⟨id, epoch, .delegation⟩ = false ∧ b.awaits ⟨id, epoch, .undelegation⟩ = false

/-! ## What a move books -/

/-- What a move makes of the stake of a chain and of what its validators hold.  A
set is put in only where no operation names the validators of another one. -/
inductive Booking (b : Books) (id : ChainId) (cause : Cause) (r : Response) (chain' : Chain) : Prop
  | registered (fresh : b.chain? id = none) (staked : chain'.staked = 0)
      (held : heldBy chain'.validators = 0) (none : r.dispatched = [])
  | kept {chain : Chain} (known : b.chain? id = some chain)
      (staked : chain'.staked = chain.staked) (validators : chain'.validators = chain.validators)
  | restaffed {chain : Chain} {next : Roster} (known : b.chain? id = some chain)
      (sound : validatorSetDefect? next = none) (resting : b.Resting id)
      (noneAbandoned : Hub.abandoned? chain.validators next = none)
      (staked : chain'.staked = chain.staked)
      (validators : chain'.validators = Hub.retained chain.validators next)
      (none : r.dispatched = [])
  | delegated {chain : Chain} {batch : DepositBatch} {shares : Allocation}
      {receipts : List Receipt} (known : b.chain? id = some chain)
      (heard : cause = .heard (.delegate id batch.epoch shares) (.success receipts))
      (found : b.deposit? id batch.epoch = some batch) (awaited : batch.status = .delegating)
      (staked : chain'.staked = Width.addSat 128 chain.staked (Allocation.sum shares))
      (validators : chain'.validators =
        Allocation.book (Width.addSat 128) shares chain.validators)
      (none : r.dispatched = [])
  | undelegated {chain : Chain} {epoch : Epoch} {shares : Allocation} {receipts : List Receipt}
      (known : b.chain? id = some chain)
      (heard : cause = .heard (.undelegate id epoch shares) (.success receipts))
      (staked : chain'.staked = chain.staked - Allocation.sum shares)
      (validators : chain'.validators =
        Allocation.book (fun held share => held - share) shares chain.validators)
      (none : r.dispatched = [])

theorem heldBy_profile (registration : Registration) :
    heldBy registration.profile.validators = 0 := by
  have nothing (entries : Roster) :
      heldBy (entries.map fun entry => ⟨entry.1, entry.2, 0⟩) = 0 := by
    induction entries with
    | nil => rfl
    | cons entry rest ih => simp [ih]
  exact nothing registration.validators

theorem Move.booking (kept : b.WellKept) (move : Move s b cause r)
    (known' : (b.applyAll r.commands).chain? id = some chain') : Booking b id cause r chain' := by
  -- The record of another chain is as it was.
  have written (record : Chain) {other : ChainId} {old : Chain}
      (known : b.chain? other = some old) (key : record.id = old.id)
      (own : other = id → record = chain' → Booking b id cause r chain')
      (known' : (b.putChain record).chain? id = some chain') : Booking b id cause r chain' := by
    rw [Books.chain?_putChain, key, kept.chainKey known] at known'
    split at known'
    · rename_i same
      cases known'
      exact own same.symm rfl
    · exact .kept known' rfl rfl
  cases move with
  | @registered registration sound fresh =>
      have known' : (b.putChain registration.profile).chain? id = some chain' := known'
      rw [Books.chain?_putChain] at known'
      split at known'
      · rename_i same
        cases known'
        exact .registered (same ▸ fresh) rfl (heldBy_profile registration) rfl
      · exact .kept known' rfl rfl
  | @revised other old record cause ops notices known edge plain =>
      rw [Books.applyAll_chain] at known'
      refine written _ known edge.revises.id (fun same equal => ?_) known'
      subst same equal
      cases edge with
      | opened account address => cases account <;> exact .kept known rfl rfl
      | restaffed sound noDelegation noUndelegation noneAbandoned =>
          refine .restaffed known sound (fun epoch => ⟨?_, ?_⟩) noneAbandoned rfl rfl rfl
          · exact (Books.idle_deposit rfl).mpr fun batch found =>
              mt DepositStatus.leg?_delegation.mp (noDelegation batch (Books.mem_deposits found).1)
          · exact (Books.idle_redemption rfl).mpr fun batch found =>
              mt RedemptionStatus.leg?_undelegation.mp
                (noUndelegation batch (Books.mem_redemptions found).1)
      | withdrawAddressSet receipts => exact .kept known rfl rfl
      | closed account => cases account <;> exact .kept known rfl rfl
  | @rewarded other old record cause ops reported notices known edge told =>
      rw [Books.applyAll_chain] at known'
      refine written _ known edge.revises.id (fun same equal => ?_) known'
      subst same equal
      cases edge <;> exact .kept known rfl rfl
  | @repriced other old rate epoch known backed priced =>
      refine written { old with rate } known rfl (fun same equal => ?_) known'
      subst same equal
      exact .kept known rfl rfl
  | @delegated other old batch shares total receipts notices found awaited known summed told =>
      obtain ⟨rfl, -⟩ := Allocation.total?_eq_some.mp summed
      refine written _ known (old.id_delegating receipts shares _) (fun same equal => ?_) known'
      subst same equal
      exact .delegated known rfl found awaited rfl rfl rfl
  | @unbonded other old batch shares total completion receipts notices found awaited known summed
      due told =>
      obtain ⟨rfl, -⟩ := Allocation.total?_eq_some.mp summed
      refine written _ known (old.id_undelegating receipts shares _) (fun same equal => ?_) known'
      subst same equal
      exact .undelegated known rfl rfl rfl rfl
  | depositMoved found edge plain =>
      rw [Books.applyAll_deposit] at known'
      exact .kept known' rfl rfl
  | redemptionMoved found edge plain =>
      rw [Books.applyAll_redemption] at known'
      exact .kept known' rfl rfl
  | @released other batch amount receipts notices found awaited plain =>
      rw [Books.applyAll_released] at known'
      have known : (b.release batch.members).chain? id = some chain' := known'
      rw [Books.chain?_release] at known
      exact .kept known rfl rfl
  | requested | epochStarted | deposited | depositOpened | reinvested | redeemed | paid | quiet
  | stale | unanswered => exact .kept known' rfl rfl

inductive Division (b : Books) (id : ChainId) (chain : Chain) : RemoteOp → Prop
  | delegation {epoch : Epoch} {total : Amount} {shares : Allocation}
      (shared : Allocation.byWeight? total chain.validators = some shares) :
      Division b id chain (.delegate id epoch shares)
  | undelegation {epoch : Epoch} {batch : RedemptionBatch} {shares : Allocation}
      (member : batch ∈ b.redemptions id) (holding : batch.holdsStake = true)
      (shared : Allocation.withinHoldings? batch.redeemable chain.validators = some shares) :
      Division b id chain (.undelegate id epoch shares)

theorem Division.matches {op : RemoteOp} (division : Division b id chain op)
    (divides : op.shares? = some shares) : shares.Matches chain.validators := by
  cases division with
  | delegation shared =>
      cases divides
      exact Allocation.byWeight?_matches shared
  | undelegation member holding shared =>
      cases divides
      exact Allocation.withinHoldings?_matches shared

theorem Move.divides (move : Move s b cause r) {op : RemoteOp} (started : op ∈ r.dispatched)
    (divides : op.shares? = some shares) (known : b.chain? op.chain = some chain) :
    Division b op.chain chain op := by
  rcases move.started started with ⟨free, -⟩ | ⟨id, batch, next, found, edge, -⟩ |
    ⟨id, batch, next, found, edge, -⟩
  · cases op with
    | transferDeposit | delegate | undelegate | withdrawUnbonded => cases free
    | withdrawRewards | transferRewards | setWithdrawAddress => cases divides
  · cases edge with
    | sent => cases divides
    | divided _ _ _ known' _ _ _ shared | redriven _ known' _ shared
    | arrived _ known' _ shared =>
        cases known.symm.trans known'
        exact .delegation shared
  · cases edge with
    | started current earlier due known' isOpen shared =>
        cases known.symm.trans known'
        refine .undelegation (Books.mem_redemptions found).1 ?_ shared
        rcases due with pending | failed
        · rw [RedemptionBatch.holdsStake_eq _ pending]
          rfl
        · rw [RedemptionBatch.holdsStake_eq _ failed]
          rfl
    | withdrawn => cases divides

/-- A set either stays, by its addresses, or it is put in while nothing is shared
out among the validators of the old one. -/
theorem Booking.addresses (booking : Booking b id cause r chain') :
    (∃ chain, b.chain? id = some chain ∧
        chain'.validators.map Validator.address = chain.validators.map Validator.address) ∨
      r.dispatched = [] ∧ (b.chain? id = none ∨ b.Resting id) := by
  cases booking with
  | registered fresh staked held none => exact .inr ⟨none, .inl fresh⟩
  | kept known staked validators => exact .inl ⟨_, known, congrArg _ validators⟩
  | restaffed known sound resting noneAbandoned staked validators none =>
      exact .inr ⟨none, .inr resting⟩
  | delegated known heard found awaited staked validators none =>
      exact .inl ⟨_, known, validators ▸ Allocation.addresses_book _ _ _⟩
  | undelegated known heard staked validators none =>
      exact .inl ⟨_, known, validators ▸ Allocation.addresses_book _ _ _⟩

/-- What a move makes of what a chain has staked and of what its validators hold:
the one is booked as a whole, the other share by share. -/
inductive Account (b : Books) (id : ChainId) (cause : Cause) (chain' : Chain) : Prop
  | opened (staked : chain'.staked = 0) (held : heldBy chain'.validators = 0)
  | same {chain : Chain} (known : b.chain? id = some chain)
      (staked : chain'.staked = chain.staked)
      (held : heldBy chain'.validators = heldBy chain.validators)
  | grown {chain : Chain} {batch : DepositBatch} {shares : Allocation} {receipts : List Receipt}
      (known : b.chain? id = some chain)
      (heard : cause = .heard (.delegate id batch.epoch shares) (.success receipts))
      (found : b.deposit? id batch.epoch = some batch) (awaited : batch.status = .delegating)
      (staked : chain'.staked = Width.addSat 128 chain.staked (Allocation.sum shares))
      (held : Width.clamp 128 (heldBy chain.validators + Allocation.sum shares) ≤
          heldBy chain'.validators ∧
        (heldBy chain.validators + Allocation.sum shares < Width.limit 128 →
          heldBy chain'.validators = heldBy chain.validators + Allocation.sum shares))
  | shrunk {chain : Chain} {epoch : Epoch} {shares : Allocation} {receipts : List Receipt}
      (known : b.chain? id = some chain)
      (heard : cause = .heard (.undelegate id epoch shares) (.success receipts))
      (matched : shares.Matches chain.validators)
      (staked : chain'.staked = chain.staked - Allocation.sum shares)
      (held : heldBy chain.validators - Allocation.sum shares ≤ heldBy chain'.validators ∧
        (shares.Held chain.validators →
          heldBy chain'.validators + Allocation.sum shares = heldBy chain.validators))

/-! ## Beside the errands -/

/-- The errands of a chain that were not given up are for the validators it has,
and these hold what the chain has staked. -/
structure HubState.Booked (h : HubState) (errands : Errands) (id : ChainId) : Prop where
  sound : h.Sound
  staffed : h.books.Rosters fun roster => validatorSetDefect? roster = none
  unrivalled : ∀ stage : Stage, stage.chain = id →
    errands.serving stage ≤ (h.books.awaits stage).toNat
  matched : ∀ errand ∈ errands, errand.givenUp = false → errand.op.chain = id →
    ∀ shares, errand.op.shares? = some shares →
      ∀ chain, h.books.chain? id = some chain → shares.Matches chain.validators
  covered : ∀ chain, h.books.chain? id = some chain → chain.staked ≤ heldBy chain.validators

namespace HubState.Booked

variable {may : Errand → Outcome → Prop} {errands left : Errands}

theorem initial (id : ChainId) : Booked .initial [] id where
  sound := .initial
  staffed := nofun
  unrivalled _ _ := Nat.zero_le _
  matched := nofun
  covered := nofun

theorem unnamed (booked : h.Booked errands id) (same : errands.ops = h.outstanding)
    {errand : Errand} (member : errand ∈ errands) (fresh : errand.givenUp = false)
    (own : errand.op.chain = id) (divides : errand.op.shares? = some shares)
    (idle : h.books.chain? id = none ∨ h.books.Resting id) : False := by
  rcases idle with unknown | resting
  · have outstanding : errand.op ∈ h.outstanding := same ▸ List.mem_map_of_mem member
    obtain ⟨⟨chain, known⟩, -⟩ := booked.sound.founded errand.op outstanding
    rw [own, unknown] at known
    cases known
  · -- An errand for a stage that no batch waits for was given up.
    have served {stage : Stage} (onChain : stage.chain = id)
        (serves : errand.op.stage? = some stage) (waits : h.books.awaits stage = false) :
        False := by
      have few := booked.unrivalled stage onChain
      have one : 0 < errands.serving stage := List.countP_pos_iff.mpr
        ⟨errand, member, by simp [Errand.serves, RemoteOp.serves, serves, fresh]⟩
      rw [waits, Bool.toNat_false] at few
      omega
    obtain ⟨op, givenUp⟩ := errand
    cases op with
    | delegate chain epoch shares =>
        obtain rfl : chain = id := own
        exact served rfl rfl (resting epoch).1
    | undelegate chain epoch shares =>
        obtain rfl : chain = id := own
        exact served rfl rfl (resting epoch).2
    | _ => cases divides

theorem heard_matches (booked : h.Booked errands id) (leaves : cause.Leaves may errands left)
    (fresh : ∀ errand outcome, may errand outcome → errand.op.chain = id →
      errand.givenUp = false)
    {op : RemoteOp} {outcome : Outcome} (heard : cause = .heard op outcome) (own : op.chain = id)
    (divides : op.shares? = some shares) (known : h.books.chain? id = some chain) :
    shares.Matches chain.validators := by
  subst heard
  obtain ⟨givenUp, perm, heard⟩ := leaves
  exact booked.matched ⟨op, givenUp⟩ (perm.symm.subset List.mem_cons_self) (fresh _ _ heard own)
    own shares divides chain known

section Move

variable (booked : h.Booked errands id) (same : errands.ops = h.outstanding)
  (moved : Move s h.books cause r) (leaves : cause.Leaves may errands left)
  (fresh : ∀ errand outcome, may errand outcome → errand.op.chain = id → errand.givenUp = false)

include booked moved leaves fresh

theorem account (known' : (h.books.applyAll r.commands).chain? id = some chain') :
    Account h.books id cause chain' := by
  have staffed {chain : Chain} (known : h.books.chain? id = some chain) : chain.Staffed :=
    Chain.staffed_of_sound (booked.staffed id chain known)
  cases moved.booking booked.sound.kept known' with
  | registered unknown staked held none => exact .opened staked held
  | kept known staked validators => exact .same known staked (congrArg heldBy validators)
  | restaffed known sound resting noneAbandoned staked validators none =>
      refine .same known staked ?_
      rw [validators,
        Hub.heldBy_retained (staffed known).distinct (Roster.distinct sound) noneAbandoned]
  | delegated known heard found awaited staked validators none =>
      have matched := booked.heard_matches leaves fresh heard rfl rfl known
      rw [matched.book _ (staffed known).distinct] at validators
      exact .grown known heard found awaited staked
        (validators ▸ Allocation.heldBy_added _ _ matched.length)
  | undelegated known heard staked validators none =>
      have matched := booked.heard_matches leaves fresh heard rfl rfl known
      rw [matched.book _ (staffed known).distinct] at validators
      exact .shrunk known heard matched staked (validators ▸ Allocation.heldBy_taken _ _)

include same

theorem move : (HubState.commit ⟨h.books, left.ops⟩ r).Booked (left.record cause r) id := by
  have kept := booked.sound.kept
  have takes := leaves.takes
  rw [same] at takes
  refine ⟨booked.sound.move moved takes, moved.rosters booked.staffed fun _ sound _ => sound,
    fun stage own => ?_, ?_, fun chain' known' => ?_⟩
  · refine (moved.turn kept booked.sound.orderly stage).serving_le leaves ?_
      (booked.unrivalled stage own)
    intro op outcome givenUp _ serves heard
    rw [RemoteOp.serves_iff] at serves
    exact fresh _ _ heard ((RemoteOp.chain_of_stage? serves).trans own)
  · intro errand member unspent own shares divides chain' known'
    rcases List.mem_append.mp member with old | new
    · obtain ⟨errand, inLeft, rfl⟩ := List.mem_map.mp old
      have before := leaves.subset errand inLeft
      have unspent : errand.givenUp = false := (Bool.or_eq_false_iff.mp unspent).1
      -- An old errand is for the old set, and a new set is not put in over it.
      rcases (moved.booking kept known').addresses with ⟨chain, known, addresses⟩ | ⟨-, idle⟩
      · exact (booked.matched errand before unspent own shares divides chain known).congr addresses
      · exact (booked.unnamed same before unspent own divides idle).elim
    · obtain ⟨op, started, rfl⟩ := List.mem_map.mp new
      rcases (moved.booking kept known').addresses with ⟨chain, known, addresses⟩ | ⟨none, -⟩
      · have own : op.chain = id := own
        exact ((moved.divides started divides (own ▸ known)).matches divides).congr addresses
      · rw [none] at started
        cases started
  · cases booked.account moved leaves fresh known' with
    | opened staked held => exact staked ▸ Nat.zero_le _
    | same known staked held =>
        rw [staked, held]
        exact booked.covered _ known
    | grown known heard found awaited staked held =>
        have covered := booked.covered _ known
        rw [staked]
        refine Nat.le_trans ?_ held.1
        simp only [Width.addSat, Width.clamp]
        lia
    | shrunk known heard matched staked held =>
        rw [staked]
        exact Nat.le_trans (Nat.sub_le_sub_right (booked.covered _ known) _) held.1

/-- What is staked and what the validators hold stay the same figure, as long as
what is paid in is an amount and an undelegation that succeeds takes from no
validator more than it holds. -/
theorem move_even (settled : h.Settled t id) (below : t.paidIn id < Width.limit 128)
    (even : ∀ chain, h.books.chain? id = some chain → chain.staked = heldBy chain.validators)
    (within : ∀ {epoch shares receipts chain},
      cause = .heard (.undelegate id epoch shares) (.success receipts) →
        h.books.chain? id = some chain → shares.Within chain.validators)
    (known' : (h.books.applyAll r.commands).chain? id = some chain') :
    chain'.staked = heldBy chain'.validators := by
  have takes := leaves.takes
  rw [same] at takes
  cases booked.account moved leaves fresh known' with
  | opened staked held => rw [staked, held]
  | same known staked held =>
      rw [staked, held]
      exact even _ known
  | @grown chain batch shares receipts known heard found awaited staked held =>
      have sums : Allocation.sum shares = batch.amount := by
        obtain ⟨-, -, batch', found', sums⟩ := booked.sound.heard takes heard
        cases found.symm.trans found'
        exact sums
      have unsettled : batch.settled = false := batch.settled_eq awaited
      have total := (settled.balanced below).addSat_staked (settled.collected below) known
        (Books.mem_deposits found).1 unsettled
      -- All of it was collected, so nothing is cut off where it is booked.
      have fits : heldBy chain.validators + Allocation.sum shares < Width.limit 128 := by
        rw [← even chain known, sums, ← total]
        exact Width.clamp_lt _ _
      rw [staked, held.2 fits, ← even chain known, sums, total]
  | shrunk known heard matched staked held =>
      have taken := held.2 ((within heard known).held matched)
      rw [staked, even _ known]
      lia

end Move

end HubState.Booked

/-! ## Runs -/

def RemoteOp.covered (b : Books) : RemoteOp → Outcome → Bool
  | .undelegate id _ shares, .success _ =>
      (b.chain? id).all fun chain => decide (shares.Within chain.validators)
  | _, _ => true

/-- Word of the chain comes of no operation that was given up, and an undelegation
succeeds only if the validators hold its shares. -/
def Regular (id : ChainId) (h : HubState) (errand : Errand) (outcome : Outcome) : Prop :=
  errand.op.chain = id → errand.givenUp = false ∧ errand.op.covered h.books outcome = true

instance (id : ChainId) (h : HubState) (errand : Errand) (outcome : Outcome) :
    Decidable (Regular id h errand outcome) :=
  inferInstanceAs (Decidable (_ → _))

theorem Regular.within {epoch : Epoch} {receipts : List Receipt} {givenUp : Bool}
    (regular : Regular id h ⟨.undelegate id epoch shares, givenUp⟩ (.success receipts))
    (known : h.books.chain? id = some chain) : shares.Within chain.validators := by
  have covered := (regular rfl).2
  simpa [RemoteOp.covered, known] using covered

theorem HubState.after_even {steps : List Step} (regular : Hears (Regular id) steps)
    (below : (Tally.after steps).paidIn id < Width.limit 128)
    (known : (HubState.after steps).books.chain? id = some chain) :
    chain.staked = heldBy chain.validators := by
  refine (after_keeps (P := fun t h errands => h.Booked errands id ∧ h.Settled t id ∧
    (t.paidIn id < Width.limit 128 →
      ∀ chain, h.books.chain? id = some chain → chain.staked = heldBy chain.validators))
    ⟨.initial id, .initial id, fun _ => nofun⟩ (fun step _ => ?_) regular).2.2 below chain known
  intro t h cause r errands left _ same ⟨booked, settled, even⟩ move leaves _
  have takes := leaves.takes
  rw [same] at takes
  have fresh : ∀ errand outcome, Regular id h errand outcome → errand.op.chain = id →
      errand.givenUp = false := fun _ _ regular own => (regular own).1
  refine ⟨booked.move same move leaves fresh, settled.move move takes, fun below chain known => ?_⟩
  have bound := Nat.lt_of_le_of_lt (t.paidIn_le_record cause r id) below
  refine booked.move_even same move leaves fresh settled bound (even bound) ?_ known
  rintro epoch shares receipts chain rfl known
  obtain ⟨givenUp, -, regular⟩ := leaves
  exact regular.within known

theorem Hub.updateValidators_keeps (kept : b.WellKept) (known : b.chain? id = some chain)
    (staffed : chain.Staffed) {next : Roster} (answer : updateValidators b.view id next = .ok r) :
    ∃ chain', (b.applyAll r.commands).chain? id = some chain' ∧ chain'.roster = next ∧
      chain'.staked = chain.staked ∧ heldBy chain'.validators = heldBy chain.validators ∧
      ∀ validator ∈ chain'.validators, ∀ old ∈ chain.validators,
        validator.address = old.address → validator.delegated = old.delegated := by
  cases updateValidators_move (s := .sample 0 0) answer with
  | rewarded _ edge | depositMoved _ edge | redemptionMoved _ edge => cases edge
  | revised known' edge plain =>
      cases edge with
      | restaffed sound noDelegation noUndelegation noneAbandoned =>
          cases known.symm.trans known'
          refine ⟨{ chain with validators := retained chain.validators next }, ?_,
            roster_retained _ _, rfl,
            heldBy_retained staffed.distinct (Roster.distinct sound) noneAbandoned, ?_⟩
          · rw [Books.applyAll_chain, Books.chain?_putChain]
            exact if_pos (kept.chainKey known).symm
          · intro validator member old listed same
            rw [retained_delegated member, same, heldAt_of_mem staffed.distinct listed]

/-- In every state of a run that hears of no operation that was given up, and of
no undelegation that takes more than a validator holds, a chain has staked what
its validators hold, as long as what is paid in for it is an amount.  There is at
least one validator, and none is nameless, weightless or listed twice; and a new
set keeps what each validator that stays holds, and the sum. -/
theorem HubState.holdings_add_up (steps : List Step) (id : ChainId) (chain : Chain)
    (regular : Hears (Regular id) steps)
    (below : (Tally.after steps).paidIn id < Width.limit 128)
    (known : (HubState.after steps).books.chain? id = some chain) :
    chain.staked = heldBy chain.validators ∧ chain.Staffed ∧
      ∀ s next r h, (HubState.after steps).perform s (.updateValidators id next) = (.ok r, h) →
        ∃ chain', h.books.chain? id = some chain' ∧ chain'.roster = next ∧
          chain'.staked = chain.staked ∧ heldBy chain'.validators = heldBy chain.validators ∧
          ∀ validator ∈ chain'.validators, ∀ old ∈ chain.validators,
            validator.address = old.address → validator.delegated = old.delegated := by
  have staffed := after_staffed steps known
  refine ⟨after_even regular below known, staffed, fun s next r h performed => ?_⟩
  cases answer : Hub.updateValidators (HubState.after steps).books.view id next with
  | error stop => simp [perform, settle, Request.answer, answer] at performed
  | ok response =>
      simp only [perform, settle, Request.answer, answer, Prod.mk.injEq, Except.ok.injEq]
        at performed
      obtain ⟨rfl, rfl⟩ := performed
      exact Hub.updateValidators_keeps (after_wellKept steps) known staffed answer

/-- The validators hold the 600 of 1000 that stay staked, also when the set is
turned around. -/
theorem HubState.holdings_add_up_sample :
    ∃ chain, (HubState.after Step.sampleUnbonding).books.chain? "cosmoshub" = some chain ∧
      chain.staked = heldBy chain.validators ∧ chain.staked = 600 ∧
      ∃ r h chain', (HubState.after Step.sampleUnbonding).perform (.sample 600 0)
          (.updateValidators "cosmoshub" [("bob", 1), ("alice", 3)]) = (.ok r, h) ∧
        h.books.chain? "cosmoshub" = some chain' ∧
          heldBy chain'.validators = heldBy chain.validators := by
  obtain ⟨chain, known⟩ : ∃ chain,
      (HubState.after Step.sampleUnbonding).books.chain? "cosmoshub" = some chain :=
    Option.isSome_iff_exists.mp (by decide +kernel)
  have staked : ((HubState.after Step.sampleUnbonding).books.chain? "cosmoshub").map
      Chain.staked = some 600 := by decide +kernel
  obtain ⟨even, -, replaced⟩ := holdings_add_up Step.sampleUnbonding "cosmoshub" chain
    (.of_check (by decide +kernel)) (by decide +kernel) known
  have granted : ((HubState.after Step.sampleUnbonding).perform (.sample 600 0)
      (.updateValidators "cosmoshub" [("bob", 1), ("alice", 3)])).1.isOk = true := by
    decide +kernel
  cases performed : (HubState.after Step.sampleUnbonding).perform (.sample 600 0)
      (.updateValidators "cosmoshub" [("bob", 1), ("alice", 3)]) with
  | mk answer h =>
      rw [performed] at granted
      cases answer with
      | error stop => cases granted
      | ok r =>
          obtain ⟨chain', known', -, -, held, -⟩ := replaced _ _ r h performed
          rw [known, Option.map_some, Option.some.injEq] at staked
          exact ⟨chain, known, even, staked, r, h, chain', rfl, known', held⟩

end LiquidStaking
