import LiquidStaking.Proofs.Rosters
import LiquidStaking.Proofs.Storage

/-!
# Numbers keep to their widths

As long as the numbers that come in keep to their widths, so does everything the
hub records: sums are checked or stop at the largest amount, and what is taken
over from a record fitted there.
-/

namespace LiquidStaking

variable {s : Surroundings} {b : Books} {id : ChainId} {cause : Cause} {r : Response}

/-! ## What comes in -/

def Receipt.fits : Receipt → Bool
  | .unbondsAt time => decide (time < Width.limit 64)
  | .rewards amount => decide (amount < Width.limit 128)

def Outcome.fits : Outcome → Bool
  | .success receipts => receipts.all Receipt.fits
  | _ => true

def Request.fits (request : Request) : Bool :=
  request.roster?.all Roster.sized &&
    match request with
    | .register registration => decide (registration.unbondingPeriod < Width.limit 64)
    | .deposit _ amount _ | .redeem _ amount _ => decide (amount < Width.limit 128)
    | .payClaim _ epoch _ | .redriveDeposit _ epoch | .resetDeposit _ epoch
    | .resetRedemption _ epoch | .startEpoch _ epoch => decide (epoch < Width.limit 64)
    | .accountOpened .. | .updateValidators .. => true

def Step.fits : Step → Bool
  | .perform _ request => request.fits
  | .acknowledge _ _ outcome => outcome.fits

def Cause.fits : Cause → Bool
  | .asked request => request.fits
  | .heard _ outcome => outcome.fits
  | .closed .. => true

theorem Step.sized_of_fits {step : Step} (fits : step.fits = true) : step.sized = true := by
  cases step with
  | perform s request => exact (Bool.and_eq_true_iff.mp fits).1
  | acknowledge => rfl

theorem HubState.occurrence?_fits {h : HubState} {step : Step} (fits : step.fits = true)
    (occurs : h.occurrence? step = some (cause, r)) : cause.fits = true := by
  cases step with
  | perform s request =>
      obtain ⟨rfl, -⟩ := h.occurrence?_performed occurs
      exact fits
  | acknowledge s index outcome =>
      obtain ⟨op, -, rfl, -⟩ := h.occurrence?_acknowledged occurs
      exact fits

/-! ## What is recorded -/

theorem Width.addSat_lt (bits a b : Nat) : addSat bits a b < limit bits := clamp_lt bits _

namespace Books

structure Fits (b : Books) : Prop where
  chain : ∀ {id chain}, b.chain? id = some chain → chain.Fits
  epoch : ∀ {kind number}, b.epoch? kind = some number → number < Width.limit 64
  deposit : ∀ {id batch}, batch ∈ b.deposits id → batch.Fits
  redemption : ∀ {id batch}, batch ∈ b.redemptions id → batch.Fits
  claim : ∀ {id claim}, b.claim? id = some claim → claim.Fits

namespace Fits

theorem empty : Fits .empty := ⟨nofun, nofun, nofun, nofun, nofun⟩

theorem apply (fits : b.Fits) {command : Command} (written : command.Fits) :
    (b.apply command).Fits := by
  cases command with
  | chain record =>
      refine { fits with chain := fun {id chain} known => ?_ }
      rw [Books.apply, chain?_putChain] at known
      split at known
      · cases known
        exact written
      · exact fits.chain known
  | epoch kind number =>
      refine { fits with epoch := fun {other number'} current => ?_ }
      simp only [Books.apply, setAt] at current
      split at current
      · cases current
        exact written
      · exact fits.epoch current
  | deposit record =>
      refine { fits with deposit := fun member => ?_ }
      rcases mem_putDeposit member with ⟨rfl, -⟩ | old
      · exact written
      · exact fits.deposit old
  | redemption record =>
      refine { fits with redemption := fun member => ?_ }
      rcases mem_putRedemption member with ⟨rfl, -⟩ | old
      · exact written
      · exact fits.redemption old
  | claim record =>
      refine { fits with claim := fun {id claim} known => ?_ }
      rw [Books.apply, claim?_putClaim] at known
      split at known
      · cases known
        exact written
      · exact fits.claim known
  | token order => exact fits
  | dispatch op => exact fits

theorem applyAll (fits : b.Fits) {commands : List Command}
    (written : ∀ command ∈ commands, command.Fits) : (b.applyAll commands).Fits := by
  induction commands generalizing b with
  | nil => exact fits
  | cons command commands ih =>
      exact ih (fits.apply (written command List.mem_cons_self)) fun later member =>
        written later (List.mem_cons_of_mem _ member)

end Fits

end Books

/-! ## Moves -/

theorem Rate.ofBacking?_fits {backing supply : Amount} {rate : Rate}
    (fits : backing < Width.limit 128) (priced : Rate.ofBacking? backing supply = some rate) :
    rate.value.Fits := by
  simp only [Rate.ofBacking?, Decimal.ofRatio?] at priced
  split at priced
  · cases priced
  · cases priced
    have whole : backing * Decimal.scale < Width.limit 128 * Width.limit 128 :=
      Nat.mul_lt_mul_of_lt_of_le fits (by decide) (by decide)
    rw [Width.limit_mul] at whole
    exact Nat.lt_of_le_of_lt (Nat.div_le_self _ _) whole

theorem Hub.completionTime_fits {now : Seconds} {chain : Chain} {receipts : List Receipt}
    (fits : receipts.all Receipt.fits = true) :
    completionTime now chain receipts < Width.limit 64 := by
  unfold completionTime
  cases latest : Receipt.latestCompletion? receipts with
  | none => exact Width.addSat_lt 64 _ _
  | some time =>
      obtain ⟨receipt, member, reported⟩ := List.mem_filterMap.mp (List.max?_mem latest)
      have own := List.all_eq_true.mp fits receipt member
      cases receipt with
      | unbondsAt told =>
          cases reported
          simpa [Receipt.fits] using own
      | rewards => cases reported

theorem Allocation.book_fits {change : Amount → Amount → Amount}
    (keeps : ∀ held share, held < Width.limit 128 → change held share < Width.limit 128)
    {validators : List Validator} (fits : ∀ v ∈ validators, v.Fits) (shares : Allocation) :
    ∀ v ∈ book change shares validators, v.Fits := by
  have one (share : Share) {validators : List Validator} (fits : ∀ v ∈ validators, v.Fits) :
      ∀ v ∈ book.bookShare change share validators, v.Fits := by
    induction validators with
    | nil => nofun
    | cons first rest ih =>
        have own := fits first List.mem_cons_self
        have later : ∀ v ∈ rest, v.Fits := fun v member => fits v (List.mem_cons_of_mem _ member)
        rw [book.bookShare]
        split
        · exact List.forall_mem_cons.mpr ⟨⟨own.1, keeps _ _ own.2⟩, later⟩
        · exact List.forall_mem_cons.mpr ⟨own, ih later⟩
  induction shares generalizing validators with
  | nil => exact fits
  | cons share shares ih => exact ih (one share fits)

theorem Hub.retained_fits {current : List Validator} {next : Roster}
    (fits : ∀ v ∈ current, v.Fits) (sized : Roster.sized next = true) :
    ∀ v ∈ retained current next, v.Fits := by
  intro v member
  obtain ⟨⟨address, weight⟩, listed, rfl⟩ := List.mem_map.mp member
  have light := List.all_eq_true.mp (Bool.and_eq_true_iff.mp sized).2 _ listed
  refine ⟨by simpa using light, ?_⟩
  dsimp only
  cases found : current.find? fun v => v.address == address with
  | none => exact Width.limit_pos 128
  | some held => exact (fits held (List.mem_of_find?_eq_some found)).2

namespace Chain.Fits

variable {chain : Chain} (fits : chain.Fits)

include fits

theorem setAddress (account : ControlAccount) (address : Option Address) :
    (chain.setAddress account address).Fits := by
  cases account <;> exact { fits with }

theorem pending {amount : Amount} (small : amount < Width.limit 128) :
    Chain.Fits { chain with pendingRewards := amount } :=
  { fits with pendingRewards := small }

theorem holdRewards (receipts : List Receipt) : (Hub.holdRewards chain receipts).1.Fits := by
  unfold Hub.holdRewards
  dsimp only
  split
  · exact fits
  · exact fits.pending (Width.addSat_lt 128 _ _)

theorem delegating (receipts : List Receipt) (shares : Allocation) (total : Amount) :
    (chain.delegating receipts shares total).Fits :=
  { fits.holdRewards receipts with
    validators := Allocation.book_fits (fun _ _ _ => Width.addSat_lt 128 _ _) fits.validators shares
    staked := Width.addSat_lt 128 _ _ }

theorem undelegating (receipts : List Receipt) (shares : Allocation) (total : Amount) :
    (chain.undelegating receipts shares total).Fits :=
  { fits.holdRewards receipts with
    validators := Allocation.book_fits (fun _ _ small => Nat.lt_of_le_of_lt (Nat.sub_le _ _) small)
      fits.validators shares
    staked := Nat.lt_of_le_of_lt (Nat.sub_le _ _) fits.staked }

end Chain.Fits

theorem ChainEdge.fits {chain chain' : Chain} {ops : List RemoteOp} (fits : chain.Fits)
    (typed : cause.fits = true) (edge : ChainEdge b id chain cause chain' ops) : chain'.Fits := by
  cases edge with
  | opened account address => exact fits.setAddress account _
  | restaffed sound noDelegation noUndelegation noneAbandoned =>
      have sized := (Bool.and_eq_true_iff.mp typed).1
      exact { fits with validators := Hub.retained_fits fits.validators sized }
  | withdrawAddressSet receipts => exact { fits with }
  | closed account => exact fits.setAddress account _

theorem RewardEdge.fits {chain chain' : Chain} {ops : List RemoteOp} {reported : Amount}
    (fits : chain.Fits) (edge : RewardEdge b id chain cause chain' ops reported) :
    chain'.Fits := by
  cases edge with
  | collected | forwarded => exact fits.pending (Width.limit_pos 128)
  | kept | bounced => exact fits.pending (Width.addSat_lt 128 _ _)

theorem Registration.profile_fits {registration : Registration}
    (fits : (Request.register registration).fits = true) : registration.profile.Fits := by
  obtain ⟨sized, period⟩ := Bool.and_eq_true_iff.mp fits
  have light := List.all_eq_true.mp (Bool.and_eq_true_iff.mp sized).2
  exact {
    validators := fun v member => by
      obtain ⟨entry, listed, rfl⟩ := List.mem_map.mp member
      exact ⟨of_decide_eq_true (light entry listed), Width.limit_pos 128⟩
    rate := (by decide : Decimal.one.Fits)
    staked := Width.limit_pos 128
    unbondingPeriod := of_decide_eq_true period
    pendingRewards := Width.limit_pos 128 }

theorem Command.dispatches_fit (ops : List RemoteOp) :
    ∀ command ∈ ops.map Command.dispatch, command.Fits := by
  intro command member
  obtain ⟨op, -, rfl⟩ := List.mem_map.mp member
  trivial

theorem Command.dispatch?_fits (op : Option RemoteOp) :
    ∀ command ∈ (op.map Command.dispatch).toList, command.Fits := by
  cases op with
  | none => nofun
  | some op => exact Command.dispatches_fit [op]

theorem Move.fits (fits : b.Fits) (typed : cause.fits = true) (move : Move s b cause r) :
    ∀ command ∈ r.commands, command.Fits := by
  -- The batch that a request joins or opens is of the current epoch.
  have deposit {id : ChainId} {epoch : Epoch} (current : b.epoch? .delegation = some epoch) :
      DepositBatch.Fits ((b.deposit? id epoch).getD (.empty id epoch)) := by
    cases found : b.deposit? id epoch with
    | none => exact ⟨fits.epoch current, Width.limit_pos 128, Width.limit_pos 128⟩
    | some batch => exact fits.deposit (Books.mem_deposits found).1
  have redemption {id : ChainId} {epoch : Epoch} (current : b.epoch? .undelegation = some epoch) :
      RedemptionBatch.Fits ((b.redemption? id epoch).getD (.empty id epoch)) := by
    cases found : b.redemption? id epoch with
    | none => exact ⟨fits.epoch current, Width.limit_pos 128, Width.limit_pos 128, nofun⟩
    | some batch => exact fits.redemption (Books.mem_redemptions found).1
  cases move with
  | registered sound fresh =>
      exact List.forall_mem_singleton.mpr (Registration.profile_fits typed)
  | revised known edge plain =>
      exact List.forall_mem_cons.mpr
        ⟨edge.fits (fits.chain known) typed, Command.dispatches_fit _⟩
  | rewarded known edge told =>
      exact List.forall_mem_cons.mpr ⟨edge.fits (fits.chain known), Command.dispatches_fit _⟩
  | requested known kind => exact Command.dispatches_fit [_]
  | repriced known backed priced =>
      have own := fits.chain known
      exact List.forall_mem_singleton.mpr
        { own with rate := Rate.ofBacking?_fits (Width.addSat_lt 128 _ _) priced }
  | @epochStarted kind epoch later =>
      have given : (Request.startEpoch kind epoch).fits = true := typed
      have small : epoch < Width.limit 64 := of_decide_eq_true (Bool.and_eq_true_iff.mp given).2
      exact List.forall_mem_singleton.mpr small
  | deposited known current found positive priced worthwhile room =>
      have own := fits.deposit (Books.mem_deposits found).1
      exact List.forall_mem_cons.mpr
        ⟨{ own with amount := room }, List.forall_mem_singleton.mpr trivial⟩
  | depositOpened known current absent =>
      exact List.forall_mem_singleton.mpr
        ⟨fits.epoch current, Width.limit_pos 128, Width.limit_pos 128⟩
  | depositMoved found edge plain =>
      have own := fits.deposit (Books.mem_deposits found).1
      exact List.forall_mem_cons.mpr ⟨{ own with }, Command.dispatch?_fits _⟩
  | delegated found awaited known summed told =>
      have own := fits.deposit (Books.mem_deposits found).1
      exact List.forall_mem_cons.mpr ⟨(fits.chain known).delegating _ _ _,
        List.forall_mem_singleton.mpr { own with }⟩
  | reinvested current found plain =>
      have own := found ▸ deposit current
      exact List.forall_mem_singleton.mpr
        { own with amount := Width.addSat_lt 128 _ _, reinvested := Width.addSat_lt 128 _ _ }
  | redeemed known current fresh positive priced worthwhile covered found burnedFits
      redeemableFits =>
      have own := found ▸ redemption current
      refine List.forall_mem_cons.mpr
        ⟨{ own with burned := burnedFits, redeemable := redeemableFits },
        List.forall_mem_singleton.mpr ⟨fits.epoch current, ?_⟩⟩
      exact Nat.lt_of_le_of_lt (Nat.le_add_left _ _) redeemableFits
  | redemptionMoved found edge plain =>
      have own := fits.redemption (Books.mem_redemptions found).1
      exact List.forall_mem_cons.mpr ⟨{ own with }, Command.dispatch?_fits _⟩
  | @unbonded id chain batch shares total completion receipts notices found awaited known summed
      due told =>
      have own := fits.redemption (Books.mem_redemptions found).1
      have dated : completion < Width.limit 64 := due ▸ Hub.completionTime_fits typed
      exact List.forall_mem_cons.mpr ⟨(fits.chain known).undelegating _ _ _,
        List.forall_mem_cons.mpr ⟨{ own with completion := fun _ is => Option.some.inj is ▸ dated },
          List.forall_mem_singleton.mpr trivial⟩⟩
  | released found awaited plain =>
      have own := fits.redemption (Books.mem_redemptions found).1
      refine List.forall_mem_append.mpr ⟨fun command member => ?_,
        List.forall_mem_singleton.mpr { own with }⟩
      obtain ⟨claim, listed, rfl⟩ := List.mem_map.mp member
      obtain ⟨id, -, known⟩ := List.mem_filterMap.mp listed
      exact { fits.claim known with }
  | paid known found claimable covered =>
      have own := fits.claim found
      exact List.forall_mem_cons.mpr ⟨{ own with }, List.forall_mem_singleton.mpr trivial⟩
  | quiet | stale | unanswered => nofun

/-! ## Runs -/

theorem Passage.fits (fits : b.Fits) (typed : cause.fits = true) (passage : Passage s cause b r) :
    ∀ command ∈ r.commands, command.Fits := by
  induction passage with
  | done => nofun
  | next move later ih =>
      have first := move.fits fits typed
      exact List.forall_mem_append.mpr ⟨first, ih (fits.applyAll first)⟩

theorem Course.fits (fits : b.Fits) (typed : cause.fits = true) (course : Course s b cause r) :
    ∀ command ∈ r.commands, command.Fits := by
  cases course with
  | single move => exact move.fits fits typed
  | closing move closing =>
      have first := move.fits fits typed
      exact List.forall_mem_append.mpr ⟨first, closing.fits (fits.applyAll first) rfl⟩
  | passing passage => exact passage.fits fits typed

namespace HubState

theorem occurrence?_commands_fit {h : HubState} {step : Step} (kept : h.books.WellKept)
    (fits : h.books.Fits) (typed : step.fits = true)
    (occurs : h.occurrence? step = some (cause, r)) : ∀ command ∈ r.commands, command.Fits :=
  (h.occurrence?_course kept occurs).fits fits (occurrence?_fits typed occurs)

theorem after_fits {steps : List Step} (typed : ∀ step ∈ steps, step.fits = true) :
    (after steps).books.Fits := by
  induction steps using List.reverseRecOn with
  | nil => exact .empty
  | append_singleton steps step ih =>
      have fits := ih fun earlier member => typed earlier (List.mem_append_left _ member)
      rw [after_append]
      cases occurs : (after steps).occurrence? step with
      | none => rwa [(after steps).step_of_none occurs]
      | some occurrence =>
          obtain ⟨cause, r⟩ := occurrence
          rw [(after steps).step_of_some occurs]
          exact fits.applyAll (occurrence?_commands_fit (after_wellKept steps) fits
            (typed step (by simp)) occurs)

end HubState

end LiquidStaking
