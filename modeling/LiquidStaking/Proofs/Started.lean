import LiquidStaking.Contract.Effects
import LiquidStaking.Proofs.Awaited
import LiquidStaking.Proofs.Dispatches
import LiquidStaking.Proofs.Funding
import LiquidStaking.Proofs.Json.Operations
import LiquidStaking.Proofs.Widths

/-!
# What is started

The numbers of an operation that is started keep to their widths, so that it can be
stashed and read back.  What word of an operation starts has been counted among its
transactions, and most requests start nothing.
-/

namespace LiquidStaking

variable {s : Surroundings} {b : Books} {cause : Cause} {r : Response} {op : RemoteOp}

/-! ## Widths -/

namespace Allocation

theorem fits_of_sum {shares : Allocation} {total : Amount} (sums : sum shares = total)
    (small : total < Width.limit 128) : ∀ share ∈ shares, share.Fits := by
  subst sums
  induction shares with
  | nil => nofun
  | cons share shares ih =>
      rw [sum_cons] at small
      exact List.forall_mem_cons.mpr ⟨Nat.lt_of_le_of_lt (Nat.le_add_right _ _) small,
        ih (Nat.lt_of_le_of_lt (Nat.le_add_left _ _) small)⟩

theorem byWeight?_fits {total : Amount} {validators : List Validator} {shares : Allocation}
    (divided : byWeight? total validators = some shares) (small : total < Width.limit 128) :
    ∀ share ∈ shares, share.Fits := by
  cases validators with
  | nil =>
      cases divided
      nofun
  | cons first rest =>
      exact fits_of_sum (byWeight?_sum (List.cons_ne_nil first rest) divided).1 small

theorem withinHoldings?_fits {total : Amount} {validators : List Validator} {shares : Allocation}
    (divided : withinHoldings? total validators = some shares) (small : total < Width.limit 128) :
    ∀ share ∈ shares, share.Fits := by
  cases validators with
  | nil =>
      cases divided
      nofun
  | cons first rest =>
      exact fits_of_sum (withinHoldings?_sum (List.cons_ne_nil first rest) divided) small

end Allocation

theorem Move.started_fits (fits : b.Fits) (move : Move s b cause r) (started : op ∈ r.dispatched) :
    op.Fits := by
  cases move with
  | revised known edge plain =>
      rw [Response.dispatched_chain] at started
      cases edge with
      | opened account address =>
          split at started
          · obtain rfl := List.mem_singleton.mp started
            trivial
          · cases started
      | restaffed | withdrawAddressSet | closed => cases started
  | rewarded known edge told =>
      rw [Response.dispatched_chain] at started
      cases edge with
      | collected held bothOpen =>
          obtain rfl := List.mem_singleton.mp started
          exact (fits.chain known).pendingRewards
      | forwarded bothOpen held =>
          obtain rfl := List.mem_singleton.mp started
          exact Width.addSat_lt 128 _ _
      | kept | bounced => cases started
  | requested known kind bothOpen =>
      obtain rfl := List.mem_singleton.mp started
      rcases kind with rfl | ⟨validators, rfl⟩ <;> trivial
  | depositMoved found edge plain =>
      have own := fits.deposit (Books.mem_deposits found).1
      rw [Response.dispatched_deposit] at started
      obtain rfl := Option.mem_toList.mp started
      cases edge with
      | sent current earlier due known isOpen held =>
          exact ⟨own.epoch, Nat.lt_of_le_of_lt (Nat.sub_le _ _) own.amount⟩
      | divided current earlier due known isOpen something gone shared =>
          exact ⟨own.epoch, Allocation.byWeight?_fits shared own.amount⟩
      | redriven failed known isOpen shared =>
          exact ⟨own.epoch, Allocation.byWeight?_fits shared own.amount⟩
      | arrived awaited known isOpen shared =>
          exact ⟨own.epoch, Allocation.byWeight?_fits shared own.amount⟩
  | redemptionMoved found edge plain =>
      have own := fits.redemption (Books.mem_redemptions found).1
      rw [Response.dispatched_redemption] at started
      obtain rfl := Option.mem_toList.mp started
      cases edge with
      | started current earlier due known isOpen shared =>
          exact ⟨own.epoch, Allocation.withinHoldings?_fits shared own.redeemable⟩
      | withdrawn current earlier due known isOpen => exact ⟨own.epoch, own.redeemable⟩
  | released found awaited plain => simp at started
  | registered | repriced | epochStarted | deposited | depositOpened | delegated | reinvested
  | redeemed | unbonded | paid | quiet | stale | unanswered => cases started

theorem Passage.started_fits (fits : b.Fits) (typed : cause.fits = true)
    (passage : Passage s cause b r) (started : op ∈ r.dispatched) : op.Fits := by
  induction passage with
  | done => cases started
  | next move later ih =>
      rw [Response.dispatched_append] at started
      rcases List.mem_append.mp started with first | rest
      · exact move.started_fits fits first
      · exact ih (fits.applyAll (move.fits fits typed)) rest

theorem Course.started_fits (fits : b.Fits) (typed : cause.fits = true)
    (course : Course s b cause r) (started : op ∈ r.dispatched) : op.Fits := by
  cases course with
  | single move => exact move.started_fits fits started
  | closing move closing =>
      rw [Response.dispatched_append] at started
      rcases List.mem_append.mp started with first | second
      · exact move.started_fits fits first
      · exact closing.started_fits (fits.applyAll (move.fits fits typed)) second
  | passing passage => exact passage.started_fits fits typed started

/-! ## Transactions -/

theorem RemoteOp.transactions_pos (op : RemoteOp) : 0 < op.transactions := by
  cases op <;> exact Nat.succ_pos _

@[simp] theorem Response.transactions_append (first second : Response) :
    (first ++ second).transactions = first.transactions + second.transactions := by
  simp [transactions, dispatched_append]

theorem Response.transactions_of_none (none : r.dispatched = []) : r.transactions = 0 := by
  rw [transactions, none]
  rfl

theorem Move.followed {outcome : Outcome} (move : Move s b (.heard op outcome) r) :
    r.transactions < op.transactions := by
  have nothing (none : r.dispatched = []) : r.transactions < op.transactions := by
    rw [Response.transactions_of_none none]
    exact op.transactions_pos
  cases move with
  | revised known edge plain =>
      cases edge with
      | withdrawAddressSet => exact nothing (Response.dispatched_chain _ _ _)
  | rewarded known edge told =>
      cases edge with
      | forwarded bothOpen held =>
          rw [Response.transactions, Response.dispatched_chain]
          exact Nat.lt_succ_self 1
      | kept | bounced => exact nothing (Response.dispatched_chain _ _ _)
  | depositMoved found edge plain =>
      cases edge with
      | arrived awaited known isOpen shared =>
          rw [Response.transactions, Response.dispatched_deposit]
          exact Nat.lt_succ_self 1
      | returned | stranded | refused => exact nothing (Response.dispatched_deposit _ none _)
  | redemptionMoved found edge plain =>
      cases edge with
      | refused | stayed => exact nothing (Response.dispatched_redemption _ none _)
  | released found awaited plain => exact nothing (Response.dispatched_released _ _ _)
  | delegated | reinvested | unbonded | stale | unanswered => exact nothing rfl

theorem Move.closed_starts_nothing {id : ChainId} {account : ControlAccount}
    (move : Move s b (.closed id account) r) : r.dispatched = [] := by
  obtain ⟨record, written⟩ := move.closed_commands
  rw [Response.dispatched, written]
  rfl

theorem Course.followed {outcome : Outcome} (course : Course s b (.heard op outcome) r) :
    r.transactions < op.transactions := by
  cases course with
  | single move => exact move.followed
  | closing move closing =>
      rw [Response.transactions_append,
        Response.transactions_of_none closing.closed_starts_nothing]
      exact move.followed

/-! ## Requests -/

def Request.startsNothing : Request → Bool
  | .register _ | .deposit .. | .redeem .. | .payClaim .. => true
  | _ => false

theorem Move.starts_nothing {request : Request} (move : Move s b (.asked request) r)
    (idle : request.startsNothing = true) : r.dispatched = [] := by
  cases move with
  | registered | deposited | redeemed | paid => rfl
  | revised known edge plain => cases edge <;> cases idle
  | rewarded known edge told => cases edge; cases idle
  | depositMoved found edge plain => cases edge <;> cases idle
  | redemptionMoved found edge plain => cases edge <;> cases idle
  | requested | repriced | epochStarted | depositOpened | quiet => cases idle

theorem Move.opened_starts {id : ChainId} {account : ControlAccount} {address : Address}
    (move : Move s b (.asked (.accountOpened id account address)) r) :
    ∃ chain, b.chain? id = some chain ∧ r.dispatched =
      if (chain.setAddress account (some address)).bothOpen && !chain.withdrawAddressSet then
        [.setWithdrawAddress id] else [] := by
  cases move with
  | revised known edge plain =>
      cases edge with
      | opened => exact ⟨_, known, Response.dispatched_chain _ _ _⟩
  | rewarded known edge told => cases edge
  | depositMoved found edge plain => cases edge
  | redemptionMoved found edge plain => cases edge

/-! ## Runs -/

namespace HubState

variable {h : HubState} {request : Request} {outcome : Outcome}

theorem after_outstanding_fits {steps : List Step} (typed : ∀ step ∈ steps, step.fits = true) :
    ∀ op ∈ (after steps).outstanding, op.Fits := by
  induction steps using List.reverseRecOn with
  | nil => nofun
  | append_singleton steps step ih =>
      have earlier : ∀ step ∈ steps, step.fits = true := fun step member =>
        typed step (List.mem_append_left _ member)
      rw [after_append]
      cases occurs : (after steps).occurrence? step with
      | none => rw [step_of_none _ occurs]; exact ih earlier
      | some occurrence =>
          obtain ⟨cause, r⟩ := occurrence
          rw [step_of_some _ occurs]
          have course := (after steps).occurrence?_course (after_wellKept steps) occurs
          exact List.forall_mem_append.mpr
            ⟨fun op member => ih earlier op (left_subset member), fun op started =>
              course.started_fits (after_fits earlier)
                (occurrence?_fits (typed step (by simp)) occurs) started⟩

theorem commit_asked (answered : request.answer h.books.view s = .ok r) :
    h.commit r = h.step (.perform s request) := by
  simp [HubState.step, perform, settle, answered]

theorem commit_heard (waited : op ∈ h.outstanding)
    (answered : Hub.resolve h.books.view s op outcome = .ok r) :
    commit ⟨h.books, h.outstanding.erase op⟩ r =
      h.step (.acknowledge s (h.outstanding.idxOf op) outcome) := by
  have found : h.outstanding[h.outstanding.idxOf op]? = some op := List.getElem?_idxOf waited
  rw [List.erase_eq_eraseIdx_of_idxOf rfl]
  simp [HubState.step, acknowledge?, found, resolve, settle, answered]

def Reached (h : HubState) : Prop :=
  ∃ steps : List Step, (∀ step ∈ steps, step.fits = true) ∧ h = after steps

namespace Reached

theorem initial : Reached .initial := ⟨[], nofun, rfl⟩

variable (reached : h.Reached)

include reached

theorem wellKept : h.books.WellKept := by
  obtain ⟨steps, -, rfl⟩ := reached
  exact after_wellKept steps

theorem fits : h.books.Fits := by
  obtain ⟨steps, typed, rfl⟩ := reached
  exact after_fits typed

theorem outstanding_fits : ∀ op ∈ h.outstanding, op.Fits := by
  obtain ⟨steps, typed, rfl⟩ := reached
  exact after_outstanding_fits typed

theorem step (step : Step) (typed : step.fits = true) : (h.step step).Reached := by
  obtain ⟨steps, earlier, rfl⟩ := reached
  exact ⟨steps ++ [step], List.forall_mem_append.mpr ⟨earlier, List.forall_mem_singleton.mpr typed⟩,
    (after_append _ _).symm⟩

theorem asked (typed : request.fits = true) (answered : request.answer h.books.view s = .ok r) :
    (∀ command ∈ r.commands, command.Fits) ∧ (∀ op ∈ r.dispatched, op.Fits) ∧
      (h.commit r).Reached := by
  have course := Hub.answer_course reached.wellKept answered
  have given : (Cause.asked request).fits = true := typed
  exact ⟨course.fits reached.fits given, fun op started =>
    course.started_fits reached.fits given started,
    commit_asked answered ▸ reached.step (.perform s request) typed⟩

theorem heard (waited : op ∈ h.outstanding) (typed : outcome.fits = true)
    (answered : Hub.resolve h.books.view s op outcome = .ok r) :
    (∀ command ∈ r.commands, command.Fits) ∧ (∀ op ∈ r.dispatched, op.Fits) ∧
      (commit ⟨h.books, h.outstanding.erase op⟩ r).Reached := by
  have course := Hub.resolve_course reached.wellKept answered
  have given : (Cause.heard op outcome).fits = true := typed
  exact ⟨course.fits reached.fits given, fun op started =>
    course.started_fits reached.fits given started,
    commit_heard waited answered ▸ reached.step (.acknowledge s _ outcome) typed⟩

end Reached

end HubState

end LiquidStaking
