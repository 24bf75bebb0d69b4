import LiquidStaking.Proofs.Accounts

/-!
# What operations need

The messages of an operation name accounts of its chain.  Where the hub starts an
operation they are open, and they still are once the whole answer is recorded,
which is when the operation is issued: only a timeout closes an account, and
nothing is started together with that.
-/

namespace LiquidStaking

variable {s : Surroundings} {b : Books} {h : HubState} {step : Step} {id : ChainId}
  {account : ControlAccount} {cause : Cause} {r : Response} {op : RemoteOp}

def RemoteOp.needs : RemoteOp → List ControlAccount
  | .transferRewards .. => [.delegate, .unbond]
  | .setWithdrawAddress _ => [.delegate, .unbond]
  | _ => [.delegate]

theorem RemoteOp.delegate_needed (op : RemoteOp) : .delegate ∈ op.needs := by
  cases op <;> exact List.mem_cons_self

def RemoteOp.Equipped (b : Books) (op : RemoteOp) : Prop :=
  ∀ account ∈ op.needs, (b.address? op.chain account).isSome = true

theorem Cause.reports?_ne_closed (spares : ∀ id account, cause ≠ .closed id account) :
    cause.reports? id account ≠ some none := by
  cases cause with
  | asked request => cases request <;> simp [reports?]
  | heard op outcome => simp [reports?]
  | closed id account => exact absurd rfl (spares id account)

namespace RemoteOp.Equipped

theorem of_both {chain : Chain} (known : b.chain? op.chain = some chain)
    (bothOpen : chain.bothOpen = true) : op.Equipped b := by
  intro account needed
  obtain ⟨delegate, unbond⟩ := Bool.and_eq_true_iff.mp bothOpen
  rw [Books.address?_of_known known]
  cases account with
  | delegate => exact delegate
  | unbond => exact unbond

theorem of_delegate {chain : Chain} (known : b.chain? op.chain = some chain)
    (isOpen : chain.delegateAddress.isSome = true) (needs : op.needs = [.delegate]) :
    op.Equipped b := by
  intro account needed
  rw [needs, List.mem_singleton] at needed
  rw [needed, Books.address?_of_known known]
  exact isOpen

theorem move (equipped : op.Equipped b) (kept : b.WellKept) (move : Move s b cause r)
    (spares : ∀ id account, cause ≠ .closed id account) :
    op.Equipped (b.applyAll r.commands) := by
  intro account needed
  rw [move.address? kept op.chain account]
  cases reported : cause.reports? op.chain account with
  | none => exact equipped account needed
  | some address =>
      cases address with
      | none => exact absurd reported (Cause.reports?_ne_closed spares)
      | some address => rfl

end RemoteOp.Equipped

/-! ## Moves -/

theorem Move.equipped (kept : b.WellKept) (move : Move s b cause r) (started : op ∈ r.dispatched) :
    op.Equipped (b.applyAll r.commands) := by
  have carried (spares : ∀ id account, cause ≠ .closed id account) (equipped : op.Equipped b) :=
    equipped.move kept move spares
  cases move with
  | revised known edge plain =>
      rw [Response.dispatched_chain] at started
      cases edge with
      | opened account address =>
          split at started
          · rename_i opened
            obtain rfl := List.mem_singleton.mp started
            rw [Books.applyAll_chain]
            refine .of_both ?_ (Bool.and_eq_true_iff.mp opened).1
            rw [Books.chain?_putChain, Chain.id_setAddress, kept.chainKey known]
            exact if_pos rfl
          · cases started
      | restaffed | withdrawAddressSet | closed => cases started
  | rewarded known edge told =>
      rw [Response.dispatched_chain] at started
      cases edge with
      | collected held bothOpen =>
          obtain rfl := List.mem_singleton.mp started
          exact carried nofun (.of_both known bothOpen)
      | forwarded bothOpen held =>
          obtain rfl := List.mem_singleton.mp started
          exact carried nofun (.of_both known bothOpen)
      | kept | bounced => cases started
  | requested known kind bothOpen =>
      obtain rfl := List.mem_singleton.mp started
      rcases kind with rfl | ⟨validators, rfl⟩
      · exact carried nofun (.of_both known bothOpen)
      · exact carried nofun (.of_both known bothOpen)
  | depositMoved found edge plain =>
      rw [Response.dispatched_deposit] at started
      obtain rfl := Option.mem_toList.mp started
      cases edge with
      | sent current earlier due known isOpen held =>
          exact carried nofun (.of_delegate known isOpen rfl)
      | divided current earlier due known isOpen something gone shared =>
          exact carried nofun (.of_delegate known isOpen rfl)
      | redriven failed known isOpen shared =>
          exact carried nofun (.of_delegate known isOpen rfl)
      | arrived awaited known isOpen shared =>
          exact carried nofun (.of_delegate known isOpen rfl)
  | redemptionMoved found edge plain =>
      rw [Response.dispatched_redemption] at started
      obtain rfl := Option.mem_toList.mp started
      cases edge with
      | started current earlier due known isOpen shared =>
          exact carried nofun (.of_delegate known isOpen rfl)
      | withdrawn current earlier due known isOpen =>
          exact carried nofun (.of_delegate known isOpen rfl)
  | released found awaited plain => simp at started
  | registered | repriced | epochStarted | deposited | depositOpened | delegated | reinvested
  | redeemed | unbonded | paid | quiet | stale | unanswered => cases started

theorem Move.success_of_started {heard : RemoteOp} {outcome : Outcome}
    (move : Move s b (.heard heard outcome) r) (started : op ∈ r.dispatched) :
    outcome.isSuccess = true := by
  cases move with
  | revised known edge plain =>
      rw [Response.dispatched_chain] at started
      cases edge with
      | withdrawAddressSet => cases started
  | rewarded known edge told =>
      rw [Response.dispatched_chain] at started
      cases edge with
      | forwarded => rfl
      | kept | bounced => cases started
  | depositMoved found edge plain =>
      rw [Response.dispatched_deposit] at started
      cases edge with
      | arrived => rfl
      | returned | stranded | refused => cases started
  | redemptionMoved found edge plain =>
      rw [Response.dispatched_redemption] at started
      cases edge with
      | refused | stayed => cases started
  | delegated | reinvested | unbonded | released => rfl
  | stale | unanswered => cases started

/-! ## Answers -/

theorem Passage.equipped {kind : EpochKind} {epoch : Epoch} (kept : b.WellKept)
    (passage : Passage s (.asked (.startEpoch kind epoch)) b r) (started : op ∈ r.dispatched) :
    op.Equipped (b.applyAll r.commands) := by
  generalize asked : Cause.asked (.startEpoch kind epoch) = cause at passage
  induction passage with
  | done => cases started
  | next move later ih =>
      subst asked
      rw [Response.commands_append, Books.applyAll_append]
      rw [Response.dispatched_append] at started
      rcases List.mem_append.mp started with early | late
      · intro account needed
        rw [later.address? (kept.applyAll _)]
        exact move.equipped kept early account needed
      · exact ih (kept.applyAll _) late

theorem Hub.answer_equipped (kept : b.WellKept) {request : Request}
    (granted : request.answer b.view s = .ok r) (started : op ∈ r.dispatched) :
    op.Equipped (b.applyAll r.commands) := by
  cases Hub.answer_course kept granted with
  | single move => exact move.equipped kept started
  | passing passage => exact passage.equipped kept started

theorem Hub.resolve_equipped (kept : b.WellKept) {heard : RemoteOp} {outcome : Outcome}
    (granted : resolve b.view s heard outcome = .ok r) (started : op ∈ r.dispatched) :
    op.Equipped (b.applyAll r.commands) := by
  rcases resolve_moves kept granted with
    ⟨-, move⟩ | ⟨account, first, second, rfl, -, rfl, move, closing⟩
  · exact move.equipped kept started
  · obtain ⟨record, written⟩ := closing.closed_commands
    have nothing : second.dispatched = [] := by rw [Response.dispatched, written]; rfl
    rw [Response.dispatched_append, nothing, List.append_nil] at started
    exact Bool.noConfusion (move.success_of_started started)

namespace HubState

def answer? (h : HubState) : Step → Option (Attempt HubError Response)
  | .perform s request => some (h.perform s request).1
  | .acknowledge s index outcome => (h.acknowledge? s index outcome).map Prod.fst

theorem settle_fst (h : HubState) (answer : Attempt HubError Response) :
    (h.settle answer).1 = answer := by
  cases answer <;> rfl

theorem answer?_performed {request : Request}
    (answered : h.answer? (.perform s request) = some (.ok r)) :
    request.answer h.books.view s = .ok r := by
  have same := Option.some.inj answered
  rwa [perform, settle_fst] at same

theorem answer?_acknowledged {index : Nat} {outcome : Outcome}
    (answered : h.answer? (.acknowledge s index outcome) = some (.ok r)) :
    ∃ op, h.outstanding[index]? = some op ∧ Hub.resolve h.books.view s op outcome = .ok r := by
  simp only [answer?, acknowledge?, Option.map_map, Option.map_eq_some_iff] at answered
  obtain ⟨op, found, same⟩ := answered
  refine ⟨op, found, ?_⟩
  rwa [Function.comp_apply, resolve, settle_fst] at same

theorem answer?_occurs (answered : h.answer? step = some (.ok r)) :
    ∃ cause, h.occurrence? step = some (cause, r) := by
  cases step with
  | perform s request => simp [occurrence?, answer?_performed answered]
  | acknowledge s index outcome =>
      obtain ⟨op, found, granted⟩ := answer?_acknowledged answered
      simp [occurrence?, found, granted]

theorem answer?_equipped (kept : h.books.WellKept) (answered : h.answer? step = some (.ok r))
    (started : op ∈ r.dispatched) : op.Equipped (h.books.applyAll r.commands) := by
  cases step with
  | perform s request => exact Hub.answer_equipped kept (answer?_performed answered) started
  | acknowledge s index outcome =>
      obtain ⟨heard, -, granted⟩ := answer?_acknowledged answered
      exact Hub.resolve_equipped kept granted started

end HubState

end LiquidStaking
