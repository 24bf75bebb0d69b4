import LiquidStaking.Proofs.Dispatches
import LiquidStaking.Proofs.Ports
import LiquidStaking.Proofs.Started

/-!
# Accounts that open

The port an account was asked for at tells its chain and its role, as no chain that is
registered has a point in its name.  A chain is registered with both accounts closed, and
only a report that one is open starts anything for it.
-/

namespace LiquidStaking

/-! ## Chains -/

variable {s : Surroundings} {b : Books} {cause : Cause} {r : Response} {id : ChainId}

namespace Books

theorem applyAll_known (b : Books) (known : (b.chain? id).isSome = true) (commands : List Command) :
    ((b.applyAll commands).chain? id).isSome = true := by
  induction commands generalizing b with
  | nil => exact known
  | cons command commands ih =>
      refine ih (b.apply command) ?_
      cases command with
      | chain record =>
          rw [apply, chain?_putChain]
          split
          · rfl
          · exact known
      | _ => exact known

def Named (good : ChainId → Prop) (b : Books) : Prop :=
  ∀ id, (b.chain? id).isSome = true → good id

theorem Named.putChain {good : ChainId → Prop} (named : b.Named good) (record : Chain)
    (fits : good record.id) : (b.putChain record).Named good := by
  intro id known
  rw [chain?_putChain] at known
  split at known
  · rename_i own
    exact own ▸ fits
  · exact named id known

end Books

section Names

variable {good : ChainId → Prop} (kept : b.WellKept) (named : b.Named good)
  (registers : ∀ registration, cause = .asked (.register registration) → good registration.chainId)

include kept named registers

theorem Move.names (move : Move s b cause r) : (b.applyAll r.commands).Named good := by
  have revised {owner : ChainId} {chain : Chain} (record : Chain)
      (known : b.chain? owner = some chain) (key : record.id = chain.id) :
      (b.putChain record).Named good := by
    refine named.putChain record ?_
    rw [key, kept.chainKey known]
    exact named owner (by rw [known]; rfl)
  cases move with
  | @registered registration sound fresh =>
      exact named.putChain registration.profile (registers registration rfl)
  | revised known edge plain =>
      rw [Books.applyAll_chain]
      exact revised _ known edge.revises.id
  | rewarded known edge told =>
      rw [Books.applyAll_chain]
      exact revised _ known edge.revises.id
  | @repriced owner chain rate epoch known backed priced =>
      exact revised { chain with rate } known rfl
  | @delegated owner chain batch shares total receipts notices found awaited known summed told =>
      exact revised _ known (chain.id_delegating receipts shares total)
  | @unbonded owner chain batch shares total completion receipts notices found awaited known
      summed due told =>
      exact revised _ known (chain.id_undelegating receipts shares total)
  | depositMoved found edge plain =>
      rw [Books.applyAll_deposit]
      exact named
  | redemptionMoved found edge plain =>
      rw [Books.applyAll_redemption]
      exact named
  | @released owner batch amount receipts notices found awaited plain =>
      rw [Books.applyAll_released]
      simpa [Books.Named] using named
  | requested | epochStarted | deposited | depositOpened | reinvested | redeemed | paid | quiet
  | stale | unanswered => exact named

theorem Passage.names (passage : Passage s cause b r) :
    (b.applyAll r.commands).Named good := by
  induction passage with
  | done => exact named
  | next move later ih =>
      rw [Response.commands_append, Books.applyAll_append]
      exact ih (kept.applyAll _) (move.names kept named registers)

theorem Course.names (course : Course s b cause r) : (b.applyAll r.commands).Named good := by
  cases course with
  | single move => exact move.names kept named registers
  | closing move closing =>
      rw [Response.commands_append, Books.applyAll_append]
      exact closing.names (kept.applyAll _) (move.names kept named registers)
        fun _ closed => Cause.noConfusion closed
  | passing passage => exact passage.names kept named registers

end Names

/-! ## Addresses -/

theorem Request.answer_address? (kept : b.WellKept) {request : Request}
    (answered : request.answer b.view s = .ok r) (id : ChainId) (account : ControlAccount) :
    (b.applyAll r.commands).address? id account =
      ((Cause.asked request).reports? id account).getD (b.address? id account) := by
  cases Hub.answer_course kept answered with
  | single move => exact move.address? kept id account
  | passing passage => exact passage.address? kept id account

structure Books.KeepsClosed (b b' : Books) : Prop where
  known : ∀ id, (b.chain? id).isSome = true → (b'.chain? id).isSome = true
  closed : ∀ id account, b.address? id account = none → b'.address? id account = none

theorem Books.KeepsClosed.refl (b : Books) : b.KeepsClosed b := ⟨fun _ => id, fun _ _ => id⟩

theorem Request.answer_keepsClosed (kept : b.WellKept) {request : Request}
    (answered : request.answer b.view s = .ok r)
    (silent : ∀ id account, (Cause.asked request).reports? id account = none) :
    b.KeepsClosed (b.applyAll r.commands) where
  known _ known := b.applyAll_known known _
  closed id account shut := by
    rw [answer_address? kept answered, silent, Option.getD_none, shut]

theorem Hub.resolve_keepsClosed (kept : b.WellKept) {op : RemoteOp} {outcome : Outcome}
    (answered : resolve b.view s op outcome = .ok r) : b.KeepsClosed (b.applyAll r.commands) where
  known _ known := b.applyAll_known known _
  closed id account shut := by
    rw [resolve_address? kept answered, shut, ite_self]

theorem Move.registers {registration : Registration}
    (move : Move s b (.asked (.register registration)) r) :
    b.chain? registration.chainId = none ∧
      ((b.applyAll r.commands).chain? registration.chainId).isSome = true := by
  cases move with
  | registered sound fresh =>
      have put : ((b.putChain registration.profile).chain? registration.chainId).isSome = true := by
        rw [Books.chain?_putChain]
        exact congrArg Option.isSome (if_pos rfl)
      exact ⟨fresh, put⟩
  | revised known edge plain => cases edge
  | rewarded known edge told => cases edge
  | depositMoved found edge plain => cases edge
  | redemptionMoved found edge plain => cases edge

end LiquidStaking
