import LiquidStaking.Proofs.Accounts
import LiquidStaking.Proofs.Written
import LiquidStaking.Proofs.Widths

/-!
# A timeout is a failure that closes the account

What the hub does about a timeout it does about a failure too: it returns the batch
or the rewards, asks nothing of the ledger and starts nothing.  Where an account
carried the operation out, the timeout also clears the account's address, in the
profile as the failure leaves it, so that nothing the failure records is lost.
-/

namespace LiquidStaking

variable {s : Surroundings} {b : Books} {store store' : Store} {id : ChainId} {chain : Chain}
  {op : RemoteOp} {r : Response}

namespace Hub

/-! ## Failures -/

theorem proceed_timeout (v : View) (s : Surroundings) (op : RemoteOp) :
    proceed v s op .timeout = proceed v s op .failure := by
  cases op <;> rfl

theorem proceed_failure_answers (known : b.chain? op.chain = some chain) :
    ∃ r, proceed b.view s op .failure = .ok r := by
  have deposits (id : ChainId) (epoch : Epoch) :
      b.view.deposit? id epoch = some (b.deposit? id epoch) := rfl
  have redemptions (id : ChainId) (epoch : Epoch) :
      b.view.redemption? id epoch = some (b.redemption? id epoch) := rfl
  cases op with
  | transferDeposit id epoch amount =>
      simp only [proceed, depositTransferred, deposits, Attempt.promised, Attempt.ok_bind]
      split <;> exact ⟨_, rfl⟩
  | delegate id epoch shares =>
      simp only [proceed, depositDelegated, deposits, Attempt.promised, Attempt.ok_bind]
      split <;> exact ⟨_, rfl⟩
  | undelegate id epoch shares =>
      simp only [proceed, redemptionStarted, redemptions, Attempt.promised, Attempt.ok_bind]
      split <;> exact ⟨_, rfl⟩
  | withdrawUnbonded id epoch amount => exact redemptionWithdrawn_answers b id epoch .failure
  | withdrawRewards id validators => exact ⟨_, rfl⟩
  | transferRewards id amount =>
      have answers : ∃ r, rewardsTransferred b.view id amount .failure = .ok r :=
        rewardsTransferred_answers known
      exact answers
  | setWithdrawAddress id => exact ⟨_, rfl⟩

end Hub

/-- A failure only records: nothing is ordered of the ledger, and nothing started. -/
theorem Move.effects_of_failed (move : Move s b (.heard op .failure) r) :
    r.commands.filterMap Command.effect? = [] := by
  cases move with
  | revised known edge plain => cases edge
  | rewarded known edge told => cases edge; rfl
  | depositMoved found edge plain => cases edge <;> rfl
  | redemptionMoved found edge plain => cases edge <;> rfl
  | stale | unanswered => rfl

/-! ## Closing the account -/

/-- The profile with the address of the account cleared, and all else as it was. -/
inductive Chain.Clears : ControlAccount → Chain → Chain → Prop
  | delegate (chain : Chain) : Clears .delegate chain { chain with delegateAddress := none }
  | unbond (chain : Chain) : Clears .unbond chain { chain with unbondAddress := none }

theorem Chain.clears_setAddress (chain : Chain) (account : ControlAccount) :
    Chain.Clears account chain (chain.setAddress account none) := by
  cases account with
  | delegate => exact .delegate chain
  | unbond => exact .unbond chain

theorem Hub.closeAccount_eq (registered : (b.chain? id).isSome = true) (account : ControlAccount)
    (first : Response) :
    ∃ chain, (b.applyAll first.commands).chain? id = some chain ∧
      closeAccount b.view id account first = .ok
        (first ++ ⟨[.chain (chain.setAddress account none)], [.accountClosed id account]⟩) := by
  obtain ⟨before, known⟩ := Option.isSome_iff_exists.mp registered
  have read : b.view.chain id = .ok before := Books.view_chain.mpr known
  have latest := chain?_applyAll b id first.commands
  unfold closeAccount
  cases written : lastWritten? id first.commands with
  | some chain => exact ⟨chain, by rw [latest, written, Option.some_or], rfl⟩
  | none => exact ⟨before, by rw [latest, written, Option.none_or, known], by rw [read]; rfl⟩

namespace Store

theorem applyAll_append {first second : List Command} {effects effects' : List Effect}
    {last : Store} (applied : store.applyAll first = some (store', effects))
    (rest : store'.applyAll second = some (last, effects')) :
    store.applyAll (first ++ second) = some (last, effects ++ effects') := by
  induction first generalizing store effects with
  | nil =>
      cases applied
      exact rest
  | cons command commands ih =>
      simp only [applyAll, Option.bind_eq_bind, Option.bind_eq_some_iff, Prod.exists,
        Option.pure_def, Option.some.injEq, Prod.mk.injEq] at applied
      obtain ⟨next, effect, one, middle, others, later, rfl, rfl⟩ := applied
      simp only [List.cons_append, applyAll, one, ih later, Option.bind_eq_bind,
        Option.bind_some, Option.pure_def, List.append_assoc]

theorem Holds.putChain_listed (holds : store.Holds b) (record : Chain)
    (listed : record.id ∈ b.chainIds) :
    store.putChain record = some (store.setDocument (Key.chain record.id).render record) := by
  simp only [Store.putChain, holds.chainIds, Option.bind_eq_bind, Option.bind_some, if_pos listed,
    Option.pure_def]

/-- The later store is the store with the address of the account cleared in the profile of the
chain, and every other entry as it was. -/
def Forgets (store : Store) (id : ChainId) (account : ControlAccount) (later : Store) : Prop :=
  ∃ before after : Chain, store.chain? id = some (some before) ∧ Chain.Clears account before after ∧
    later = store.setDocument (Key.chain id).render after

end Store

namespace Hub

/-- What the word of a timeout leaves, beside what the word of a failure leaves: the
same, except that the account that carried the operation out is forgotten. -/
structure Closes (op : RemoteOp) (failed timedOut : Response) (left later : Store) : Prop where
  carried : ∀ account, op.account? = some account →
    left.Forgets op.chain account later ∧
      timedOut.notices = failed.notices ++ [.accountClosed op.chain account]
  sent : op.account? = none → later = left ∧ timedOut.notices = failed.notices

section Recording

variable (kept : b.WellKept) (known : b.chain? op.chain = some chain)

include kept known

theorem failure_recorded (holds : store.Holds b) (fits : b.Fits) (s : Surroundings) :
    ∃ failed left, proceed b.view s op .failure = .ok failed ∧
      store.applyAll failed.commands = some (left, []) ∧
      left.Holds (b.applyAll failed.commands) := by
  obtain ⟨failed, went⟩ := proceed_failure_answers (s := s) known
  have move := proceed_move kept went
  obtain ⟨left, recorded, holdsLeft, -⟩ := holds.applyAll (move.fits fits rfl)
  rw [move.effects_of_failed] at recorded
  exact ⟨failed, left, went, recorded, holdsLeft⟩

/-- The chain was listed before, so closing its account writes its profile only. -/
theorem closing_recorded {left : Store} {failed : Response}
    (holds : left.Holds (b.applyAll failed.commands)) (account : ControlAccount) :
    ∃ closing later, closeAccount b.view op.chain account failed = .ok (failed ++ closing) ∧
      left.applyAll closing.commands = some (later, []) ∧
      left.Forgets op.chain account later ∧
      closing.notices = [.accountClosed op.chain account] := by
  obtain ⟨latest, current, closed⟩ :=
    closeAccount_eq (Option.isSome_of_mem known) account failed
  have kept := kept.applyAll failed.commands
  have key := kept.chainKey current
  have writes := holds.putChain_listed (latest.setAddress account none)
    (by rw [Chain.id_setAddress, key]; exact kept.listed current)
  rw [Chain.id_setAddress, key] at writes
  refine ⟨_, left.setDocument (Key.chain op.chain).render (latest.setAddress account none),
    closed, ?_, ⟨latest, _, (holds.chain? op.chain).trans (congrArg some current),
      latest.clears_setAddress account, rfl⟩, rfl⟩
  rw [Store.applyAll, Store.apply, writes]
  rfl

end Recording

/-- Whatever was recorded before, whichever operation is heard of, stale or awaited: as
long as its chain is registered, a timeout is answered as a failure is, asks as little
of the ledger and of other chains, and leaves the same storage, with the account closed
on top where one carried the operation out. -/
theorem timeout_closes (op : RemoteOp) {commands : List Command} {effects : List Store.Effect}
    (fits : ∀ command ∈ commands, command.Fits)
    (applied : Store.empty.applyAll commands = some (store, effects))
    (registered : store.chain? op.chain = some (some chain)) (s : Surroundings) :
    ∃ failed timedOut left later, resolve store.view s op .failure = .ok failed ∧
      resolve store.view s op .timeout = .ok timedOut ∧
      store.applyAll failed.commands = some (left, []) ∧
      store.applyAll timedOut.commands = some (later, []) ∧
      Closes op failed timedOut left later := by
  obtain ⟨_, same, holds, -⟩ := Store.holds_empty.applyAll fits
  obtain ⟨rfl, -⟩ := Prod.mk.inj (Option.some.inj (same.symm.trans applied))
  have kept := Books.WellKept.empty.applyAll commands
  have known : (Books.empty.applyAll commands).chain? op.chain = some chain :=
    Option.some.inj ((holds.chain? op.chain).symm.trans registered)
  obtain ⟨failed, left, went, recorded, holdsLeft⟩ :=
    failure_recorded kept known holds (Books.Fits.empty.applyAll fits) s
  have wentAlike := (proceed_timeout _ s op).trans went
  rw [holds.view]
  simp only [resolve, went, wentAlike, Attempt.ok_bind]
  cases carries : op.account? with
  | none =>
      refine ⟨failed, failed, left, left, rfl, rfl, recorded, recorded, fun account is => ?_,
        fun _ => ⟨rfl, rfl⟩⟩
      cases carries.symm.trans is
  | some account =>
      obtain ⟨closing, later, closed, cleared, forgotten, told⟩ :=
        closing_recorded kept known holdsLeft account
      refine ⟨failed, failed ++ closing, left, later, rfl, closed, recorded,
        Store.applyAll_append recorded cleared, fun other is => ?_, fun is => ?_⟩
      · cases carries.symm.trans is
        exact ⟨forgotten, by rw [Response.notices_append, told]⟩
      · cases carries.symm.trans is

/-- Both accounts of the chain are open, and two rewards are pending. -/
def sampleRewarded : Chain :=
  { Registration.sample.profile with
    delegateAddress := some "delegator", unbondAddress := some "rewards", pendingRewards := 2 }

theorem sampleRewarded_fits : sampleRewarded.Fits := by
  have profile : Registration.sample.profile.Fits := Registration.profile_fits (by decide)
  exact { profile with pendingRewards := by decide }

/-- Five rewards come back over a channel that closed: they are pending again, and the
account that was to send them is forgotten. -/
theorem timeout_closes_returned :
    (∀ command ∈ [Command.chain sampleRewarded], command.Fits) ∧ ∃ store left later : Store,
      Store.empty.applyAll [.chain sampleRewarded] = some (store, []) ∧
        left.chain? "cosmoshub" = some (some { sampleRewarded with pendingRewards := 7 }) ∧
        left.Forgets "cosmoshub" .unbond later ∧
        later = left.setDocument (Key.chain "cosmoshub").render
          { sampleRewarded with pendingRewards := 7, unbondAddress := none } := by
  have fits : ∀ command ∈ [Command.chain sampleRewarded], command.Fits :=
    List.forall_mem_singleton.mpr sampleRewarded_fits
  have returned : ∀ command ∈ [Command.chain { sampleRewarded with pendingRewards := 7 }],
      command.Fits := List.forall_mem_singleton.mpr (sampleRewarded_fits.pending (by decide))
  obtain ⟨store, applied, holds, -⟩ := Store.holds_empty.applyAll fits
  have registered : store.chain? "cosmoshub" = some (some sampleRewarded) := holds.chain? _
  obtain ⟨failed, timedOut, left, later, answered, -, recorded, -, closes⟩ :=
    timeout_closes (.transferRewards "cosmoshub" 5) fits applied registered (.sample 0 0)
  rw [holds.view] at answered
  obtain rfl : failed = ⟨[.chain { sampleRewarded with pendingRewards := 7 }], []⟩ :=
    (Except.ok.inj answered).symm
  obtain ⟨left', same, holdsLeft, -⟩ := holds.applyAll returned
  obtain ⟨rfl, -⟩ := Prod.mk.inj (Option.some.inj (same.symm.trans recorded))
  have pending : left'.chain? "cosmoshub" =
      some (some { sampleRewarded with pendingRewards := 7 }) := holdsLeft.chain? _
  have forgets : left'.Forgets "cosmoshub" .unbond later := (closes.carried .unbond rfl).1
  refine ⟨fits, store, left', later, applied, pending, forgets, ?_⟩
  obtain ⟨before, after, read, clears, rfl⟩ := forgets
  cases pending.symm.trans read
  cases clears
  rfl

end Hub

end LiquidStaking
