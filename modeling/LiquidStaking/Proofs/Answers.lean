import LiquidStaking.Proofs.Rosters
import LiquidStaking.Proofs.Waiting

/-!
# The hub answers

The hub has an answer to word of every operation for a batch: the chain is known,
the shares sum to an amount, and if the batch has to be divided its chain has
validators to divide it among.  Where no batch waits for the word, nothing comes
of it.  Word of the other operations needs no more than the chain.
-/

namespace LiquidStaking

variable {s : Surroundings} {b : Books} {id : ChainId} {epoch : Epoch} {stage : Stage}
  {outcome : Outcome} {shares : Allocation} {chain : Chain}

theorem Attempt.ok_bind {ε α β : Type} (value : α) (next : α → Attempt ε β) :
    ((.ok value : Attempt ε α) >>= next) = next value := rfl

namespace Hub

theorem depositTransferred_answers (known : b.chain? id = some chain)
    (divides : ∀ batch, b.deposit? id epoch = some batch →
      ∃ shares, Allocation.byWeight? batch.amount chain.validators = some shares) :
    ∃ r, depositTransferred b.view id epoch outcome = .ok r := by
  have stored : b.view.deposit? id epoch = some (b.deposit? id epoch) := rfl
  have read : b.view.chain id = .ok chain := Books.view_chain.mpr known
  simp only [depositTransferred, stored, read, Attempt.promised, Attempt.ok_bind]
  split
  · exact ⟨_, rfl⟩
  · rename_i batch found
    obtain ⟨shares, divided⟩ := divides batch (Option.filter_eq_some_iff.mp found).1
    split
    · exact ⟨_, rfl⟩
    · split
      · exact ⟨_, rfl⟩
      · simp only [delegation?, divided, Option.bind_eq_bind, Option.bind_some]
        exact ⟨_, rfl⟩

theorem depositDelegated_answers (known : b.chain? id = some chain)
    (sums : ∃ total, Allocation.total? shares = some total) :
    ∃ r, depositDelegated b.view id epoch shares outcome = .ok r := by
  have stored : b.view.deposit? id epoch = some (b.deposit? id epoch) := rfl
  have read : b.view.chain id = .ok chain := Books.view_chain.mpr known
  obtain ⟨total, summed⟩ := sums
  simp only [depositDelegated, stored, read, summed, Attempt.promised, Attempt.ok_bind]
  split
  · exact ⟨_, rfl⟩
  · split <;> exact ⟨_, rfl⟩

theorem redemptionStarted_answers (known : b.chain? id = some chain)
    (sums : ∃ total, Allocation.total? shares = some total) :
    ∃ r, redemptionStarted b.view s id epoch shares outcome = .ok r := by
  have stored : b.view.redemption? id epoch = some (b.redemption? id epoch) := rfl
  have read : b.view.chain id = .ok chain := Books.view_chain.mpr known
  obtain ⟨total, summed⟩ := sums
  simp only [redemptionStarted, stored, read, summed, Attempt.promised, Attempt.ok_bind]
  split
  · exact ⟨_, rfl⟩
  · split <;> exact ⟨_, rfl⟩

theorem redemptionWithdrawn_answers (b : Books) (id : ChainId) (epoch : Epoch)
    (outcome : Outcome) : ∃ r, redemptionWithdrawn b.view id epoch outcome = .ok r := by
  have stored : b.view.redemption? id epoch = some (b.redemption? id epoch) := rfl
  simp only [redemptionWithdrawn, stored, mapM_claims, Attempt.promised, Attempt.ok_bind]
  split
  · exact ⟨_, rfl⟩
  · split <;> exact ⟨_, rfl⟩

theorem rewardsTransferred_answers {amount : Amount} (known : b.chain? id = some chain) :
    ∃ r, rewardsTransferred b.view id amount outcome = .ok r := by
  have current : b.view.epoch? .delegation = some (b.epoch? .delegation) := rfl
  have stored (epoch : Epoch) : b.view.deposit? id epoch = some (b.deposit? id epoch) := rfl
  have read : b.view.chain id = .ok chain := Books.view_chain.mpr known
  simp only [rewardsTransferred, current, stored, read, Attempt.promised, Attempt.ok_bind]
  split <;> exact ⟨_, rfl⟩

theorem rewardsWithdrawn_answers (known : b.chain? id = some chain) :
    ∃ r, rewardsWithdrawn b.view id outcome = .ok r := by
  have read : b.view.chain id = .ok chain := Books.view_chain.mpr known
  unfold rewardsWithdrawn
  split
  · simp only [read, Attempt.ok_bind]
    split
    · exact ⟨_, rfl⟩
    · split <;> exact ⟨_, rfl⟩
  · exact ⟨_, rfl⟩

theorem withdrawAddressSet_answers (known : b.chain? id = some chain) :
    ∃ r, withdrawAddressSet b.view id outcome = .ok r := by
  have read : b.view.chain id = .ok chain := Books.view_chain.mpr known
  simp only [withdrawAddressSet, read, Attempt.ok_bind]
  split <;> exact ⟨_, rfl⟩

theorem closeAccount_answers {account : ControlAccount} (known : b.chain? id = some chain)
    (first : Response) : ∃ r, closeAccount b.view id account first = .ok r := by
  have read : b.view.chain id = .ok chain := Books.view_chain.mpr known
  simp only [closeAccount, read]
  split <;> exact ⟨_, rfl⟩

theorem resolve_of_proceeds {op : RemoteOp} (known : b.chain? op.chain = some chain)
    (proceeds : ∃ r, proceed b.view s op outcome = .ok r) :
    ∃ r, resolve b.view s op outcome = .ok r := by
  obtain ⟨first, went⟩ := proceeds
  rw [resolve, went, Attempt.ok_bind]
  split
  · exact closeAccount_answers known first
  · exact ⟨_, rfl⟩

theorem resolve_answers (orderly : b.Orderly)
    (weighed : b.Rosters Roster.Weighed) {op : RemoteOp} (founded : op.Founded b)
    (serves : op.serves stage = true) (outcome : Outcome) :
    ∃ r, resolve b.view s op outcome = .ok r := by
  obtain ⟨⟨chain, known⟩, figures⟩ := founded
  refine resolve_of_proceeds known ?_
  cases op with
  | transferDeposit id epoch amount =>
      refine depositTransferred_answers known fun batch found => ?_
      obtain ⟨weighty, fits⟩ := weighed _ _ known
      have weights : (chain.roster.map Prod.snd) = chain.validators.map Validator.weight := by
        simp [Chain.roster, Function.comp_def]
      rw [weights] at weighty fits
      exact Allocation.byWeight?_isSome (orderly.depositFits (Books.mem_deposits found).1).2
        weighty fits
  | delegate id epoch shares =>
      obtain ⟨-, batch, found, sums⟩ := figures
      have fits := (orderly.depositFits (Books.mem_deposits found).1).2
      exact depositDelegated_answers known
        ⟨_, Allocation.total?_eq_some.mpr ⟨rfl, sums ▸ fits⟩⟩
  | undelegate id epoch shares =>
      obtain ⟨-, batch, found, sums⟩ := figures
      have fits := orderly.redemptionFits (Books.mem_redemptions found).1
      exact redemptionStarted_answers known
        ⟨_, Allocation.total?_eq_some.mpr ⟨rfl, sums ▸ fits⟩⟩
  | withdrawUnbonded id epoch amount => exact redemptionWithdrawn_answers b id epoch outcome
  | withdrawRewards | transferRewards | setWithdrawAddress => cases serves

theorem founded_answers (orderly : b.Orderly) (weighed : b.Rosters Roster.Weighed)
    {op : RemoteOp} (founded : op.Founded b) (outcome : Outcome) :
    ∃ r, resolve b.view s op outcome = .ok r := by
  obtain ⟨chain, known⟩ := founded.1
  cases op with
  | transferDeposit | delegate | undelegate | withdrawUnbonded =>
      exact resolve_answers orderly weighed founded (RemoteOp.serves_iff.mpr rfl) outcome
  | withdrawRewards id validators =>
      exact resolve_of_proceeds known (rewardsWithdrawn_answers known)
  | transferRewards id amount => exact resolve_of_proceeds known (rewardsTransferred_answers known)
  | setWithdrawAddress id => exact resolve_of_proceeds known (withdrawAddressSet_answers known)

theorem proceed_idle {op : RemoteOp} (idle : b.awaits stage = false)
    (serves : op.serves stage = true) (outcome : Outcome) :
    proceed b.view s op outcome = .ok .empty := by
  have deposits (id : ChainId) (epoch : Epoch) :
      b.view.deposit? id epoch = some (b.deposit? id epoch) := rfl
  have redemptions (id : ChainId) (epoch : Epoch) :
      b.view.redemption? id epoch = some (b.redemption? id epoch) := rfl
  rw [RemoteOp.serves_iff] at serves
  cases op with
  | transferDeposit id epoch amount =>
      cases serves
      have none : (b.deposit? id epoch).filter (fun batch => batch.status == .transferring) =
          none := Option.filter_eq_none_iff.mpr fun batch found awaited =>
        (Books.idle_deposit rfl).mp idle batch found
          (DepositStatus.leg?_transfer.mpr (by simpa using awaited))
      simp only [proceed, depositTransferred, deposits, Attempt.promised, Attempt.ok_bind, none]
      rfl
  | delegate id epoch shares =>
      cases serves
      have none : (b.deposit? id epoch).filter (fun batch => batch.status == .delegating) =
          none := Option.filter_eq_none_iff.mpr fun batch found awaited =>
        (Books.idle_deposit rfl).mp idle batch found
          (DepositStatus.leg?_delegation.mpr (by simpa using awaited))
      simp only [proceed, depositDelegated, deposits, Attempt.promised, Attempt.ok_bind, none]
      rfl
  | undelegate id epoch shares =>
      cases serves
      have none : (b.redemption? id epoch).filter (fun batch => batch.status == .starting) =
          none := Option.filter_eq_none_iff.mpr fun batch found awaited =>
        (Books.idle_redemption rfl).mp idle batch found
          (RedemptionStatus.leg?_undelegation.mpr (by simpa using awaited))
      simp only [proceed, redemptionStarted, redemptions, Attempt.promised, Attempt.ok_bind, none]
      rfl
  | withdrawUnbonded id epoch amount =>
      cases serves
      have none : (b.redemption? id epoch).filter (fun batch => batch.status == .withdrawing) =
          none := Option.filter_eq_none_iff.mpr fun batch found awaited =>
        (Books.idle_redemption rfl).mp idle batch found
          (RedemptionStatus.leg?_withdrawal.mpr (by simpa using awaited))
      simp only [proceed, redemptionWithdrawn, redemptions, Attempt.promised, Attempt.ok_bind,
        none]
      rfl
  | withdrawRewards | transferRewards | setWithdrawAddress => cases serves

end Hub

theorem HubState.after_answers {steps : List Step} (sized : ∀ step ∈ steps, step.sized = true)
    {op : RemoteOp} (outstanding : op ∈ (after steps).outstanding) (outcome : Outcome) :
    ∃ r, Hub.resolve (after steps).books.view s op outcome = .ok r :=
  have sound := after_sound steps
  Hub.founded_answers sound.orderly (after_weighed sized) (sound.founded op outstanding) outcome

end LiquidStaking
