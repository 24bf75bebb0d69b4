import LiquidStaking.Proofs.Moves.Requests

/-!
# Acknowledgements make moves

Going on with an acknowledged operation is one move.  Where a timeout closed the
channel of an account, forgetting the account's address is a second one, made on
the books as the first left them.
-/

namespace LiquidStaking

variable {s : Surroundings} {b : Books} {id : ChainId} {epoch : Epoch} {outcome : Outcome}
  {shares : Allocation} {r : Response}

namespace Hub

/-! ## Rewards held on the way -/

@[simp] theorem holdRewards_id (chain : Chain) (receipts : List Receipt) :
    (holdRewards chain receipts).1.id = chain.id := by
  unfold holdRewards
  dsimp only
  split <;> rfl

@[simp] theorem holdRewards_staked (chain : Chain) (receipts : List Receipt) :
    (holdRewards chain receipts).1.staked = chain.staked := by
  unfold holdRewards
  dsimp only
  split <;> rfl

@[simp] theorem holdRewards_validators (chain : Chain) (receipts : List Receipt) :
    (holdRewards chain receipts).1.validators = chain.validators := by
  unfold holdRewards
  dsimp only
  split <;> rfl

@[simp] theorem holdRewards_rate (chain : Chain) (receipts : List Receipt) :
    (holdRewards chain receipts).1.rate = chain.rate := by
  unfold holdRewards
  dsimp only
  split <;> rfl

@[simp] theorem holdRewards_derivativeDenom (chain : Chain) (receipts : List Receipt) :
    (holdRewards chain receipts).1.derivativeDenom = chain.derivativeDenom := by
  unfold holdRewards
  dsimp only
  split <;> rfl

@[simp] theorem holdRewards_voucherDenom (chain : Chain) (receipts : List Receipt) :
    (holdRewards chain receipts).1.voucherDenom = chain.voucherDenom := by
  unfold holdRewards
  dsimp only
  split <;> rfl

theorem holdRewards_unbondingPeriod (chain : Chain) (receipts : List Receipt) :
    (holdRewards chain receipts).1.unbondingPeriod = chain.unbondingPeriod := by
  unfold holdRewards
  dsimp only
  split <;> rfl

theorem holdRewards_pendingRewards_le (chain : Chain) (receipts : List Receipt) :
    (holdRewards chain receipts).1.pendingRewards ≤
      chain.pendingRewards + Receipt.totalRewards receipts := by
  unfold holdRewards
  dsimp only
  split
  · exact Nat.le_add_right _ _
  · exact Nat.min_le_left _ _

theorem holdRewards_pendingRewards (chain : Chain) (receipts : List Receipt)
    (fits : chain.pendingRewards + Receipt.totalRewards receipts < Width.limit 128) :
    (holdRewards chain receipts).1.pendingRewards =
      chain.pendingRewards + Receipt.totalRewards receipts := by
  unfold holdRewards
  dsimp only
  split
  · rename_i none
    rw [none, Nat.add_zero]
  · exact Width.addSat_of_lt fits

theorem holdRewards_told (chain : Chain) (receipts : List Receipt) (batch : DepositBatch)
    (other : ChainId) :
    Notice.rewardedIn other ((holdRewards chain receipts).2 ++ [batch.notice]) =
      if chain.id = other then Receipt.totalRewards receipts else 0 := by
  unfold holdRewards
  dsimp only
  split
  · rename_i none
    simp [Notice.rewardedIn, Notice.rewarded, DepositBatch.notice, none]
  · simp [Notice.rewardedIn, Notice.rewarded, DepositBatch.notice]

theorem holdRewards_told_redemption (chain : Chain) (receipts : List Receipt)
    (batch : RedemptionBatch) (other : ChainId) :
    Notice.rewardedIn other ((holdRewards chain receipts).2 ++ [batch.notice]) =
      if chain.id = other then Receipt.totalRewards receipts else 0 := by
  unfold holdRewards
  dsimp only
  split
  · rename_i none
    simp [Notice.rewardedIn, Notice.rewarded, RedemptionBatch.notice, none]
  · simp [Notice.rewardedIn, Notice.rewarded, RedemptionBatch.notice]

/-! ## One move each -/

theorem depositTransferred_move (kept : b.WellKept) {amount : Amount}
    (granted : depositTransferred b.view id epoch outcome = .ok r) :
    Move s b (.heard (.transferDeposit id epoch amount) outcome) r := by
  simp only [depositTransferred, Attempt.bind_eq_ok, Attempt.promised_eq_ok] at granted
  obtain ⟨found, read, granted⟩ := granted
  simp only [Books.view, Option.some.injEq] at read
  subst read
  split at granted
  · rename_i missing
    rw [Attempt.pure_eq_ok] at granted
    subst granted
    refine .stale (fun batch found => ?_) Notice.plain_nil
    simpa using Option.filter_eq_none_iff.mp missing batch found
  · rename_i batch found
    simp only [Option.filter_eq_some_iff, beq_iff_eq] at found
    obtain ⟨found, awaited⟩ := found
    obtain ⟨-, rfl⟩ := Books.mem_deposits found
    cases h : outcome.isSuccess
    · simp only [h, Bool.not_false, if_true, Attempt.pure_eq_ok] at granted
      subst granted
      exact .depositMoved found (.returned awaited h) (Notice.plain_deposit _)
    · obtain ⟨receipts, rfl⟩ : ∃ receipts, outcome = .success receipts := by
        cases outcome <;> simp_all [Outcome.isSuccess]
      simp only [h, Bool.not_true, Bool.false_eq_true, if_false, Attempt.bind_eq_ok,
        Books.view_chain] at granted
      obtain ⟨chain, known, granted⟩ := granted
      split at granted
      · rename_i isClosed
        rw [Attempt.pure_eq_ok] at granted
        subst granted
        exact .depositMoved found (.stranded awaited known isClosed) fun _ => rfl
      · rename_i notClosed
        simp only [Attempt.bind_eq_ok, Attempt.promised_eq_ok, delegation?, Option.bind_eq_bind,
          Option.bind_eq_some_iff, Attempt.pure_eq_ok] at granted
        obtain ⟨op, ⟨shares, shared, divided⟩, rfl⟩ := granted
        cases divided
        obtain rfl := kept.chainKey known
        have isOpen : chain.delegateAddress.isSome = true := by
          simpa [Option.isSome_iff_ne_none] using notClosed
        exact .depositMoved found (.arrived awaited known isOpen shared) (Notice.plain_deposit _)

theorem depositDelegated_move (kept : b.WellKept)
    (granted : depositDelegated b.view id epoch shares outcome = .ok r) :
    Move s b (.heard (.delegate id epoch shares) outcome) r := by
  simp only [depositDelegated, Attempt.bind_eq_ok, Attempt.promised_eq_ok] at granted
  obtain ⟨found, read, granted⟩ := granted
  simp only [Books.view, Option.some.injEq] at read
  subst read
  split at granted
  · rename_i missing
    rw [Attempt.pure_eq_ok] at granted
    subst granted
    refine .stale (fun batch found => ?_) Notice.plain_nil
    simpa using Option.filter_eq_none_iff.mp missing batch found
  · rename_i batch found
    simp only [Option.filter_eq_some_iff, beq_iff_eq] at found
    obtain ⟨found, awaited⟩ := found
    obtain ⟨-, rfl⟩ := Books.mem_deposits found
    split at granted
    · rename_i receipts
      simp only [Attempt.bind_eq_ok, Books.view_chain, Attempt.promised_eq_ok,
        Attempt.pure_eq_ok, holdRewards_staked, holdRewards_validators] at granted
      obtain ⟨chain, known, total, summed, rfl⟩ := granted
      obtain rfl := kept.chainKey known
      exact .delegated found awaited known summed (holdRewards_told chain receipts _)
    · rename_i failed
      rw [Attempt.pure_eq_ok] at granted
      subst granted
      refine .depositMoved found (.refused awaited ?_) (Notice.plain_deposit _)
      cases outcome <;> simp_all [Outcome.isSuccess]

theorem redemptionStarted_move (kept : b.WellKept)
    (granted : redemptionStarted b.view s id epoch shares outcome = .ok r) :
    Move s b (.heard (.undelegate id epoch shares) outcome) r := by
  simp only [redemptionStarted, Attempt.bind_eq_ok, Attempt.promised_eq_ok] at granted
  obtain ⟨found, read, granted⟩ := granted
  simp only [Books.view, Option.some.injEq] at read
  subst read
  split at granted
  · rename_i missing
    rw [Attempt.pure_eq_ok] at granted
    subst granted
    refine .stale (fun batch found => ?_) Notice.plain_nil
    simpa using Option.filter_eq_none_iff.mp missing batch found
  · rename_i batch found
    simp only [Option.filter_eq_some_iff, beq_iff_eq] at found
    obtain ⟨found, awaited⟩ := found
    obtain ⟨-, rfl⟩ := Books.mem_redemptions found
    split at granted
    · rename_i receipts
      simp only [Attempt.bind_eq_ok, Books.view_chain, Attempt.promised_eq_ok,
        Attempt.pure_eq_ok, holdRewards_staked, holdRewards_validators] at granted
      obtain ⟨chain, known, total, summed, rfl⟩ := granted
      obtain rfl := kept.chainKey known
      have sameTime : completionTime s.now (holdRewards chain receipts).1 receipts =
          completionTime s.now chain receipts := by
        rw [completionTime, holdRewards_unbondingPeriod, completionTime]
      have told := holdRewards_told_redemption chain receipts { batch with status := .waiting }
      rw [← List.append_nil ((holdRewards chain receipts).2 ++ _)] at told
      have move := Move.unbonded found awaited known summed sameTime told
      rw [← holdRewards_derivativeDenom chain receipts] at move
      exact move
    · rename_i failed
      rw [Attempt.pure_eq_ok] at granted
      subst granted
      refine .redemptionMoved found (.refused awaited ?_) (Notice.plain_redemption _)
      cases outcome <;> simp_all [Outcome.isSuccess]

theorem mapM_claims (members : List String) :
    members.mapM b.view.claim? = some (members.map b.claim?) :=
  mapM_eq_map fun _ _ => rfl

theorem redemptionWithdrawn_move {amount : Amount}
    (granted : redemptionWithdrawn b.view id epoch outcome = .ok r) :
    Move s b (.heard (.withdrawUnbonded id epoch amount) outcome) r := by
  simp only [redemptionWithdrawn, Attempt.bind_eq_ok, Attempt.promised_eq_ok] at granted
  obtain ⟨found, read, granted⟩ := granted
  simp only [Books.view, Option.some.injEq] at read
  subst read
  split at granted
  · rename_i missing
    rw [Attempt.pure_eq_ok] at granted
    subst granted
    refine .stale (fun batch found => ?_) Notice.plain_nil
    simpa using Option.filter_eq_none_iff.mp missing batch found
  · rename_i batch found
    simp only [Option.filter_eq_some_iff, beq_iff_eq] at found
    obtain ⟨found, awaited⟩ := found
    obtain ⟨-, rfl⟩ := Books.mem_redemptions found
    cases h : outcome.isSuccess
    · simp only [h, Bool.not_false, if_true, Attempt.pure_eq_ok] at granted
      subst granted
      exact .redemptionMoved found (.stayed awaited h) (Notice.plain_redemption _)
    · obtain ⟨receipts, rfl⟩ : ∃ receipts, outcome = .success receipts := by
        cases outcome <;> simp_all [Outcome.isSuccess]
      have members := mapM_claims (b := b) batch.members
      simp only [h, Bool.not_true, Bool.false_eq_true, if_false, Attempt.bind_eq_ok,
        Attempt.promised_eq_ok, members, Option.some.injEq, Attempt.pure_eq_ok,
        exists_eq_left'] at granted
      subst granted
      have claims : (batch.members.map b.claim?).filterMap (fun claim => claim) =
          batch.members.filterMap b.claim? := by
        rw [List.filterMap_map]
        rfl
      have move : Move s b
          (.heard (.withdrawUnbonded id batch.epoch amount) (.success receipts)) _ :=
        .released found awaited (Notice.plain_redemption { batch with status := .done })
      rw [← claims] at move
      exact move

theorem withdrawAddressSet_move (granted : withdrawAddressSet b.view id outcome = .ok r) :
    Move s b (.heard (.setWithdrawAddress id) outcome) r := by
  simp only [withdrawAddressSet] at granted
  cases h : outcome.isSuccess
  · simp only [h, Bool.false_eq_true, if_false, Attempt.pure_eq_ok] at granted
    subst granted
    exact .stale trivial fun _ => rfl
  · obtain ⟨receipts, rfl⟩ : ∃ receipts, outcome = .success receipts := by
      cases outcome <;> simp_all [Outcome.isSuccess]
    simp only [h, if_true, Attempt.bind_eq_ok, Books.view_chain, Attempt.pure_eq_ok] at granted
    obtain ⟨chain, known, rfl⟩ := granted
    exact .revised known (.withdrawAddressSet receipts) fun _ => rfl

theorem rewardsWithdrawn_move (kept : b.WellKept) {validators : List Address}
    (granted : rewardsWithdrawn b.view id outcome = .ok r) :
    Move s b (.heard (.withdrawRewards id validators) outcome) r := by
  unfold rewardsWithdrawn at granted
  split at granted
  · rename_i receipts
    simp only [Attempt.bind_eq_ok, Books.view_chain] at granted
    obtain ⟨chain, known, granted⟩ := granted
    obtain rfl := kept.chainKey known
    have told : ∀ other, Notice.rewardedIn other
        [.rewardsWithdrawn chain.id (Receipt.totalRewards receipts)] =
          if chain.id = other then Receipt.totalRewards receipts else 0 := by
      intro other
      simp [Notice.rewardedIn, Notice.rewarded]
    split at granted
    · rename_i none
      rw [Attempt.pure_eq_ok] at granted
      subst granted
      have withdrawn : Receipt.totalRewards receipts = 0 := by
        have fits : Receipt.totalRewards receipts < Width.limit 128 := Width.clamp_lt _ _
        have := Width.limit_pos 128
        simp only [Width.addSat, Width.clamp, Width.max] at none
        lia
      refine .stale trivial fun other => ?_
      rw [told other, withdrawn, ite_self]
    · rename_i held
      split at granted
      · rw [Attempt.pure_eq_ok] at granted
        subst granted
        exact .rewarded known (.kept held) told
      · rename_i bothOpen
        rw [Attempt.pure_eq_ok] at granted
        subst granted
        exact .rewarded known (.forwarded (by simpa using bothOpen) held) told
  · rw [Attempt.pure_eq_ok] at granted
    subst granted
    exact .stale trivial Notice.plain_nil

theorem rewardsTransferred_move {amount : Amount}
    (granted : rewardsTransferred b.view id amount outcome = .ok r) :
    Move s b (.heard (.transferRewards id amount) outcome) r := by
  simp only [rewardsTransferred, Attempt.bind_eq_ok, Attempt.promised_eq_ok] at granted
  obtain ⟨current, read, granted⟩ := granted
  have read : b.epoch? .delegation = current := by simpa [Books.view] using read
  split at granted
  · rename_i receipts epoch _
    simp only [Attempt.bind_eq_ok, Attempt.promised_eq_ok, Attempt.pure_eq_ok] at granted
    obtain ⟨found, stored, rfl⟩ := granted
    have stored : b.deposit? id epoch = found := by simpa [Books.view] using stored
    subst stored
    exact .reinvested read rfl fun _ => rfl
  · rename_i unable
    simp only [Attempt.bind_eq_ok, Books.view_chain, Attempt.pure_eq_ok] at granted
    obtain ⟨chain, known, rfl⟩ := granted
    refine .rewarded known (.bounced fun success => ?_) fun other => (ite_self _).symm
    cases current with
    | none => exact read
    | some epoch =>
        cases outcome with
        | success receipts => exact (unable receipts epoch rfl rfl).elim
        | failure => simp [Outcome.isSuccess] at success
        | timeout => simp [Outcome.isSuccess] at success

theorem proceed_move (kept : b.WellKept) {op : RemoteOp}
    (granted : proceed b.view s op outcome = .ok r) : Move s b (.heard op outcome) r := by
  cases op with
  | transferDeposit chain epoch amount => exact depositTransferred_move kept granted
  | delegate chain epoch shares => exact depositDelegated_move kept granted
  | undelegate chain epoch shares => exact redemptionStarted_move kept granted
  | withdrawUnbonded chain epoch amount => exact redemptionWithdrawn_move granted
  | withdrawRewards chain validators => exact rewardsWithdrawn_move kept granted
  | transferRewards chain amount => exact rewardsTransferred_move granted
  | setWithdrawAddress chain => exact withdrawAddressSet_move granted

/-! ## Closing an account -/

theorem chain?_applyAll (b : Books) (id : ChainId) (commands : List Command) :
    (b.applyAll commands).chain? id = (lastWritten? id commands).or (b.chain? id) := by
  induction commands generalizing b with
  | nil => simp [lastWritten?]
  | cons command commands ih =>
      rw [Books.applyAll_cons, ih]
      cases command with
      | chain record =>
          by_cases same : record.id = id
          · simp only [Books.apply, Books.chain?_putChain, same, lastWritten?,
              List.filterMap_cons, if_true, List.getLast?_cons]
            cases (List.filterMap _ commands).getLast? <;> rfl
          · simp [Books.apply, Books.chain?_putChain, same, Ne.symm same, lastWritten?]
      | epoch kind epoch => rfl
      | deposit record => rfl
      | redemption record => rfl
      | claim record => rfl
      | token order => rfl
      | dispatch op => rfl

theorem closeAccount_move {account : ControlAccount} {first : Response}
    (granted : closeAccount b.view id account first = .ok r) :
    ∃ second, r = first ++ second ∧
      Move s (b.applyAll first.commands) (.closed id account) second := by
  have latest := chain?_applyAll b id first.commands
  unfold closeAccount at granted
  split at granted
  · rename_i chain written
    rw [written, Option.some_or] at latest
    simp only [Attempt.bind_eq_ok, Attempt.pure_eq_ok, exists_eq_left'] at granted
    subst granted
    exact ⟨_, rfl, .revised latest (.closed account) fun _ => rfl⟩
  · rename_i unwritten
    rw [unwritten, Option.none_or] at latest
    simp only [Attempt.bind_eq_ok, Books.view_chain, Attempt.pure_eq_ok] at granted
    obtain ⟨chain, known, rfl⟩ := granted
    rw [known] at latest
    exact ⟨_, rfl, .revised latest (.closed account) fun _ => rfl⟩

/-- An answered acknowledgement is one move, or two where an account that carries the
operation out closed. -/
theorem resolve_moves (kept : b.WellKept) {op : RemoteOp}
    (granted : resolve b.view s op outcome = .ok r) :
    ((outcome = .timeout → op.account? = none) ∧ Move s b (.heard op outcome) r) ∨
      ∃ account first second, outcome = .timeout ∧ op.account? = some account ∧
        r = first ++ second ∧ Move s b (.heard op outcome) first ∧
        Move s (b.applyAll first.commands) (.closed op.chain account) second := by
  simp only [resolve, Attempt.bind_eq_ok] at granted
  obtain ⟨first, went, granted⟩ := granted
  have move := proceed_move kept went
  split at granted
  · rename_i account carries
    obtain ⟨second, rfl, closing⟩ := closeAccount_move (s := s) granted
    exact .inr ⟨account, first, second, rfl, carries, rfl, move, closing⟩
  · rename_i uncarried
    rw [Attempt.pure_eq_ok] at granted
    subst granted
    refine .inl ⟨fun timedOut => ?_, move⟩
    exact Option.eq_none_iff_forall_ne_some.mpr fun account carries =>
      uncarried account timedOut carries

end Hub

end LiquidStaking
