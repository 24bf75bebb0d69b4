import LiquidStaking.Proofs.Attribution

/-!
# Chains do not interfere

Two states of the hub that agree on the epochs and on all that is recorded of a chain,
whatever else they hold, give the same answers to whatever is asked about the chain or
reported of an operation of it, and start the same for it with an epoch.
-/

namespace LiquidStaking

variable {s t : Surroundings} {b c : Books} {id : ChainId} {epoch : Epoch}

/-! ## States that agree on a chain -/

structure Books.Alike (b c : Books) (id : ChainId) : Prop where
  epochs : c.epoch? = b.epoch?
  records : b.Agree c id
  claims : ∀ key claim, claim.chain = id → (c.claim? key = some claim ↔ b.claim? key = some claim)

structure Surroundings.Alike (s t : Surroundings) (b : Books) (id : ChainId) : Prop where
  now : t.now = s.now
  supply : ∀ chain, b.chain? id = some chain →
    t.supply chain.derivativeDenom = s.supply chain.derivativeDenom
  balance : ∀ chain, b.chain? id = some chain →
    t.balance chain.voucherDenom = s.balance chain.voucherDenom

namespace Books.Agree

variable (agree : b.Agree c id)

include agree

theorem chain?_eq : c.view.chain? id = b.view.chain? id := congrArg some agree.chain

theorem deposit?_eq (epoch : Epoch) : c.view.deposit? id epoch = b.view.deposit? id epoch := by
  simp only [Books.view, Books.deposit?, agree.deposits]

theorem redemption?_eq (epoch : Epoch) :
    c.view.redemption? id epoch = b.view.redemption? id epoch := by
  simp only [Books.view, Books.redemption?, agree.redemptions]

theorem openDeposits_eq : c.view.openDeposits id = b.view.openDeposits id := by
  simp only [Books.view, Books.openDeposits, agree.deposits]

theorem openRedemptions_eq : c.view.openRedemptions id = b.view.openRedemptions id := by
  simp only [Books.view, Books.openRedemptions, agree.redemptions]

theorem chain_eq : c.view.chain id = b.view.chain id := by
  rw [View.chain, agree.chain?_eq, View.chain]

theorem deposit_eq (epoch : Epoch) : c.view.deposit id epoch = b.view.deposit id epoch := by
  rw [View.deposit, agree.deposit?_eq, View.deposit]

theorem redemption_eq (epoch : Epoch) :
    c.view.redemption id epoch = b.view.redemption id epoch := by
  rw [View.redemption, agree.redemption?_eq, View.redemption]

end Books.Agree

namespace Books.Alike

variable (alike : b.Alike c id)

include alike

theorem epoch?_eq (kind : EpochKind) : c.view.epoch? kind = b.view.epoch? kind := by
  simp only [Books.view, alike.epochs]

theorem epoch_eq (kind : EpochKind) : c.view.epoch kind = b.view.epoch kind := by
  rw [View.epoch, alike.epoch?_eq, View.epoch]

theorem claim_eq (attributed : b.Attributed) (attributed' : c.Attributed) {owner : Address}
    (plain : '/' ∉ owner.toList) (epoch : Epoch) :
    c.view.claim? (claimId id epoch owner) = b.view.claim? (claimId id epoch owner) := by
  refine congrArg some (Option.ext fun claim => ⟨fun found => ?_, fun found => ?_⟩)
  · exact (alike.claims _ claim (attributed'.of_claimId plain found).1).mp found
  · exact (alike.claims _ claim (attributed.of_claimId plain found).1).mpr found

theorem members_eq (attributed : b.Attributed) {batch : RedemptionBatch}
    (stored : b.redemption? id epoch = some batch) :
    batch.members.mapM c.view.claim? = batch.members.mapM b.view.claim? := by
  have inBatches := (Books.mem_redemptions stored).1
  have own := attributed.kept.redemptionKey inBatches
  rw [Hub.mapM_claims, Hub.mapM_claims]
  refine congrArg some (List.map_congr_left fun key member => ?_)
  obtain ⟨claim, found, chain, -⟩ := (attributed.recorded.enrolled inBatches).member key member
  rw [found]
  exact (alike.claims key claim (chain.trans own)).mpr found

end Books.Alike

namespace Hub

variable {chain : Chain}

/-! ## Requests -/

theorem availableStake?_agree (agree : b.Agree c chain.id) :
    availableStake? c.view chain = availableStake? b.view chain := by
  simp only [availableStake?, agree.openRedemptions_eq]

theorem escrowed?_agree (agree : b.Agree c chain.id) :
    escrowed? c.view chain = escrowed? b.view chain := by
  simp only [escrowed?, agree.openDeposits_eq]

section Alike

variable (attributed : b.Attributed) (attributed' : c.Attributed) (alike : b.Alike c id)
  (around : s.Alike t b id) {owner : Address} (plain : '/' ∉ owner.toList)

include attributed attributed' alike plain

theorem redeem_alike (amount : Amount) :
    redeem c.view id amount owner = redeem b.view id amount owner := by
  unfold redeem
  rw [alike.records.chain_eq]
  refine Attempt.bind_congr fun chain known => ?_
  obtain rfl := attributed.kept.chainKey (Books.view_chain.mp known)
  simp only [alike.epoch_eq, alike.claim_eq attributed attributed' plain,
    availableStake?_agree alike.records, alike.records.redemption?_eq]

include around

theorem payClaim_alike (epoch : Epoch) :
    payClaim c.view t owner epoch id = payClaim b.view s owner epoch id := by
  unfold payClaim
  rw [alike.records.chain_eq]
  refine Attempt.bind_congr fun chain known => ?_
  have known := Books.view_chain.mp known
  obtain rfl := attributed.kept.chainKey known
  rw [alike.claim_eq attributed attributed' plain, escrowed?_agree alike.records]
  refine Attempt.bind_congr fun found read => Attempt.bind_congr fun claim claimable => ?_
  have found : b.claim? (claimId chain.id epoch owner) = some claim := by
    obtain ⟨stored, -⟩ := Option.filter_eq_some_iff.mp (Attempt.orRefuse_eq_ok.mp claimable)
    exact (Option.some.inj (Attempt.promised_eq_ok.mp read)).trans stored
  obtain ⟨chain', known', denom⟩ := (attributed.recorded.joined found).denom
  rw [(attributed.of_claimId plain found).1, known] at known'
  cases known'
  rw [denom, around.balance chain known]

end Alike

theorem updateValidators_agree (agree : b.Agree c id) (validators : List (Address × Nat)) :
    updateValidators c.view id validators = updateValidators b.view id validators := by
  simp only [updateValidators, agree.chain_eq, agree.openDeposits_eq, agree.openRedemptions_eq]

end Hub

theorem Request.answer_alike (attributed : b.Attributed) (attributed' : c.Attributed)
    (alike : b.Alike c id) (around : s.Alike t b id) {request : Request} (plain : request.Plain)
    (about : request.chain? = some id) :
    request.answer c.view t = request.answer b.view s := by
  have records := alike.records
  cases request with
  | register registration =>
      cases about
      simp only [answer, Hub.register, records.chain?_eq]
  | accountOpened | updateValidators =>
      cases about
      simp only [answer, Hub.accountOpened, Hub.updateValidators_agree records, records.chain_eq]
  | deposit =>
      cases about
      simp only [answer, Hub.deposit, records.chain_eq, alike.epoch_eq, records.deposit_eq]
  | redeem id amount owner =>
      cases about
      exact Hub.redeem_alike attributed attributed' alike (plain owner rfl) amount
  | payClaim owner epoch id =>
      cases about
      exact Hub.payClaim_alike attributed attributed' alike around (plain owner rfl) epoch
  | redriveDeposit | resetDeposit | resetRedemption =>
      cases about
      simp only [answer, Hub.redriveDeposit, Hub.resetDeposit, Hub.resetRedemption,
        records.chain_eq, records.deposit_eq, records.redemption_eq]
  | startEpoch => cases about

/-! ## Acknowledgements -/

namespace Hub

variable {outcome : Outcome} {op : RemoteOp}

theorem redemptionWithdrawn_alike (attributed : b.Attributed) (alike : b.Alike c id)
    (epoch : Epoch) (outcome : Outcome) :
    redemptionWithdrawn c.view id epoch outcome = redemptionWithdrawn b.view id epoch outcome := by
  unfold redemptionWithdrawn
  rw [alike.records.redemption?_eq]
  refine Attempt.bind_congr fun found read => ?_
  cases awaited : found.filter fun batch => batch.status == .withdrawing with
  | none => rfl
  | some batch =>
      have stored : b.redemption? id epoch = some batch :=
        (Option.some.inj (Attempt.promised_eq_ok.mp read)).trans
          (Option.filter_eq_some_iff.mp awaited).1
      dsimp only
      rw [alike.members_eq attributed stored]

theorem proceed_alike (attributed : b.Attributed) (alike : b.Alike c id)
    (around : s.Alike t b id) (about : op.chain = id) :
    proceed c.view t op outcome = proceed b.view s op outcome := by
  subst about
  have records := alike.records
  cases op with
  | transferDeposit | delegate =>
      simp only [RemoteOp.chain] at records
      simp only [proceed, depositTransferred, depositDelegated, records.chain_eq,
        records.deposit?_eq]
  | undelegate =>
      simp only [RemoteOp.chain] at records
      simp only [proceed, redemptionStarted, records.chain_eq, records.redemption?_eq,
        around.now]
  | withdrawUnbonded => exact redemptionWithdrawn_alike attributed alike _ outcome
  | withdrawRewards =>
      simp only [RemoteOp.chain] at records
      cases outcome <;> simp only [proceed, rewardsWithdrawn, records.chain_eq]
  | transferRewards =>
      simp only [RemoteOp.chain] at records
      simp only [proceed, rewardsTransferred, records.chain_eq, records.deposit?_eq,
        alike.epoch?_eq]
  | setWithdrawAddress =>
      simp only [RemoteOp.chain] at records
      simp only [proceed, withdrawAddressSet, records.chain_eq]

theorem resolve_alike (attributed : b.Attributed) (alike : b.Alike c id)
    (around : s.Alike t b id) (about : op.chain = id) :
    resolve c.view t op outcome = resolve b.view s op outcome := by
  have sameChain : c.view.chain op.chain = b.view.chain op.chain :=
    about ▸ alike.records.chain_eq
  simp only [resolve, proceed_alike attributed alike around about, closeAccount, sameChain]

end Hub

/-! ## The start of an epoch, chain by chain -/

def Response.commandsFor (r : Response) (id : ChainId) : List Command :=
  r.commands.filter fun command => command.chain? == some id

def Response.Within (r : Response) (id : ChainId) : Prop :=
  ∀ command ∈ r.commands, command.chain? = some id

namespace Response

variable {r first second : Response}

theorem commandsFor_append (first second : Response) (id : ChainId) :
    (first ++ second).commandsFor id = first.commandsFor id ++ second.commandsFor id :=
  List.filter_append ..

theorem within_empty : Response.empty.Within id := nofun

theorem Within.append (before : first.Within id) (after : second.Within id) :
    (first ++ second).Within id := by
  intro command member
  rcases List.mem_append.mp member with early | late
  · exact before command early
  · exact after command late

theorem within_concat {parts : List Response} (each : ∀ part ∈ parts, part.Within id) :
    (concat parts).Within id := by
  intro command member
  obtain ⟨part, listed, inPart⟩ := List.mem_flatMap.mp member
  exact each part listed command inPart

theorem within_moved {record : Command} {op : Option RemoteOp} {notices : List Notice}
    (own : record.chain? = some id) (started : ∀ op' ∈ op, op'.chain = id) :
    Within ⟨record :: (op.map Command.dispatch).toList, notices⟩ id := by
  intro command member
  rcases List.mem_cons.mp member with rfl | later
  · exact own
  · obtain ⟨op, among, rfl⟩ := Option.map_eq_some_iff.mp (Option.mem_toList.mp later)
    exact congrArg some (started op among)

theorem Within.commandsFor_own (within : r.Within id) : r.commandsFor id = r.commands :=
  List.filter_eq_self.mpr fun command member => by simp [within command member]

theorem Within.commandsFor_other {other : ChainId} (within : r.Within id) (differ : id ≠ other) :
    r.commandsFor other = [] :=
  List.filter_eq_nil_iff.mpr fun command member => by simp [within command member, differ]

end Response

namespace Hub

variable {chain : Chain}

theorem delegation?_chain {batch : DepositBatch} {op : RemoteOp}
    (divided : delegation? chain batch = some op) : op.chain = chain.id := by
  obtain ⟨shares, -, same⟩ := Option.bind_eq_some_iff.mp divided
  cases same
  rfl

theorem advanceDeposit?_within {batch next : DepositBatch} (own : batch.chain = chain.id)
    (advanced : advanceDeposit? chain batch = some (next, r)) : r.Within chain.id := by
  unfold advanceDeposit? at advanced
  split at advanced
  · cases advanced
    exact Response.within_empty
  split at advanced
  · cases advanced
    exact Response.within_moved (congrArg some own) nofun
  split at advanced
  · cases advanced
    exact nofun
  split at advanced
  · obtain ⟨op, divided, moved⟩ := Option.map_eq_some_iff.mp advanced
    cases moved
    refine Response.within_moved (congrArg some own) ?_
    rintro _ ⟨⟩
    exact delegation?_chain divided
  · cases advanced
    refine Response.within_moved (congrArg some own) ?_
    rintro _ ⟨⟩
    rfl

theorem collectRewards_within : (collectRewards chain).2.Within chain.id := by
  unfold collectRewards
  dsimp only
  split
  · exact Response.within_empty
  split
  · simp [Response.Within, Command.chain?, RemoteOp.chain]
  split
  · simp [Response.Within, Command.chain?, RemoteOp.chain]
  split
  · simp [Response.Within, moveRewards, Command.chain?, RemoteOp.chain]
  · exact Response.within_empty

theorem collectRewards_same : (collectRewards chain).1.id = chain.id ∧
    (collectRewards chain).1.derivativeDenom = chain.derivativeDenom := by
  unfold collectRewards
  dsimp only
  repeat' split
  all_goals exact ⟨rfl, rfl⟩

theorem updateRate_within (inFlight supply : Amount) :
    (updateRate chain inFlight supply).Within chain.id := by
  unfold updateRate
  dsimp only
  split <;> simp [Response.Within, Command.chain?]

theorem advanceDeposits?_within (kept : b.WellKept)
    (advanced : advanceDeposits? b.view s chain epoch = some r) : r.Within chain.id := by
  simp only [advanceDeposits?, Books.view, Option.bind_eq_bind, Option.bind_some,
    Option.bind_eq_some_iff, Option.pure_def, Option.some.injEq] at advanced
  obtain ⟨moved, each, rfl⟩ := advanced
  have opened : (if (b.deposit? chain.id epoch).isNone then
      (⟨[.deposit (.empty chain.id epoch)], []⟩ : Response) else .empty).Within chain.id := by
    split
    · simp [Response.Within, Command.chain?, DepositBatch.empty]
    · exact Response.within_empty
  refine ((opened.append (Response.within_concat ?_)).append collectRewards_within).append ?_
  · intro part listed
    obtain ⟨⟨next, _⟩, inMoved, rfl⟩ := List.mem_map.mp listed
    obtain ⟨batch, isOpen, stepped⟩ := mem_of_mapM each inMoved
    split at stepped
    · exact advanceDeposit?_within (kept.depositKey (List.mem_filter.mp isOpen).1) stepped
    · cases stepped
      exact Response.within_empty
  · rw [← collectRewards_same.1]
    exact updateRate_within _ _

theorem nextRedemptionStep?_chain {now : Seconds} {batch : RedemptionBatch} {op : RemoteOp}
    {status : RedemptionStatus}
    (ready : nextRedemptionStep? now chain batch = some (some (op, status))) :
    op.chain = chain.id := by
  simp only [nextRedemptionStep?, Option.bind_eq_bind, Option.pure_def] at ready
  split at ready
  · obtain ⟨shares, -, same⟩ := Option.bind_eq_some_iff.mp ready
    cases same
    rfl
  · obtain ⟨shares, -, same⟩ := Option.bind_eq_some_iff.mp ready
    cases same
    rfl
  · split at ready <;> cases ready
    rfl
  · cases ready
    rfl
  · cases ready

theorem advanceRedemption?_within {now : Seconds} {batch : RedemptionBatch}
    (own : batch.chain = chain.id) (advanced : advanceRedemption? now chain batch = some r) :
    r.Within chain.id := by
  obtain ⟨next, ready, advanced⟩ := Option.bind_eq_some_iff.mp advanced
  cases next with
  | none =>
      cases advanced
      exact Response.within_empty
  | some next =>
      obtain ⟨op, status⟩ := next
      dsimp only at advanced
      split at advanced
      · cases advanced
        exact nofun
      · cases advanced
        refine Response.within_moved (congrArg some own) ?_
        rintro _ ⟨⟩
        exact nextRedemptionStep?_chain ready

theorem advanceRedemptions?_within (kept : b.WellKept)
    (advanced : advanceRedemptions? b.view s chain epoch = some r) : r.Within chain.id := by
  simp only [advanceRedemptions?, Books.view, Option.bind_eq_bind, Option.bind_some,
    Option.bind_eq_some_iff, Option.pure_def, Option.some.injEq] at advanced
  obtain ⟨parts, each, rfl⟩ := advanced
  refine Response.within_concat fun part listed => ?_
  obtain ⟨batch, earlier, stepped⟩ := mem_of_mapM each listed
  have stored := (List.mem_filter.mp (List.mem_filter.mp earlier).1).1
  exact advanceRedemption?_within (kept.redemptionKey stored) stepped

variable {kind : EpochKind}

theorem advanceChain_within (kept : b.WellKept)
    (advanced : advanceChain b.view s kind epoch id = .ok r) : r.Within id := by
  simp only [advanceChain, Attempt.bind_eq_ok, Books.view_chain, Attempt.promised_eq_ok]
    at advanced
  obtain ⟨chain, known, advanced⟩ := advanced
  obtain rfl := kept.chainKey known
  cases kind with
  | delegation => exact advanceDeposits?_within kept advanced
  | undelegation => exact advanceRedemptions?_within kept advanced

theorem advanceChain_alike (kept : b.WellKept) (alike : b.Alike c id) (around : s.Alike t b id) :
    advanceChain c.view t kind epoch id = advanceChain b.view s kind epoch id := by
  unfold advanceChain
  rw [alike.records.chain_eq]
  refine Attempt.bind_congr fun chain known => congrArg _ ?_
  have known := Books.view_chain.mp known
  obtain rfl := kept.chainKey known
  rw [← advance?_agree alike.records]
  cases kind with
  | delegation =>
      simp only [advance?, advanceDeposits?, collectRewards_same.2, around.supply chain known]
  | undelegation => simp only [advance?, advanceRedemptions?, around.now]

def startedFor (v : View) (s : Surroundings) (kind : EpochKind) (epoch : Epoch) (id : ChainId) :
    List Command :=
  match advanceChain v s kind epoch id with
  | .ok part => part.commands
  | .error _ => []

/-- Every chain is taken up once, so what is started for a chain is in one place. -/
theorem advanceChains_for (kept : b.WellKept) {ids : List ChainId} {parts : List Response}
    (once : ids.Nodup) (advanced : ids.mapM (advanceChain b.view s kind epoch) = .ok parts)
    (id : ChainId) :
    (Response.concat parts).commandsFor id =
      if id ∈ ids then startedFor b.view s kind epoch id else [] := by
  induction ids generalizing parts with
  | nil =>
      cases advanced
      rfl
  | cons first ids ih =>
      rw [List.mapM_cons] at advanced
      simp only [Attempt.bind_eq_ok, Attempt.pure_eq_ok] at advanced
      obtain ⟨part, advancing, later, rest, rfl⟩ := advanced
      obtain ⟨fresh, restOnce⟩ := List.nodup_cons.mp once
      have within := advanceChain_within kept advancing
      rw [Response.concat_cons, Response.commandsFor_append, ih restOnce rest]
      by_cases same : id = first
      · subst same
        rw [within.commandsFor_own, if_neg fresh, List.append_nil, if_pos List.mem_cons_self,
          startedFor, advancing]
      · rw [within.commandsFor_other (Ne.symm same), List.nil_append]
        simp only [List.mem_cons, same, false_or]

theorem advanceAll_for (kept : b.WellKept)
    (granted : advanceAll b.view s kind epoch = .ok r) (id : ChainId) :
    r.commandsFor id = startedFor b.view s kind epoch id := by
  simp only [advanceAll, Attempt.bind_eq_ok, Attempt.promised_eq_ok, Attempt.pure_eq_ok] at granted
  obtain ⟨ids, listed, parts, each, rfl⟩ := granted
  obtain rfl : b.chainIds = ids := Option.some.inj listed
  rw [Response.commandsFor_append, advanceChains_for kept kept.listedOnce each]
  have epochOnly : Response.commandsFor ⟨[.epoch kind epoch], []⟩ id = [] := rfl
  rw [epochOnly, List.nil_append]
  split
  · rfl
  · rename_i unlisted
    have unknown : b.chain? id = none := by
      cases known : b.chain? id with
      | none => rfl
      | some chain => exact absurd (kept.listed known) unlisted
    simp [startedFor, advanceChain, View.chain, Books.view, unknown, Attempt.promised,
      Attempt.orRefuse, Attempt.refuse, bind, Except.bind]

theorem advanceChains_accounted (kept : b.WellKept) {ids : List ChainId} {parts : List Response}
    (advanced : ids.mapM (advanceChain b.view s kind epoch) = .ok parts) :
    ∀ command ∈ (Response.concat parts).commands, ∃ id, command.chain? = some id := by
  induction ids generalizing parts with
  | nil =>
      cases advanced
      exact nofun
  | cons first ids ih =>
      rw [List.mapM_cons] at advanced
      simp only [Attempt.bind_eq_ok, Attempt.pure_eq_ok] at advanced
      obtain ⟨part, advancing, later, rest, rfl⟩ := advanced
      intro command member
      rcases List.mem_append.mp member with early | late
      · exact ⟨first, advanceChain_within kept advancing command early⟩
      · exact ih rest command late

theorem startEpoch_accounted (kept : b.WellKept)
    (granted : startEpoch b.view s kind epoch = .ok r) :
    ∀ command ∈ r.commands, command = .epoch kind epoch ∨ ∃ id, command.chain? = some id := by
  have all (granted : advanceAll b.view s kind epoch = .ok r) :
      ∀ command ∈ r.commands, command = .epoch kind epoch ∨ ∃ id, command.chain? = some id := by
    simp only [advanceAll, Attempt.bind_eq_ok, Attempt.pure_eq_ok] at granted
    obtain ⟨ids, -, parts, each, rfl⟩ := granted
    intro command member
    rcases List.mem_cons.mp member with same | later
    · exact .inl same
    · exact .inr (advanceChains_accounted kept each command later)
  simp only [startEpoch, Attempt.bind_eq_ok] at granted
  obtain ⟨current, -, granted⟩ := granted
  cases current with
  | none => exact all granted
  | some current =>
      dsimp only at granted
      split at granted
      · cases granted
        intro command member
        cases member
      split at granted
      · exact absurd granted Attempt.refuse_ne_ok
      · exact all granted

theorem startEpoch_alike (kept : b.WellKept) (kept' : c.WellKept) (alike : b.Alike c id)
    (around : s.Alike t b id) {r r' : Response} (granted : startEpoch b.view s kind epoch = .ok r)
    (granted' : startEpoch c.view t kind epoch = .ok r') :
    r'.commandsFor id = r.commandsFor id := by
  have all {r r' : Response} (granted : advanceAll b.view s kind epoch = .ok r)
      (granted' : advanceAll c.view t kind epoch = .ok r') :
      r'.commandsFor id = r.commandsFor id := by
    rw [advanceAll_for kept granted, advanceAll_for kept' granted', startedFor,
      advanceChain_alike kept alike around, startedFor]
  simp only [startEpoch, Attempt.bind_eq_ok, Attempt.promised_eq_ok, alike.epoch?_eq]
    at granted granted'
  obtain ⟨current, read, granted⟩ := granted
  obtain ⟨_, read', granted'⟩ := granted'
  cases read.symm.trans read'
  cases current with
  | none => exact all granted granted'
  | some current =>
      dsimp only at granted granted'
      split at granted
      · rename_i again
        rw [if_pos again] at granted'
        cases granted
        cases granted'
        rfl
      rename_i notAgain
      rw [if_neg notAgain] at granted'
      split at granted
      · exact absurd granted Attempt.refuse_ne_ok
      · rename_i notEarlier
        rw [if_neg notEarlier] at granted'
        exact all granted granted'

end Hub

/-! ## Steps elsewhere -/

namespace Books

theorem DiffersAt.refl (b : Books) (id : ChainId) : b.DiffersAt b id :=
  ⟨rfl, fun _ _ => ⟨rfl, rfl, rfl⟩, fun _ _ _ => Iff.rfl⟩

/-- What changes one chain leaves the books alike for any other. -/
theorem DiffersAt.alike {other : ChainId} (differs : b.DiffersAt c other) (differ : id ≠ other) :
    b.Alike c id where
  epochs := differs.epochs
  records := differs.others id differ
  claims key claim own := differs.claims key claim (own ▸ differ)

theorem Alike.trans {d : Books} (first : b.Alike c id) (second : c.Alike d id) : b.Alike d id where
  epochs := second.epochs.trans first.epochs
  records := first.records.trans second.records
  claims key claim own := (second.claims key claim own).trans (first.claims key claim own)

end Books

def Step.About (h : HubState) (id : ChainId) : Step → Prop
  | .perform _ request => request.chain? = some id
  | .acknowledge _ index _ => ∀ op, h.outstanding[index]? = some op → op.chain = id

theorem HubState.settle_differs {h : HubState} {answer : Attempt HubError Response}
    (stays : ∀ r, answer = .ok r → r.StaysWith h.books id) :
    h.books.DiffersAt (h.settle answer).2.books id := by
  cases answer with
  | error stop => exact .refl _ _
  | ok r => exact (stays r rfl).differs

theorem HubState.step_differs {h : HubState} {step : Step} (attributed : h.books.Attributed)
    (plain : step.Plain) (about : step.About h id) :
    h.books.DiffersAt (h.step step).books id := by
  cases step with
  | perform s request =>
      exact settle_differs fun r granted => Request.answer_stays attributed plain about granted
  | acknowledge s index outcome =>
      cases found : h.outstanding[index]? with
      | none =>
          simp only [HubState.step, acknowledge?, found]
          exact .refl _ _
      | some op =>
          simp only [HubState.step, acknowledge?, found]
          obtain rfl := about op found
          exact settle_differs (h := ⟨h.books, h.outstanding.eraseIdx index⟩) fun r granted =>
            Hub.resolve_stays attributed granted

/-! ## Two runs -/

/-- What is asked about the chain and heard of it is answered the same in both states, and
what an epoch starts for it is the same. -/
structure Unaffected (b c : Books) (s t : Surroundings) (id : ChainId) : Prop where
  asked : ∀ request : Request, request.Plain → request.chain? = some id →
    request.answer c.view t = request.answer b.view s
  heard : ∀ op outcome, op.chain = id →
    Hub.resolve c.view t op outcome = Hub.resolve b.view s op outcome
  started : ∀ {kind epoch r r'}, (Request.startEpoch kind epoch).answer b.view s = .ok r →
    (Request.startEpoch kind epoch).answer c.view t = .ok r' →
    r'.commandsFor id = r.commandsFor id ∧ ∀ command ∈ r'.commands,
      command = .epoch kind epoch ∨ ∃ other, command.chain? = some other

/-- Nothing that is asked about the chain or heard of it writes a record of another chain. -/
structure Confined (b : Books) (s : Surroundings) (id : ChainId) : Prop where
  asked : ∀ {request : Request} {r}, request.Plain → request.chain? = some id →
    request.answer b.view s = .ok r →
    r.StaysWith b id ∧ b.DiffersAt (b.applyAll r.commands) id
  heard : ∀ {op outcome r}, op.chain = id → Hub.resolve b.view s op outcome = .ok r →
    r.StaysWith b id ∧ b.DiffersAt (b.applyAll r.commands) id

/-- In states of any two runs that agree on the epochs and on what is recorded of a chain,
as long as the ledger agrees on the time and on the tokens of the chain, the chain fares
the same, however many other chains there are and however they are; nor does it touch
any of them. -/
theorem chains_isolated {steps steps' : List Step} (plain : ∀ step ∈ steps, step.Plain)
    (plain' : ∀ step ∈ steps', step.Plain)
    (alike : (HubState.after steps).books.Alike (HubState.after steps').books id)
    (around : s.Alike t (HubState.after steps).books id) :
    Unaffected (HubState.after steps).books (HubState.after steps').books s t id ∧
      Confined (HubState.after steps).books s id := by
  have attributed := HubState.after_attributed plain
  have attributed' := HubState.after_attributed plain'
  refine ⟨⟨fun request named about => ?_, fun op outcome about => ?_,
    fun granted granted' => ⟨?_, ?_⟩⟩, ⟨fun named about granted => ?_, fun about granted => ?_⟩⟩
  · exact Request.answer_alike attributed attributed' alike around named about
  · exact Hub.resolve_alike attributed alike around about
  · exact Hub.startEpoch_alike attributed.kept attributed'.kept alike around granted granted'
  · exact Hub.startEpoch_accounted attributed'.kept granted'
  · have stays := Request.answer_stays attributed named about granted
    exact ⟨stays, stays.differs⟩
  · have stays := about ▸ Hub.resolve_stays attributed granted
    exact ⟨stays, stays.differs⟩

def Step.sampleBeside : List Step :=
  sampleRun ++ [.perform (.sample 0 0) (.register { Registration.sample with
    chainId := "osmosis", derivativeDenom := "stosmo" })] ++
    [.perform (.sample 0 0) (.accountOpened "osmosis" .delegate "delegator-2")]

def Surroundings.sampleBeside : Surroundings :=
  { sample 1000 0 with
    supply := fun denom => if denom = "stosmo" then 700 else (sample 1000 0).supply denom }

theorem Step.sampleBeside_plain : ∀ step ∈ sampleBeside, step.Plain := by
  decide

theorem Books.sampleBeside_alike : (HubState.after Step.sampleRun).books.Alike
    (HubState.after Step.sampleBeside).books "cosmoshub" := by
  have plain := Step.sampleBeside_plain
  rw [Step.sampleBeside] at plain ⊢
  simp only [List.forall_mem_append, List.forall_mem_singleton] at plain
  obtain ⟨⟨earlier, registers⟩, opens⟩ := plain
  rw [HubState.after_append, HubState.after_append]
  have apart : "cosmoshub" ≠ "osmosis" := by decide
  have attributed := HubState.after_attributed earlier
  have registered := HubState.step_differs attributed registers rfl
  have attributed' := HubState.after_attributed (List.forall_mem_append.mpr
    ⟨earlier, List.forall_mem_singleton.mpr registers⟩)
  rw [HubState.after_append] at attributed'
  have opened := HubState.step_differs attributed' opens rfl
  exact (registered.alike apart).trans (opened.alike apart)

/-- The next epoch starts more with the second chain there, and the same for the first. -/
theorem chains_isolated_sample :
    (∃ r r', (Request.startEpoch .delegation 3).answer
          (HubState.after Step.sampleRun).books.view (.sample 1000 0) = .ok r ∧
        (Request.startEpoch .delegation 3).answer
          (HubState.after Step.sampleBeside).books.view .sampleBeside = .ok r' ∧
        r' ≠ r ∧ r'.commandsFor "cosmoshub" = r.commandsFor "cosmoshub") ∧
      Confined (HubState.after Step.sampleRun).books (.sample 1000 0) "cosmoshub" := by
  have around : (Surroundings.sample 1000 0).Alike .sampleBeside
      (HubState.after Step.sampleRun).books "cosmoshub" := by
    have known : ((HubState.after Step.sampleRun).books.chain? "cosmoshub").map
        Chain.derivativeDenom = some "statom" := by
      decide +kernel
    refine ⟨rfl, fun chain found => ?_, fun chain found => rfl⟩
    rw [found, Option.map_some, Option.some.injEq] at known
    rw [known]
    rfl
  obtain ⟨unaffected, confined⟩ := chains_isolated (by decide) Step.sampleBeside_plain
    Books.sampleBeside_alike around
  obtain ⟨r, granted⟩ : ∃ r, (Request.startEpoch .delegation 3).answer
      (HubState.after Step.sampleRun).books.view (.sample 1000 0) = .ok r :=
    Attempt.exists_of_isOk (by decide +kernel)
  obtain ⟨r', granted'⟩ : ∃ r, (Request.startEpoch .delegation 3).answer
      (HubState.after Step.sampleBeside).books.view .sampleBeside = .ok r :=
    Attempt.exists_of_isOk (by decide +kernel)
  have differ : (Request.startEpoch .delegation 3).answer
        (HubState.after Step.sampleBeside).books.view .sampleBeside ≠
      (Request.startEpoch .delegation 3).answer
        (HubState.after Step.sampleRun).books.view (.sample 1000 0) := by
    decide +kernel
  refine ⟨⟨r, r', granted, granted', ?_, (unaffected.started granted granted').1⟩, confined⟩
  rintro rfl
  exact differ (granted'.trans granted.symm)

end LiquidStaking
