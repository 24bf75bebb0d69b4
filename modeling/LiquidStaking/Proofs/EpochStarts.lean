import LiquidStaking.Proofs.Attempts
import LiquidStaking.Proofs.Capping
import LiquidStaking.Proofs.Written

/-!
# What the start of an epoch takes up

The start of a later epoch goes through the chains, and through the open batches of each.
It always succeeds: the sets of the chains divide every batch.  Of the batches it takes up
it writes what follows them, and no other.
-/

namespace LiquidStaking

variable {s : Surroundings} {b : Books} {id : ChainId} {chain : Chain} {kind : EpochKind}
  {epoch : Epoch} {r part : Response}

/-! ## Lists of answers -/

section Answers

variable {ε α β : Type} {values : List α} {results : List β}

theorem Attempt.mem_mapM {ask : α → Attempt ε β} (mapped : values.mapM ask = .ok results)
    {result : β} : result ∈ results ↔ ∃ v ∈ values, ask v = .ok result := by
  induction values generalizing results with
  | nil =>
      cases mapped
      simp
  | cons v values ih =>
      rw [List.mapM_cons] at mapped
      simp only [Attempt.bind_eq_ok, Attempt.pure_eq_ok] at mapped
      obtain ⟨first, own, rest, later, rfl⟩ := mapped
      simp only [List.mem_cons, ih later, exists_eq_or_imp, own, Except.ok.injEq,
        eq_comm (a := result)]

theorem Attempt.mapM_ok {ask : α → Attempt ε β}
    (each : ∀ v ∈ values, ∃ result, ask v = .ok result) :
    ∃ results, values.mapM ask = .ok results := by
  induction values with
  | nil => exact ⟨[], rfl⟩
  | cons v values ih =>
      obtain ⟨first, own⟩ := each v List.mem_cons_self
      obtain ⟨rest, later⟩ := ih fun other listed => each other (List.mem_cons_of_mem _ listed)
      exact ⟨first :: rest, by rw [List.mapM_cons, own, later]; rfl⟩

end Answers

/-! ## The pass always succeeds -/

def Books.Listed (b : Books) : Prop :=
  ∀ id ∈ b.chainIds, ∃ chain, b.chain? id = some chain

theorem Books.Listed.apply (listed : b.Listed) (command : Command) : (b.apply command).Listed := by
  cases command with
  | chain record =>
      intro id member
      rw [Books.apply, chain?_putChain]
      split
      · exact ⟨record, rfl⟩
      · rename_i differ
        simp only [Books.apply, Books.putChain] at member
        split at member
        · exact listed id member
        · rcases List.mem_append.mp member with old | new
          · exact listed id old
          · exact absurd (List.mem_singleton.mp new) differ
  | _ => exact listed

theorem Books.Listed.applyAll (listed : b.Listed) (commands : List Command) :
    (b.applyAll commands).Listed := by
  induction commands generalizing b with
  | nil => exact listed
  | cons command commands ih => exact ih (listed.apply command)

theorem HubState.after_listed (steps : List Step) : (after steps).books.Listed :=
  after_preserves (P := fun _ h => h.books.Listed) nofun
    (fun _ _ _ _ _ _ _ listed _ _ _ => listed.applyAll _) steps

theorem HubState.after_weighable {steps : List Step} (sized : ∀ step ∈ steps, step.sized = true)
    (known : (after steps).books.chain? id = some chain) : Weighable chain.validators := by
  have rosters := after_keeps
    (P := fun _ h _ => h.books.Rosters fun roster =>
      validatorSetDefect? roster = none ∧ Roster.sized roster = true) nofun
    (fun step member _ _ _ _ _ _ _ _ rosters move _ of => move.rosters rosters
      fun _ sound given => ⟨sound, Cause.sized_of (sized step member) of given⟩)
    (Hears.anything steps)
  obtain ⟨sound, fits⟩ := rosters id chain known
  have staffed := Chain.staffed_of_sound sound
  simp only [Roster.sized, Bool.and_eq_true, decide_eq_true_eq, List.all_eq_true] at fits
  exact {
    present := staffed.present
    few := by simpa [Chain.roster] using fits.1
    weighty := staffed.weighty
    light := by simpa [Chain.roster] using fits.2 }

structure Books.Passable (b : Books) : Prop where
  kept : b.WellKept
  orderly : b.Orderly
  listed : b.Listed
  weighable : ∀ {id chain}, b.chain? id = some chain → Weighable chain.validators

theorem HubState.after_passable {steps : List Step} (sized : ∀ step ∈ steps, step.sized = true) :
    (after steps).books.Passable :=
  let sound := after_sound steps
  ⟨sound.kept, sound.orderly, after_listed steps, after_weighable sized⟩

namespace Hub

theorem advanceDeposit?_isSome (set : Weighable chain.validators) {batch : DepositBatch}
    (fits : batch.amount < Width.limit 128) : (advanceDeposit? chain batch).isSome = true := by
  obtain ⟨shares, divided⟩ := Allocation.byWeight?_isSome fits set.weightOf_pos set.weightOf_lt
  unfold advanceDeposit?
  split
  · rfl
  split
  · rfl
  split
  · rfl
  split
  · simp only [delegation?, divided, Option.bind_eq_bind, Option.bind_some, Option.isSome_map,
      Option.pure_def, Option.isSome_some]
  · rfl

theorem advanceRedemption?_isSome (set : Weighable chain.validators) {batch : RedemptionBatch}
    (fits : batch.redeemable < Width.limit 128) (now : Seconds) :
    (advanceRedemption? now chain batch).isSome = true := by
  obtain ⟨-, -, shares, -, -, -, -, -, -, -, divided⟩ :=
    Allocation.withinHoldings?_isSome fits set
  have ready : (nextRedemptionStep? now chain batch).isSome = true := by
    simp only [nextRedemptionStep?, divided, Option.bind_eq_bind, Option.bind_some, Option.pure_def]
    split
    · rfl
    · rfl
    · split <;> rfl
    · rfl
    · rfl
  obtain ⟨next, ready⟩ := Option.isSome_iff_exists.mp ready
  simp only [advanceRedemption?, ready, Option.bind_eq_bind, Option.bind_some]
  cases next with
  | none => rfl
  | some next =>
      dsimp only
      split <;> rfl

theorem advance?_isSome (passable : b.Passable) (known : b.chain? id = some chain)
    (s : Surroundings) (kind : EpochKind) (epoch : Epoch) :
    ∃ part, advance? b.view s kind chain epoch = some part := by
  have set := passable.weighable known
  have orderly := passable.orderly
  refine Option.isSome_iff_exists.mp ?_
  cases kind with
  | delegation =>
      have each : ((b.openDeposits chain.id).mapM fun batch =>
          if batch.epoch < epoch then advanceDeposit? chain batch
          else some (batch, .empty)).isSome = true := by
        refine mapM_isSome fun batch listed => ?_
        split
        · exact advanceDeposit?_isSome set (orderly.depositFits (List.mem_filter.mp listed).1).2
        · rfl
      obtain ⟨moved, each⟩ := Option.isSome_iff_exists.mp each
      simp only [advance?, advanceDeposits?, Books.view, Option.bind_eq_bind, Option.bind_some,
        each, Option.pure_def, Option.isSome_some]
  | undelegation =>
      have each : (((b.openRedemptions chain.id).filter fun batch => batch.epoch < epoch).mapM
          fun batch => advanceRedemption? s.now chain batch).isSome = true := by
        refine mapM_isSome fun batch listed => ?_
        have stored := (List.mem_filter.mp (List.mem_filter.mp listed).1).1
        exact advanceRedemption?_isSome set (orderly.redemptionFits stored) s.now
      obtain ⟨moved, each⟩ := Option.isSome_iff_exists.mp each
      simp only [advance?, advanceRedemptions?, Books.view, Option.bind_eq_bind, Option.bind_some,
        each, Option.pure_def, Option.isSome_some]

theorem advanceAll_ok (passable : b.Passable) (s : Surroundings) (kind : EpochKind)
    (epoch : Epoch) : ∃ r, advanceAll b.view s kind epoch = .ok r := by
  have each : ∀ id ∈ b.chainIds, ∃ part, advanceChain b.view s kind epoch id = .ok part := by
    intro id member
    obtain ⟨chain, known⟩ := passable.listed id member
    obtain ⟨part, advanced⟩ := advance?_isSome passable known s kind epoch
    exact ⟨part, by rw [advanceChain, Books.view_chain.mpr known, Attempt.ok_bind, advanced]; rfl⟩
  obtain ⟨parts, each⟩ := Attempt.mapM_ok each
  have ids : b.view.chainIds = some b.chainIds := rfl
  exact ⟨_, by rw [advanceAll, ids, Attempt.promised, Attempt.ok_bind, each]; rfl⟩

/-! ## Which epochs are started -/

theorem startEpoch_later (later : ∀ current, b.epoch? kind = some current → current < epoch)
    (s : Surroundings) : startEpoch b.view s kind epoch = advanceAll b.view s kind epoch := by
  have read : b.view.epoch? kind = some (b.epoch? kind) := rfl
  rw [startEpoch, read, Attempt.promised, Attempt.ok_bind]
  cases current : b.epoch? kind with
  | none => rfl
  | some number =>
      have before := later number current
      simp only [if_neg (Nat.ne_of_gt before), if_neg (Nat.lt_asymm before)]

theorem startEpoch_again (current : b.epoch? kind = some epoch) (s : Surroundings) :
    startEpoch b.view s kind epoch = .ok .empty := by
  have read : b.view.epoch? kind = some (b.epoch? kind) := rfl
  rw [startEpoch, read, Attempt.promised, Attempt.ok_bind, current]
  exact if_pos rfl

theorem startEpoch_earlier {number : Epoch} (current : b.epoch? kind = some number)
    (earlier : epoch < number) (s : Surroundings) : startEpoch b.view s kind epoch =
      Attempt.refuse (.epochNotAdvanced kind number epoch) := by
  have read : b.view.epoch? kind = some (b.epoch? kind) := rfl
  rw [startEpoch, read, Attempt.promised, Attempt.ok_bind, current]
  simp only [if_neg (Nat.ne_of_lt earlier), if_pos earlier]

/-! ## One batch of an earlier epoch -/

inductive DepositTaken (chain : Chain) (batch : DepositBatch) : DepositBatch → Response → Prop
  | spared {notices : List Notice} (stays : batch.status.awaitsEpoch = true →
      batch.amount ≠ 0 ∧ chain.delegateAddress = none) :
      DepositTaken chain batch batch ⟨[], notices⟩
  | moved {status : DepositStatus} {op : Option RemoteOp} {notices : List Notice}
      (due : batch.status.awaitsEpoch = true) (left : status.awaitsEpoch = false)
      (emptied : batch.amount = 0 → status = .done)
      (able : batch.amount = 0 ∨ chain.delegateAddress.isSome = true)
      (own : ∀ started ∈ op, started.stage?.isSome = true) :
      DepositTaken chain batch { batch with status }
        ⟨.deposit { batch with status } :: (op.map Command.dispatch).toList, notices⟩

theorem advanceDeposit?_taken {batch next : DepositBatch}
    (advanced : advanceDeposit? chain batch = some (next, part)) :
    DepositTaken chain batch next part := by
  unfold advanceDeposit? at advanced
  split at advanced
  · rename_i past
    cases advanced
    exact .spared fun due => by simp [due] at past
  rename_i due
  replace due : batch.status.awaitsEpoch = true := by simpa using due
  split at advanced
  · rename_i nothing
    cases advanced
    exact .moved due rfl (fun _ => rfl) (.inl nothing) nofun
  rename_i something
  split at advanced
  · rename_i isClosed
    cases advanced
    exact .spared fun _ => ⟨something, by simpa using isClosed⟩
  rename_i notClosed
  have isOpen : chain.delegateAddress.isSome = true := by
    simpa [Option.isSome_iff_ne_none] using notClosed
  split at advanced
  · obtain ⟨op, divided, moved⟩ := Option.map_eq_some_iff.mp advanced
    obtain ⟨shares, -, same⟩ := Option.bind_eq_some_iff.mp divided
    cases same
    cases moved
    exact .moved due rfl (fun nothing => absurd nothing something) (.inr isOpen)
      (by rintro _ ⟨⟩; rfl)
  · cases advanced
    exact .moved due rfl (fun nothing => absurd nothing something) (.inr isOpen)
      (by rintro _ ⟨⟩; rfl)

end Hub

/-- A redemption batch waits to be started or withdrawn, or for its stake to be free, which
is some minutes after the time that was reported. -/
def RedemptionBatch.Due (now : Seconds) (batch : RedemptionBatch) : Prop :=
  batch.status = .pending ∨ batch.status = .startFailed ∨ batch.status = .transferFailed ∨
    (batch.status = .waiting ∧
      ∃ time, batch.completion = some time ∧ min (time + 300) (Width.max 64) ≤ now)

namespace Hub

theorem matured_iff {now : Seconds} {batch : RedemptionBatch} : matured now batch = true ↔
    ∃ time, batch.completion = some time ∧ min (time + 300) (Width.max 64) ≤ now := by
  simp only [matured, Option.any_eq_true, decide_eq_true_eq]
  rfl

inductive RedemptionTaken (now : Seconds) (chain : Chain) (batch : RedemptionBatch) :
    RedemptionBatch → Response → Prop
  | spared {notices : List Notice} (stays : batch.Due now → chain.delegateAddress = none) :
      RedemptionTaken now chain batch batch ⟨[], notices⟩
  | moved {status : RedemptionStatus} {op : RemoteOp} {notices : List Notice}
      (due : batch.Due now) (left : status = .starting ∨ status = .withdrawing)
      (isOpen : chain.delegateAddress.isSome = true) (own : op.stage?.isSome = true) :
      RedemptionTaken now chain batch { batch with status }
        ⟨[.redemption { batch with status }, .dispatch op], notices⟩

theorem nextRedemptionStep?_due {now : Seconds} {batch : RedemptionBatch}
    {next : Option (RemoteOp × RedemptionStatus)}
    (ready : nextRedemptionStep? now chain batch = some next) :
    (next = none ∧ ¬batch.Due now) ∨ ∃ op status, next = some (op, status) ∧
      batch.Due now ∧ (status = .starting ∨ status = .withdrawing) ∧ op.stage?.isSome = true := by
  simp only [nextRedemptionStep?, Option.bind_eq_bind, Option.pure_def] at ready
  split at ready
  · rename_i pending
    obtain ⟨shares, -, same⟩ := Option.bind_eq_some_iff.mp ready
    cases same
    exact .inr ⟨_, _, rfl, .inl pending, .inl rfl, rfl⟩
  · rename_i failed
    obtain ⟨shares, -, same⟩ := Option.bind_eq_some_iff.mp ready
    cases same
    exact .inr ⟨_, _, rfl, .inr (.inl failed), .inl rfl, rfl⟩
  · rename_i waiting
    split at ready
    · rename_i ripe
      cases ready
      exact .inr ⟨_, _, rfl, .inr (.inr (.inr ⟨waiting, matured_iff.mp ripe⟩)), .inr rfl, rfl⟩
    · rename_i unripe
      cases ready
      refine .inl ⟨rfl, ?_⟩
      simp only [RedemptionBatch.Due, waiting, reduceCtorEq, false_or, true_and]
      exact mt matured_iff.mpr unripe
  · rename_i failed
    cases ready
    exact .inr ⟨_, _, rfl, .inr (.inr (.inl failed)), .inr rfl, rfl⟩
  · rename_i notPending notFailed notWaiting notReturned
    cases ready
    refine .inl ⟨rfl, ?_⟩
    rintro (pending | failed | returned | ⟨waiting, -⟩)
    · exact notPending pending
    · exact notFailed failed
    · exact notReturned returned
    · exact notWaiting waiting

theorem advanceRedemption?_taken {now : Seconds} {batch : RedemptionBatch}
    (advanced : advanceRedemption? now chain batch = some part) :
    ∃ next, RedemptionTaken now chain batch next part := by
  obtain ⟨next, ready, advanced⟩ := Option.bind_eq_some_iff.mp advanced
  rcases nextRedemptionStep?_due ready with ⟨rfl, notDue⟩ | ⟨op, status, rfl, due, left, own⟩
  · cases advanced
    exact ⟨batch, .spared fun due => absurd due notDue⟩
  · dsimp only at advanced
    split at advanced
    · rename_i isClosed
      cases advanced
      exact ⟨batch, .spared fun _ => by simpa using isClosed⟩
    · rename_i notClosed
      cases advanced
      exact ⟨_, .moved due left (by simpa [Option.isSome_iff_ne_none] using notClosed) own⟩

end Hub

/-! ## What is written for a chain -/

namespace Hub

theorem collectRewards_batches (chain : Chain) (record : DepositBatch) (record' : RedemptionBatch) :
    .deposit record ∉ (collectRewards chain).2.commands ∧
      .redemption record' ∉ (collectRewards chain).2.commands := by
  unfold collectRewards
  dsimp only
  split
  · exact ⟨nofun, nofun⟩
  split
  · simp
  split
  · simp
  split
  · simp [moveRewards]
  · exact ⟨nofun, nofun⟩

theorem updateRate_batches (chain : Chain) (inFlight supply : Amount) (record : DepositBatch)
    (record' : RedemptionBatch) : .deposit record ∉ (updateRate chain inFlight supply).commands ∧
      .redemption record' ∉ (updateRate chain inFlight supply).commands := by
  unfold updateRate
  dsimp only
  split <;> simp

theorem mem_advanceDeposits? (advanced : advanceDeposits? b.view s chain epoch = some part)
    {record : DepositBatch} : .deposit record ∈ part.commands ↔
      (b.deposit? chain.id epoch = none ∧ record = .empty chain.id epoch) ∨
        ∃ batch ∈ b.openDeposits chain.id, batch.epoch < epoch ∧
          ∃ next own, advanceDeposit? chain batch = some (next, own) ∧
            .deposit record ∈ own.commands := by
  simp only [advanceDeposits?, Books.view, Option.bind_eq_bind, Option.bind_some,
    Option.bind_eq_some_iff, Option.pure_def, Option.some.injEq] at advanced
  obtain ⟨moved, each, rfl⟩ := advanced
  have opened : .deposit record ∈ (if (b.deposit? chain.id epoch).isNone then
      (⟨[.deposit (.empty chain.id epoch)], []⟩ : Response) else .empty).commands ↔
      b.deposit? chain.id epoch = none ∧ record = .empty chain.id epoch := by
    cases b.deposit? chain.id epoch <;> simp [Response.empty]
  have rewards := (collectRewards_batches chain record (.empty chain.id epoch)).1
  have rate (inFlight supply : Amount) :=
    (updateRate_batches (collectRewards chain).1 inFlight supply record
      (.empty chain.id epoch)).1
  simp only [Response.commands_append, List.mem_append, opened, rewards, rate, or_false,
    Response.concat, List.flatMap_map, List.mem_flatMap, Prod.exists, mem_mapM each]
  refine or_congr_right ⟨?_, ?_⟩
  · rintro ⟨next, own, ⟨batch, listed, stepped⟩, member⟩
    split at stepped
    · rename_i earlier
      exact ⟨batch, listed, earlier, next, own, stepped, member⟩
    · cases stepped
      cases member
  · rintro ⟨batch, listed, earlier, next, own, stepped, member⟩
    exact ⟨next, own, ⟨batch, listed, by rwa [if_pos earlier]⟩, member⟩

theorem advanceDeposits?_redemption (advanced : advanceDeposits? b.view s chain epoch = some part)
    (record : RedemptionBatch) : .redemption record ∉ part.commands := by
  simp only [advanceDeposits?, Books.view, Option.bind_eq_bind, Option.bind_some,
    Option.bind_eq_some_iff, Option.pure_def, Option.some.injEq] at advanced
  obtain ⟨moved, each, rfl⟩ := advanced
  have rewards := (collectRewards_batches chain (.empty chain.id epoch) record).2
  have rate (inFlight supply : Amount) :=
    (updateRate_batches (collectRewards chain).1 inFlight supply
      (.empty chain.id epoch) record).2
  simp only [Response.commands_append, List.mem_append, rewards, rate, or_false, Response.concat,
    List.flatMap_map, List.mem_flatMap, Prod.exists, mem_mapM each]
  rintro (member | ⟨next, own, ⟨batch, listed, stepped⟩, member⟩)
  · cases found : b.deposit? chain.id epoch <;> simp [found, Response.empty] at member
  · split at stepped
    · cases advanceDeposit?_taken stepped with
      | spared stays => cases member
      | moved => simp at member
    · cases stepped
      cases member

theorem mem_advanceRedemptions? (advanced : advanceRedemptions? b.view s chain epoch = some part)
    {record : RedemptionBatch} : .redemption record ∈ part.commands ↔
      ∃ batch ∈ b.openRedemptions chain.id, batch.epoch < epoch ∧
        ∃ own, advanceRedemption? s.now chain batch = some own ∧
          .redemption record ∈ own.commands := by
  simp only [advanceRedemptions?, Books.view, Option.bind_eq_bind, Option.bind_some,
    Option.bind_eq_some_iff, Option.pure_def, Option.some.injEq] at advanced
  obtain ⟨moved, each, rfl⟩ := advanced
  simp only [Response.concat, List.mem_flatMap, mem_mapM each, List.mem_filter, decide_eq_true_eq]
  constructor
  · rintro ⟨own, ⟨batch, ⟨listed, earlier⟩, stepped⟩, member⟩
    exact ⟨batch, listed, earlier, own, stepped, member⟩
  · rintro ⟨batch, listed, earlier, own, stepped, member⟩
    exact ⟨own, ⟨batch, ⟨listed, earlier⟩, stepped⟩, member⟩

theorem advanceRedemptions?_deposit
    (advanced : advanceRedemptions? b.view s chain epoch = some part) (record : DepositBatch) :
    .deposit record ∉ part.commands := by
  simp only [advanceRedemptions?, Books.view, Option.bind_eq_bind, Option.bind_some,
    Option.bind_eq_some_iff, Option.pure_def, Option.some.injEq] at advanced
  obtain ⟨moved, each, rfl⟩ := advanced
  simp only [Response.concat, List.mem_flatMap, mem_mapM each]
  rintro ⟨own, ⟨batch, listed, stepped⟩, member⟩
  obtain ⟨next, taken⟩ := advanceRedemption?_taken stepped
  cases taken with
  | spared stays => cases member
  | moved => simp at member

theorem mem_advanceAll (granted : advanceAll b.view s kind epoch = .ok r) {command : Command} :
    command ∈ r.commands ↔ command = .epoch kind epoch ∨ ∃ id ∈ b.chainIds,
      ∃ chain part, b.chain? id = some chain ∧ advance? b.view s kind chain epoch = some part ∧
        command ∈ part.commands := by
  simp only [advanceAll, Attempt.bind_eq_ok, Attempt.promised_eq_ok, Attempt.pure_eq_ok] at granted
  obtain ⟨ids, listed, parts, each, rfl⟩ := granted
  obtain rfl : b.chainIds = ids := Option.some.inj listed
  simp only [Response.commands_append, Response.concat, List.mem_append, List.mem_singleton,
    List.mem_flatMap, Attempt.mem_mapM each, advanceChain, Attempt.bind_eq_ok, Books.view_chain,
    Attempt.promised_eq_ok]
  refine or_congr_right ⟨?_, ?_⟩
  · rintro ⟨part, ⟨id, listed, chain, known, advanced⟩, member⟩
    exact ⟨id, listed, chain, part, known, advanced, member⟩
  · rintro ⟨id, listed, chain, part, known, advanced, member⟩
    exact ⟨part, ⟨id, listed, chain, known, advanced⟩, member⟩

end Hub

end LiquidStaking
