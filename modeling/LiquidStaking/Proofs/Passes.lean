import LiquidStaking.Proofs.EpochStarts
import LiquidStaking.Proofs.Figures

/-!
# What the start of an epoch leaves

The start of a later epoch takes up every batch of an earlier one that is ready, of
whatever chain, and leaves none of them ready where the delegate account is open; it
touches no other batch.  Every batch that begins to wait with it waits for exactly one
operation.
-/

namespace LiquidStaking

variable {s : Surroundings} {b : Books} {id : ChainId} {chain : Chain} {kind : EpochKind}
  {epoch : Epoch} {r part : Response}

/-! ## What is written by a whole pass -/

def DepositBatch.Ready (epoch : Epoch) (batch : DepositBatch) : Prop :=
  batch.epoch < epoch ∧ (batch.status = .pending ∨ batch.status = .transferFailed)

theorem DepositBatch.ready_iff {batch : DepositBatch} :
    batch.Ready epoch ↔ batch.epoch < epoch ∧ batch.status.awaitsEpoch = true := by
  simp [Ready, DepositStatus.awaitsEpoch]

theorem DepositBatch.Ready.isOpen {batch : DepositBatch} (ready : batch.Ready epoch) :
    batch.isOpen = true := by
  rcases ready.2 with is | is <;> rw [DepositBatch.isOpen, is] <;> rfl

def RedemptionBatch.Ready (now : Seconds) (epoch : Epoch) (batch : RedemptionBatch) : Prop :=
  batch.epoch < epoch ∧ batch.Due now

theorem RedemptionBatch.Ready.isOpen {now : Seconds} {batch : RedemptionBatch}
    (ready : batch.Ready now epoch) : batch.isOpen = true := by
  rcases ready.2 with is | is | is | ⟨is, -⟩ <;> rw [RedemptionBatch.isOpen, is] <;> rfl

namespace Hub

section Pass

variable (passable : b.Passable)

include passable

section Deposits

variable (granted : advanceAll b.view s .delegation epoch = .ok r)

include granted

theorem mem_pass_deposit {record : DepositBatch} : .deposit record ∈ r.commands ↔
    ∃ chain, b.chain? record.chain = some chain ∧
      ((b.deposit? record.chain epoch = none ∧ record = .empty record.chain epoch) ∨
        ∃ batch own, b.deposit? record.chain record.epoch = some batch ∧ batch.isOpen = true ∧
          record.epoch < epoch ∧ advanceDeposit? chain batch = some (record, own) ∧
          .deposit record ∈ own.commands) := by
  simp only [mem_advanceAll granted, reduceCtorEq, false_or]
  constructor
  · rintro ⟨id, -, chain, part, known, advanced, member⟩
    obtain rfl := passable.kept.chainKey known
    rcases (mem_advanceDeposits? advanced).mp member with
      ⟨absent, rfl⟩ | ⟨batch, listed, earlier, next, own, stepped, written⟩
    · exact ⟨chain, known, .inl ⟨absent, rfl⟩⟩
    · obtain ⟨stored, isOpen⟩ := List.mem_filter.mp listed
      have key := passable.kept.depositKey stored
      have found := passable.kept.deposit?_mem stored
      have taken := advanceDeposit?_taken stepped
      cases taken with
      | spared stays => cases written
      | moved due left emptied able =>
          obtain rfl : record = _ := by simpa using written
          rw [← key] at known found
          exact ⟨chain, known, .inr ⟨batch, _, found, isOpen, earlier, stepped, written⟩⟩
  · rintro ⟨chain, known, written⟩
    have key := passable.kept.chainKey known
    obtain ⟨part, advanced⟩ := advance?_isSome passable known s .delegation epoch
    refine ⟨record.chain, passable.kept.listed known, chain, part, known, advanced,
      (mem_advanceDeposits? advanced).mpr ?_⟩
    rw [key]
    rcases written with opened | ⟨batch, own, found, isOpen, earlier, stepped, member⟩
    · exact .inl opened
    · obtain ⟨stored, same⟩ := Books.mem_deposits found
      exact .inr ⟨batch, List.mem_filter.mpr ⟨stored, isOpen⟩, same ▸ earlier, record, own,
        stepped, member⟩

theorem deposit?_taken {batch : DepositBatch} (found : b.deposit? id batch.epoch = some batch)
    (known : b.chain? id = some chain) (isOpen : batch.isOpen = true)
    (earlier : batch.epoch < epoch) : ∃ next own, DepositTaken chain batch next own ∧
      (b.applyAll r.commands).deposit? id batch.epoch = some next := by
  obtain rfl := passable.kept.chainKey known
  obtain ⟨stored, -⟩ := Books.mem_deposits found
  have key := passable.kept.depositKey stored
  obtain ⟨⟨next, own⟩, stepped⟩ := Option.isSome_iff_exists.mp
    (advanceDeposit?_isSome (passable.weighable known) (passable.orderly.depositFits stored).2)
  have taken := advanceDeposit?_taken stepped
  refine ⟨next, own, taken, ?_⟩
  -- Whatever is written of the batch is what its own step writes.
  have only (record : DepositBatch) (member : .deposit record ∈ r.commands)
      (sameChain : record.chain = chain.id) (sameEpoch : record.epoch = batch.epoch) :
      record = next ∧ .deposit record ∈ own.commands := by
    obtain ⟨chain', known', written⟩ := (mem_pass_deposit passable granted).mp member
    rw [sameChain, known] at known'
    cases known'
    rcases written with ⟨-, opened⟩ | ⟨other, own', found', -, -, stepped', written⟩
    · have new : record.epoch = epoch := by rw [opened, DepositBatch.empty]
      exact absurd (sameEpoch.symm.trans new) (Nat.ne_of_lt earlier)
    · rw [sameChain, sameEpoch, found] at found'
      cases found'
      rw [stepped] at stepped'
      cases stepped'
      exact ⟨rfl, written⟩
  cases taken with
  | spared stays =>
      rw [Books.deposit?_unwritten, found]
      intro record member sameChain sameEpoch
      cases (only record member sameChain sameEpoch).2
  | @moved status op notices due left emptied able =>
      have member : .deposit { batch with status } ∈ r.commands := by
        refine (mem_pass_deposit passable granted).mpr ⟨chain, ?_, .inr
          ⟨batch, _, ?_, isOpen, earlier, stepped, List.mem_cons_self⟩⟩
        · exact key ▸ known
        · exact key ▸ found
      have written : (b.applyAll r.commands).deposit? batch.chain batch.epoch =
          some { batch with status } :=
        Books.deposit?_once member fun other listed sameChain sameEpoch =>
          (only other listed (sameChain.trans key) sameEpoch).1
      rw [← key]
      exact written

theorem deposit?_spared {e : Epoch} (other : e ≠ epoch) (past : ∀ batch,
    b.deposit? id e = some batch → batch.isOpen = true → epoch ≤ e) :
    (b.applyAll r.commands).deposit? id e = b.deposit? id e := by
  refine Books.deposit?_unwritten fun record member sameChain sameEpoch => ?_
  subst sameChain sameEpoch
  obtain ⟨chain, known, written⟩ := (mem_pass_deposit passable granted).mp member
  rcases written with ⟨-, opened⟩ | ⟨batch, own, found, isOpen, earlier, -, -⟩
  · exact other (by rw [opened, DepositBatch.empty])
  · exact Nat.not_le_of_lt earlier (past batch found isOpen)

theorem deposit?_opened (known : b.chain? id = some chain) (absent : b.deposit? id epoch = none) :
    (b.applyAll r.commands).deposit? id epoch = some (.empty id epoch) := by
  have member : .deposit (.empty id epoch) ∈ r.commands :=
    (mem_pass_deposit passable granted).mpr ⟨chain, known, .inl ⟨absent, rfl⟩⟩
  refine Books.deposit?_once (b := b) member fun other listed sameChain sameEpoch => ?_
  obtain ⟨chain', known', written⟩ := (mem_pass_deposit passable granted).mp listed
  rcases written with ⟨-, opened⟩ | ⟨batch, own, found, isOpen, earlier, -, -⟩
  · rw [opened, sameChain]
    rfl
  · exact absurd sameEpoch (Nat.ne_of_lt earlier)

omit passable

theorem pass_redemption (record : RedemptionBatch) : .redemption record ∉ r.commands := by
  rw [mem_advanceAll granted]
  rintro (other | ⟨id, -, chain, part, known, advanced, member⟩)
  · cases other
  · exact advanceDeposits?_redemption advanced record member

end Deposits

section Redemptions

variable (granted : advanceAll b.view s .undelegation epoch = .ok r)

include granted

theorem mem_pass_redemption {record : RedemptionBatch} : .redemption record ∈ r.commands ↔
    ∃ chain batch own, b.chain? record.chain = some chain ∧
      b.redemption? record.chain record.epoch = some batch ∧ batch.isOpen = true ∧
      record.epoch < epoch ∧ advanceRedemption? s.now chain batch = some own ∧
      .redemption record ∈ own.commands := by
  simp only [mem_advanceAll granted, reduceCtorEq, false_or]
  constructor
  · rintro ⟨id, -, chain, part, known, advanced, member⟩
    obtain rfl := passable.kept.chainKey known
    obtain ⟨batch, listed, earlier, own, stepped, written⟩ :=
      (mem_advanceRedemptions? advanced).mp member
    obtain ⟨stored, isOpen⟩ := List.mem_filter.mp listed
    have key := passable.kept.redemptionKey stored
    have found := passable.kept.redemption?_mem stored
    obtain ⟨next, taken⟩ := advanceRedemption?_taken stepped
    cases taken with
    | spared stays => cases written
    | moved due left able =>
        obtain rfl : record = _ := by simpa using written
        rw [← key] at known found
        exact ⟨chain, batch, _, known, found, isOpen, earlier, stepped, written⟩
  · rintro ⟨chain, batch, own, known, found, isOpen, earlier, stepped, written⟩
    have key := passable.kept.chainKey known
    obtain ⟨part, advanced⟩ := advance?_isSome passable known s .undelegation epoch
    obtain ⟨stored, same⟩ := Books.mem_redemptions found
    refine ⟨record.chain, passable.kept.listed known, chain, part, known, advanced,
      (mem_advanceRedemptions? advanced).mpr ⟨batch, ?_, same ▸ earlier, own, stepped, written⟩⟩
    rw [key]
    exact List.mem_filter.mpr ⟨stored, isOpen⟩

theorem redemption?_taken {batch : RedemptionBatch}
    (found : b.redemption? id batch.epoch = some batch) (known : b.chain? id = some chain)
    (isOpen : batch.isOpen = true) (earlier : batch.epoch < epoch) :
    ∃ next own, RedemptionTaken s.now chain batch next own ∧
      (b.applyAll r.commands).redemption? id batch.epoch = some next := by
  obtain rfl := passable.kept.chainKey known
  obtain ⟨stored, -⟩ := Books.mem_redemptions found
  have key := passable.kept.redemptionKey stored
  obtain ⟨own, stepped⟩ := Option.isSome_iff_exists.mp (advanceRedemption?_isSome
    (passable.weighable known) (passable.orderly.redemptionFits stored) s.now)
  obtain ⟨next, taken⟩ := advanceRedemption?_taken stepped
  refine ⟨next, own, taken, ?_⟩
  -- Whatever is written of the batch is what its own step writes.
  have only (record : RedemptionBatch) (member : .redemption record ∈ r.commands)
      (sameChain : record.chain = chain.id) (sameEpoch : record.epoch = batch.epoch) :
      .redemption record ∈ own.commands := by
    obtain ⟨chain', other, own', known', found', -, -, stepped', written⟩ :=
      (mem_pass_redemption passable granted).mp member
    rw [sameChain, known] at known'
    cases known'
    rw [sameChain, sameEpoch, found] at found'
    cases found'
    rw [stepped] at stepped'
    cases stepped'
    exact written
  cases taken with
  | spared stays =>
      rw [Books.redemption?_unwritten, found]
      intro record member sameChain sameEpoch
      cases only record member sameChain sameEpoch
  | @moved status op notices due left able =>
      have member : .redemption { batch with status } ∈ r.commands := by
        refine (mem_pass_redemption passable granted).mpr ⟨chain, batch, _, ?_, ?_, isOpen,
          earlier, stepped, List.mem_cons_self⟩
        · exact key ▸ known
        · exact key ▸ found
      have written : (b.applyAll r.commands).redemption? batch.chain batch.epoch =
          some { batch with status } :=
        Books.redemption?_once member fun other listed sameChain sameEpoch => by
          simpa using only other listed (sameChain.trans key) sameEpoch
      rw [← key]
      exact written

theorem redemption?_spared {e : Epoch} (past : ∀ batch, b.redemption? id e = some batch →
    batch.isOpen = true → epoch ≤ e) :
    (b.applyAll r.commands).redemption? id e = b.redemption? id e := by
  refine Books.redemption?_unwritten fun record member sameChain sameEpoch => ?_
  subst sameChain sameEpoch
  obtain ⟨chain, batch, own, known, found, isOpen, earlier, -, -⟩ :=
    (mem_pass_redemption passable granted).mp member
  exact Nat.not_le_of_lt earlier (past batch found isOpen)

theorem pass_closed (known : b.chain? id = some chain) (isClosed : chain.delegateAddress = none)
    {record : RedemptionBatch} (member : .redemption record ∈ r.commands) : record.chain ≠ id := by
  rintro rfl
  obtain ⟨chain', batch, own, known', -, -, -, stepped, written⟩ :=
    (mem_pass_redemption passable granted).mp member
  cases known.symm.trans known'
  obtain ⟨next, taken⟩ := advanceRedemption?_taken stepped
  cases taken with
  | spared stays => cases written
  | moved due left isOpen =>
      rw [isClosed] at isOpen
      cases isOpen

omit passable

theorem pass_deposit (record : DepositBatch) : .deposit record ∉ r.commands := by
  rw [mem_advanceAll granted]
  rintro (other | ⟨id, -, chain, part, known, advanced, member⟩)
  · cases other
  · exact advanceRedemptions?_deposit advanced record member

end Redemptions

end Pass

end Hub

/-! ## What begins to wait -/

/-- An operation is started for every batch that begins to wait, and for no other. -/
theorem Passage.begins (kept : b.WellKept) (orderly : b.Orderly)
    (passage : Passage s (.asked (.startEpoch kind epoch)) b r) (stage : Stage) :
    r.dispatched.countP (RemoteOp.serves stage) =
        (if (b.applyAll r.commands).awaits stage = true ∧ b.awaits stage = false then 1 else 0) ∧
      (b.awaits stage = true → (b.applyAll r.commands).awaits stage = true) := by
  induction passage with
  | done => simp [Response.dispatched, Response.empty]
  | @next b first rest move later ih =>
      have orderly' := move.orderly kept orderly (by intro op outcome heard; cases heard)
      obtain ⟨counted, stays⟩ := ih (kept.applyAll _) orderly'
      rw [Response.dispatched_append, List.countP_append, counted, Response.commands_append,
        Books.applyAll_append]
      cases move.turn kept orderly stage with
      | begun idle waiting one _ => simp [one, idle, waiting, stays waiting]
      | finished _ _ _ freed => cases freed
      | same unchanged none _ =>
          rw [unchanged] at stays
          rw [none, unchanged, Nat.zero_add]
          exact ⟨rfl, stays⟩

/-! ## The books after the pass -/

/-- A delegation epoch opened its batch for every chain, and took up the deposit batches
that were ready: all of a chain whose delegate account is open, and of one whose is not
those that hold nothing. -/
structure Books.DepositsPassed (b c : Books) (epoch : Epoch) : Prop where
  opened : ∀ {id chain}, b.chain? id = some chain →
    ∃ batch, c.deposit? id epoch = some batch ∧ batch.status = .pending
  cleared : ∀ {id chain}, b.chain? id = some chain → chain.delegateAddress.isSome = true →
    ∀ batch ∈ c.deposits id, ¬batch.Ready epoch
  moved : ∀ {id chain batch}, b.chain? id = some chain → chain.delegateAddress.isSome = true →
    b.deposit? id batch.epoch = some batch → batch.Ready epoch →
    ∃ status, c.deposit? id batch.epoch = some { batch with status }
  held : ∀ {id chain batch}, b.chain? id = some chain → chain.delegateAddress = none →
    b.deposit? id batch.epoch = some batch → batch.Ready epoch →
    c.deposit? id batch.epoch =
      some (if batch.amount = 0 then { batch with status := .done } else batch)
  spared : ∀ {id batch}, b.deposit? id batch.epoch = some batch → ¬batch.Ready epoch →
    c.deposit? id batch.epoch = some batch
  absent : ∀ {id e}, e ≠ epoch → b.deposit? id e = none → c.deposit? id e = none
  redemptions : c.redemptions = b.redemptions

structure Books.RedemptionsPassed (b c : Books) (now : Seconds) (epoch : Epoch) : Prop where
  cleared : ∀ {id chain}, b.chain? id = some chain → chain.delegateAddress.isSome = true →
    ∀ batch ∈ c.redemptions id, ¬batch.Ready now epoch
  moved : ∀ {id chain batch}, b.chain? id = some chain → chain.delegateAddress.isSome = true →
    b.redemption? id batch.epoch = some batch → batch.Ready now epoch →
    ∃ status, c.redemption? id batch.epoch = some { batch with status }
  held : ∀ {id chain}, b.chain? id = some chain → chain.delegateAddress = none →
    c.redemptions id = b.redemptions id
  spared : ∀ {id batch}, b.redemption? id batch.epoch = some batch → ¬batch.Ready now epoch →
    c.redemption? id batch.epoch = some batch
  absent : ∀ {id e}, b.redemption? id e = none → c.redemption? id e = none
  deposits : c.deposits = b.deposits

def Books.Passed (b c : Books) (s : Surroundings) : EpochKind → Epoch → Prop
  | .delegation, epoch => b.DepositsPassed c epoch
  | .undelegation, epoch => b.RedemptionsPassed c s.now epoch

namespace Hub

/-- What becomes of a stored deposit batch: it stays as it is, or it was ready and has
a status that no epoch takes up. -/
inductive DepositFate (chain : Chain) (epoch : Epoch) (batch : DepositBatch) :
    DepositBatch → Prop
  | same (stays : batch.Ready epoch → batch.amount ≠ 0 ∧ chain.delegateAddress = none) :
      DepositFate chain epoch batch batch
  | moved {status : DepositStatus} (ready : batch.Ready epoch) (left : status.awaitsEpoch = false)
      (emptied : batch.amount = 0 → status = .done)
      (able : batch.amount = 0 ∨ chain.delegateAddress.isSome = true) :
      DepositFate chain epoch batch { batch with status }

theorem deposit?_fate (passable : b.Passable)
    (granted : advanceAll b.view s .delegation epoch = .ok r) {batch : DepositBatch}
    (found : b.deposit? id batch.epoch = some batch) (known : b.chain? id = some chain)
    (other : batch.epoch ≠ epoch) : ∃ next, DepositFate chain epoch batch next ∧
      (b.applyAll r.commands).deposit? id batch.epoch = some next := by
  by_cases takes : batch.isOpen = true ∧ batch.epoch < epoch
  · obtain ⟨next, own, taken, written⟩ :=
      deposit?_taken passable granted found known takes.1 takes.2
    refine ⟨next, ?_, written⟩
    cases taken with
    | spared stays => exact .same fun ready => stays (DepositBatch.ready_iff.mp ready).2
    | moved due left emptied able =>
        exact .moved (DepositBatch.ready_iff.mpr ⟨takes.2, due⟩) left emptied able
  · refine ⟨batch, .same fun ready => absurd ⟨ready.isOpen, ready.1⟩ takes, ?_⟩
    rw [deposit?_spared passable granted other, found]
    intro stored is isOpen
    cases found.symm.trans is
    exact Nat.le_of_not_lt fun earlier => takes ⟨isOpen, earlier⟩

theorem pass_deposits (passable : b.Passable)
    (later : ∀ current, b.epoch? .delegation = some current → current < epoch)
    (granted : advanceAll b.view s .delegation epoch = .ok r) :
    b.DepositsPassed (b.applyAll r.commands) epoch := by
  -- Every batch that is stored is of an earlier epoch.
  have earlier {id : ChainId} {batch : DepositBatch}
      (found : b.deposit? id batch.epoch = some batch) : batch.epoch < epoch := by
    obtain ⟨current, started, reached⟩ :=
      passable.orderly.deposit_epoch (Books.mem_deposits found).1
    exact Nat.lt_of_le_of_lt reached (later current started)
  have fate {id : ChainId} {chain : Chain} {batch : DepositBatch}
      (known : b.chain? id = some chain) (found : b.deposit? id batch.epoch = some batch) :=
    deposit?_fate passable granted found known (Nat.ne_of_lt (earlier found))
  have absent {id : ChainId} {e : Epoch} (other : e ≠ epoch) (nothing : b.deposit? id e = none) :
      (b.applyAll r.commands).deposit? id e = none := by
    rw [deposit?_spared passable granted other (by simp [nothing]), nothing]
  constructor
  case opened =>
    intro id chain known
    refine ⟨_, deposit?_opened passable granted known ?_, rfl⟩
    cases found : b.deposit? id epoch with
    | none => rfl
    | some batch =>
        obtain ⟨-, rfl⟩ := Books.mem_deposits found
        exact absurd (earlier found) (Nat.lt_irrefl _)
  case cleared =>
    intro id chain known isOpen batch member ready
    have now := (passable.kept.applyAll r.commands).deposit?_mem member
    cases before : b.deposit? id batch.epoch with
    | none =>
        rw [absent (Nat.ne_of_lt ready.1) before] at now
        cases now
    | some old =>
        obtain ⟨-, same⟩ := Books.mem_deposits before
        rw [← same] at before now
        obtain ⟨next, fate, written⟩ := fate known before
        cases now.symm.trans written
        cases fate with
        | same stays =>
            rw [(stays ready).2] at isOpen
            cases isOpen
        | moved _ left _ _ =>
            exact Bool.noConfusion (left.symm.trans (DepositBatch.ready_iff.mp ready).2)
  case moved =>
    intro id chain batch known isOpen found ready
    obtain ⟨next, fate, written⟩ := fate known found
    cases fate with
    | same stays =>
        rw [(stays ready).2] at isOpen
        cases isOpen
    | moved => exact ⟨_, written⟩
  case held =>
    intro id chain batch known isClosed found ready
    obtain ⟨next, fate, written⟩ := fate known found
    cases fate with
    | same stays => rwa [if_neg (stays ready).1]
    | moved ready left emptied able =>
        have nothing : batch.amount = 0 := able.resolve_right (by simp [isClosed])
        rwa [if_pos nothing, ← emptied nothing]
  case spared =>
    intro id batch found passed
    obtain ⟨chain, known⟩ := passable.orderly.depositChain (Books.mem_deposits found).1
    obtain ⟨next, fate, written⟩ := fate known found
    cases fate with
    | same stays => exact written
    | moved ready => exact absurd ready passed
  case absent => exact absent
  case redemptions =>
    exact funext fun id => Books.redemptions_unwritten fun record member =>
      absurd member (pass_redemption granted record)

inductive RedemptionFate (now : Seconds) (chain : Chain) (epoch : Epoch)
    (batch : RedemptionBatch) : RedemptionBatch → Prop
  | same (stays : batch.Ready now epoch → chain.delegateAddress = none) :
      RedemptionFate now chain epoch batch batch
  | moved {status : RedemptionStatus} (ready : batch.Ready now epoch)
      (left : status = .starting ∨ status = .withdrawing) :
      RedemptionFate now chain epoch batch { batch with status }

theorem redemption?_fate (passable : b.Passable)
    (granted : advanceAll b.view s .undelegation epoch = .ok r) {batch : RedemptionBatch}
    (found : b.redemption? id batch.epoch = some batch) (known : b.chain? id = some chain) :
    ∃ next, RedemptionFate s.now chain epoch batch next ∧
      (b.applyAll r.commands).redemption? id batch.epoch = some next := by
  by_cases takes : batch.isOpen = true ∧ batch.epoch < epoch
  · obtain ⟨next, own, taken, written⟩ :=
      redemption?_taken passable granted found known takes.1 takes.2
    refine ⟨next, ?_, written⟩
    cases taken with
    | spared stays => exact .same fun ready => stays ready.2
    | moved due left isOpen => exact .moved ⟨takes.2, due⟩ left
  · refine ⟨batch, .same fun ready => absurd ⟨ready.isOpen, ready.1⟩ takes, ?_⟩
    rw [redemption?_spared passable granted, found]
    intro stored is isOpen
    cases found.symm.trans is
    exact Nat.le_of_not_lt fun earlier => takes ⟨isOpen, earlier⟩

theorem pass_redemptions (passable : b.Passable)
    (granted : advanceAll b.view s .undelegation epoch = .ok r) :
    b.RedemptionsPassed (b.applyAll r.commands) s.now epoch := by
  have absent {id : ChainId} {e : Epoch} (nothing : b.redemption? id e = none) :
      (b.applyAll r.commands).redemption? id e = none := by
    rw [redemption?_spared passable granted (by simp [nothing]), nothing]
  constructor
  case cleared =>
    intro id chain known isOpen batch member ready
    have now := (passable.kept.applyAll r.commands).redemption?_mem member
    cases before : b.redemption? id batch.epoch with
    | none =>
        rw [absent before] at now
        cases now
    | some old =>
        obtain ⟨-, same⟩ := Books.mem_redemptions before
        rw [← same] at before now
        obtain ⟨next, fate, written⟩ := redemption?_fate passable granted before known
        cases now.symm.trans written
        cases fate with
        | same stays =>
            rw [stays ready] at isOpen
            cases isOpen
        | moved _ left =>
            rcases left with rfl | rfl <;>
              simp [RedemptionBatch.Ready, RedemptionBatch.Due] at ready
  case moved =>
    intro id chain batch known isOpen found ready
    obtain ⟨next, fate, written⟩ := redemption?_fate passable granted found known
    cases fate with
    | same stays =>
        rw [stays ready] at isOpen
        cases isOpen
    | moved => exact ⟨_, written⟩
  case held =>
    intro id chain known isClosed
    exact Books.redemptions_unwritten fun record => pass_closed passable granted known isClosed
  case spared =>
    intro id batch found passed
    obtain ⟨chain, known⟩ := passable.orderly.redemptionChain (Books.mem_redemptions found).1
    obtain ⟨next, fate, written⟩ := redemption?_fate passable granted found known
    cases fate with
    | same stays => exact written
    | moved ready => exact absurd ready passed
  case absent => exact absent
  case deposits =>
    exact funext fun id => Books.deposits_unwritten fun record member =>
      absurd member (pass_deposit granted record)

end Hub

/-! ## Runs -/

namespace HubState

/-- In every state of a run whose weights are of 64 bits, starting a later epoch succeeds:
no batch that was ready stays so where the delegate account is open, no other batch
changes, and every batch that begins to wait has one operation started for it.  Starting
the current epoch again changes nothing, and an earlier one is refused. -/
theorem epoch_passes {steps : List Step} (sized : ∀ step ∈ steps, step.sized = true)
    (s : Surroundings) (kind : EpochKind) (epoch : Epoch) :
    ((∀ current, (after steps).books.epoch? kind = some current → current < epoch) →
      ∃ r, (after steps).perform s (.startEpoch kind epoch) = (.ok r, (after steps).commit r) ∧
        (after steps).books.Passed ((after steps).commit r).books s kind epoch ∧
        ∀ stage, r.dispatched.countP (RemoteOp.serves stage) =
          if ((after steps).commit r).books.awaits stage = true ∧
            (after steps).books.awaits stage = false then 1 else 0) ∧
    ((after steps).books.epoch? kind = some epoch →
      (after steps).perform s (.startEpoch kind epoch) = (.ok .empty, after steps)) ∧
    ∀ current, (after steps).books.epoch? kind = some current → epoch < current →
      (after steps).perform s (.startEpoch kind epoch) =
        (Attempt.refuse (.epochNotAdvanced kind current epoch), after steps) := by
  have passable := after_passable sized
  refine ⟨fun later => ?_, fun again => ?_, fun current is earlier => ?_⟩
  · obtain ⟨r, granted⟩ := Hub.advanceAll_ok passable s kind epoch
    have answered := (Hub.startEpoch_later later s).trans granted
    have passage := Hub.startEpoch_passage passable.kept answered
    refine ⟨r, ?_, ?_, fun stage => (passage.begins passable.kept passable.orderly stage).1⟩
    · rw [perform, Request.answer, answered]
      rfl
    · cases kind with
      | delegation => exact Hub.pass_deposits passable later granted
      | undelegation => exact Hub.pass_redemptions passable granted
  · rw [perform, Request.answer, Hub.startEpoch_again again]
    exact congrArg _ HubState.commit_empty
  · rw [perform, Request.answer, Hub.startEpoch_earlier is earlier]
    rfl

/-- A deposit waits in the batch of the first epoch.  The second opens its own batch, and
starts the transfer of the first. -/
theorem epoch_passes_sample :
    (∀ step ∈ Step.sampleRun.take 4, step.sized = true) ∧ ∃ r batch,
      (after (Step.sampleRun.take 4)).perform (.sample 1000 1000) (.startEpoch .delegation 2) =
        (.ok r, (after (Step.sampleRun.take 4)).commit r) ∧
      ((after (Step.sampleRun.take 4)).commit r).books.deposit? "cosmoshub" 2 = some batch ∧
      batch.status = .pending ∧
      r.dispatched = [.transferDeposit "cosmoshub" 1 1000] := by
  have sized : ∀ step ∈ Step.sampleRun.take 4, step.sized = true := by decide
  have first : (after (Step.sampleRun.take 4)).books.epoch? .delegation = some 1 := by
    decide +kernel
  have started : ((after (Step.sampleRun.take 4)).perform (.sample 1000 1000)
      (.startEpoch .delegation 2)).1.toOption.map Response.dispatched =
        some [.transferDeposit "cosmoshub" 1 1000] := by
    decide +kernel
  obtain ⟨chain, known⟩ : ∃ chain,
      (after (Step.sampleRun.take 4)).books.chain? "cosmoshub" = some chain :=
    Option.isSome_iff_exists.mp (by decide +kernel)
  obtain ⟨passes, -, -⟩ := epoch_passes sized (.sample 1000 1000) .delegation 2
  obtain ⟨r, answered, passed, -⟩ := passes fun current is => by
    cases first.symm.trans is
    decide
  obtain ⟨batch, opened, pending⟩ := passed.opened known
  rw [answered] at started
  exact ⟨sized, r, batch, answered, opened, pending, Option.some.inj started⟩

end HubState

end LiquidStaking
