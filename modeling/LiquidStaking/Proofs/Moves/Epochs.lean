import LiquidStaking.Proofs.Moves.Requests

/-!
# The start of an epoch makes many moves

Every chain is taken up in turn, and for every chain each of its batches.  The
hub works all of this out from the books it finds; because a move changes only
the records of one chain, and of one batch, every part of the response is also
what the hub would answer from the books as the earlier parts leave them.
-/

namespace LiquidStaking

variable {s : Surroundings} {b c : Books} {id : ChainId} {r : Response}

/-- Moves made one after the other, each on the books the ones before it left. -/
inductive Passage (s : Surroundings) (cause : Cause) : Books → Response → Prop
  | done {b : Books} : Passage s cause b .empty
  | next {b : Books} {first rest : Response} (move : Move s b cause first)
      (later : Passage s cause (b.applyAll first.commands) rest) :
      Passage s cause b (first ++ rest)

namespace Response

@[simp] theorem empty_append (r : Response) : .empty ++ r = r := rfl

@[simp] theorem append_empty (r : Response) : r ++ .empty = r :=
  (mk.injEq ..).mpr ⟨List.append_nil _, List.append_nil _⟩

theorem append_assoc (first second third : Response) :
    first ++ second ++ third = first ++ (second ++ third) :=
  (mk.injEq ..).mpr ⟨List.append_assoc _ _ _, List.append_assoc _ _ _⟩

@[simp] theorem concat_nil : concat [] = .empty := rfl

@[simp] theorem concat_cons (part : Response) (parts : List Response) :
    concat (part :: parts) = part ++ concat parts := rfl

end Response

namespace Passage

variable {cause : Cause} {first second : Response}

theorem single (move : Move s b cause r) : Passage s cause b r := by
  rw [← Response.append_empty r]
  exact .next move .done

theorem append (before : Passage s cause b first)
    (after : Passage s cause (b.applyAll first.commands) second) :
    Passage s cause b (first ++ second) := by
  induction before with
  | done => exact after
  | next move later ih =>
      rw [Response.append_assoc]
      refine .next move (ih ?_)
      simpa using after

end Passage

/-! ## What a move leaves alone -/

def Command.Concerns (id : ChainId) : Command → Prop
  | .chain record => record.id = id
  | .epoch .. => False
  | .deposit record => record.chain = id
  | .redemption record => record.chain = id
  | _ => True

def Response.Concerns (id : ChainId) (r : Response) : Prop :=
  ∀ command ∈ r.commands, command.Concerns id

theorem Response.concerns_empty : Response.empty.Concerns id := by
  intro command member
  cases member

theorem Response.concerns_append {first second : Response} (before : first.Concerns id)
    (after : second.Concerns id) : (first ++ second).Concerns id := by
  intro command member
  rcases List.mem_append.mp member with early | late
  · exact before command early
  · exact after command late

namespace Books

structure Agree (b c : Books) (id : ChainId) : Prop where
  chain : c.chain? id = b.chain? id
  deposits : c.deposits id = b.deposits id
  redemptions : c.redemptions id = b.redemptions id

theorem Agree.trans {d : Books} (first : Agree b c id) (second : Agree c d id) :
    Agree b d id where
  chain := second.chain.trans first.chain
  deposits := second.deposits.trans first.deposits
  redemptions := second.redemptions.trans first.redemptions

theorem apply_agree {other : ChainId} {command : Command} (concerns : command.Concerns id)
    (differ : other ≠ id) : Agree b (b.apply command) other := by
  cases command with
  | chain record =>
      have apart : other ≠ record.id := fun same => differ (same.trans concerns)
      exact ⟨by simp [apply, chain?_putChain, apart], rfl, rfl⟩
  | epoch kind epoch => exact concerns.elim
  | deposit record =>
      have apart : other ≠ record.chain := fun same => differ (same.trans concerns)
      exact ⟨rfl, by simp [apply, deposits_putDeposit, apart], rfl⟩
  | redemption record =>
      have apart : other ≠ record.chain := fun same => differ (same.trans concerns)
      exact ⟨rfl, rfl, by simp [apply, redemptions_putRedemption, apart]⟩
  | claim record => exact ⟨rfl, rfl, rfl⟩
  | token order => exact ⟨rfl, rfl, rfl⟩
  | dispatch op => exact ⟨rfl, rfl, rfl⟩

theorem applyAll_agree {other : ChainId} {commands : List Command}
    (concerns : ∀ command ∈ commands, command.Concerns id) (differ : other ≠ id) :
    Agree b (b.applyAll commands) other := by
  induction commands generalizing b with
  | nil => exact ⟨rfl, rfl, rfl⟩
  | cons command commands ih =>
      exact (apply_agree (concerns command List.mem_cons_self) differ).trans
        (ih fun later member => concerns later (List.mem_cons_of_mem _ member))

theorem apply_epoch? {command : Command} (concerns : command.Concerns id) :
    (b.apply command).epoch? = b.epoch? := by
  cases command with
  | epoch kind epoch => exact concerns.elim
  | _ => rfl

theorem applyAll_epoch? {commands : List Command}
    (concerns : ∀ command ∈ commands, command.Concerns id) :
    (b.applyAll commands).epoch? = b.epoch? := by
  induction commands generalizing b with
  | nil => rfl
  | cons command commands ih =>
      rw [applyAll_cons, ih fun later member => concerns later (List.mem_cons_of_mem _ member)]
      exact apply_epoch? (concerns command List.mem_cons_self)

end Books

/-! ## Deposits -/

namespace Hub

variable {chain : Chain} {epoch : Epoch}

theorem advanceDeposit?_move (kept : b.WellKept) {batch next : DepositBatch}
    (found : b.deposit? chain.id batch.epoch = some batch)
    (known : b.chain? chain.id = some chain) (current : b.epoch? .delegation = some epoch)
    (advanced : (if batch.epoch < epoch then advanceDeposit? chain batch
      else some (batch, .empty)) = some (next, r)) :
    Move s b (.asked (.startEpoch .delegation epoch)) r ∧ next.chain = chain.id ∧
      next.epoch = batch.epoch ∧
      ((next = batch ∧ r.commands = []) ∨
        ∃ op : Option RemoteOp,
          r.commands = .deposit next :: (op.map Command.dispatch).toList) := by
  have key : batch.chain = chain.id := kept.depositKey (Books.mem_deposits found).1
  split at advanced
  · rename_i earlier
    unfold advanceDeposit? at advanced
    split at advanced
    · cases advanced
      exact ⟨.quiet Notice.plain_nil, key, rfl, .inl ⟨rfl, rfl⟩⟩
    rename_i due
    replace due : batch.status.awaitsEpoch = true := by simpa using due
    split at advanced
    · rename_i nothing
      cases advanced
      exact ⟨.depositMoved found (.emptied current earlier due nothing) (Notice.plain_deposit _),
        key, rfl, .inr ⟨none, rfl⟩⟩
    rename_i something
    split at advanced
    · cases advanced
      exact ⟨.quiet fun _ => rfl, key, rfl, .inl ⟨rfl, rfl⟩⟩
    rename_i notClosed
    have isOpen : chain.delegateAddress.isSome = true := by
      simpa [Option.isSome_iff_ne_none] using notClosed
    split at advanced
    · rename_i gone
      simp only [delegation?, Option.bind_eq_bind, Option.map_eq_some_iff,
        Option.bind_eq_some_iff] at advanced
      obtain ⟨op, ⟨shares, shared, divided⟩, moved⟩ := advanced
      cases divided
      cases moved
      exact ⟨.depositMoved found (.divided current earlier due known isOpen something gone shared)
        (Notice.plain_deposit _), key, rfl, .inr ⟨some _, rfl⟩⟩
    · rename_i held
      cases advanced
      exact ⟨.depositMoved found (.sent current earlier due known isOpen held)
        (Notice.plain_deposit _), key, rfl, .inr ⟨some _, rfl⟩⟩
  · cases advanced
    exact ⟨.quiet Notice.plain_nil, key, rfl, .inl ⟨rfl, rfl⟩⟩

theorem concerns_deposit {batch : DepositBatch} (key : batch.chain = id)
    (op : Option RemoteOp) (notices : List Notice) :
    Response.Concerns id ⟨.deposit batch :: (op.map Command.dispatch).toList, notices⟩ := by
  intro command member
  rcases List.mem_cons.mp member with rfl | started
  · exact key
  · obtain ⟨op, -, rfl⟩ := Option.map_eq_some_iff.mp (Option.mem_toList.mp started)
    trivial

theorem concerns_redemption {batch : RedemptionBatch} (key : batch.chain = id)
    (op : Option RemoteOp) (notices : List Notice) :
    Response.Concerns id ⟨.redemption batch :: (op.map Command.dispatch).toList, notices⟩ := by
  intro command member
  rcases List.mem_cons.mp member with rfl | started
  · exact key
  · obtain ⟨op, -, rfl⟩ := Option.map_eq_some_iff.mp (Option.mem_toList.mp started)
    trivial

/-- The batches one after the other.  What is in flight at the end is what the
moved batches still have in flight. -/
theorem advanceDeposits_passage (kept : b.WellKept) {batches : List DepositBatch}
    {moved : List (DepositBatch × Response)}
    (found : ∀ batch ∈ batches, b.deposit? chain.id batch.epoch = some batch)
    (ordered : InOrder DepositBatch.epoch batches) (known : b.chain? chain.id = some chain)
    (current : b.epoch? .delegation = some epoch)
    (advanced : batches.mapM (fun batch =>
      if batch.epoch < epoch then advanceDeposit? chain batch else some (batch, .empty)) =
        some moved) :
    Passage s (.asked (.startEpoch .delegation epoch)) b
        (Response.concat (moved.map Prod.snd)) ∧
      (Response.concat (moved.map Prod.snd)).Concerns chain.id ∧
      (b.applyAll (Response.concat (moved.map Prod.snd)).commands).chain? = b.chain? ∧
      (b.applyAll (Response.concat (moved.map Prod.snd)).commands).inFlight chain.id +
          totalWhere DepositBatch.inFlight DepositBatch.amount batches =
        b.inFlight chain.id + totalWhere DepositBatch.inFlight
          DepositBatch.amount (moved.map Prod.fst) := by
  induction batches generalizing b moved with
  | nil =>
      cases advanced
      exact ⟨.done, Response.concerns_empty, rfl, rfl⟩
  | cons batch batches ih =>
      rw [List.mapM_cons] at advanced
      simp only [Option.bind_eq_bind, Option.bind_eq_some_iff, Option.pure_def,
        Option.some.injEq] at advanced
      obtain ⟨⟨next, part⟩, stepped, later, rest, rfl⟩ := advanced
      have stored := found batch List.mem_cons_self
      obtain ⟨move, key, sameEpoch, change⟩ :=
        advanceDeposit?_move (s := s) kept stored known current stepped
      have ⟨below, restOrdered⟩ := List.pairwise_cons.mp ordered
      rcases change with ⟨rfl, nothing⟩ | ⟨op, written⟩
      · have concerns : part.Concerns chain.id := by
          intro command member
          rw [nothing] at member
          cases member
        obtain ⟨passage, others, chains, sums⟩ := ih kept
          (fun other member => found other (List.mem_cons_of_mem _ member)) restOrdered known
          current rest
        refine ⟨?_, Response.concerns_append concerns others, ?_, ?_⟩
        · exact .next move (by simpa [nothing] using passage)
        · simpa [nothing] using chains
        · simp only [List.map_cons, Response.concat_cons, Response.commands_append, nothing,
            List.nil_append, totalWhere_cons]
          omega
      · have concerns : part.Concerns chain.id := by
          have := concerns_deposit key op part.notices
          rwa [← written] at this
        have put : b.applyAll part.commands = b.putDeposit next := by
          rw [written, Books.applyAll_deposit]
        have stored' : b.deposit? next.chain next.epoch = some batch := by
          rw [key, sameEpoch]
          exact stored
        have change := kept.depositTotal_put DepositBatch.inFlight DepositBatch.amount next stored'
        have others : ∀ other ∈ batches,
            (b.putDeposit next).deposit? chain.id other.epoch = some other := by
          intro other member
          have := below other member
          have apart : other.epoch ≠ next.epoch := by
            rw [sameEpoch]
            exact Nat.ne_of_gt this
          rw [Books.deposit?_putDeposit, if_neg fun same => apart same.2]
          exact found other (List.mem_cons_of_mem _ member)
        obtain ⟨passage, concerned, chains, sums⟩ := ih (kept.putDeposit next) others restOrdered
          known current rest
        refine ⟨.next move (by rw [put]; exact passage),
          Response.concerns_append concerns concerned, ?_, ?_⟩
        · simpa [put] using chains
        · simp only [List.map_cons, Response.concat_cons, Response.commands_append,
            Books.applyAll_append, put, totalWhere_cons, Books.inFlight] at sums ⊢
          rw [key] at change
          omega

theorem collectRewards_passage (epoch : Epoch) (known : b.chain? chain.id = some chain) :
    Passage s (.asked (.startEpoch .delegation epoch)) b (collectRewards chain).2 ∧
      (collectRewards chain).2.Concerns chain.id ∧
      (collectRewards chain).1.id = chain.id ∧
      (b.applyAll (collectRewards chain).2.commands).chain? chain.id =
        some (collectRewards chain).1 ∧
      (b.applyAll (collectRewards chain).2.commands).deposits = b.deposits := by
  have dispatches (op : RemoteOp) : Response.Concerns chain.id ⟨[.dispatch op], []⟩ := by
    intro command member
    rw [List.mem_singleton.mp member]
    trivial
  unfold collectRewards
  split
  · exact ⟨.done, Response.concerns_empty, rfl, known, rfl⟩
  rename_i notClosed
  have bothOpen : chain.bothOpen = true := by simpa using notClosed
  split
  · exact ⟨.single (.requested known (.inl rfl) bothOpen), dispatches _, rfl, known, rfl⟩
  dsimp only
  split
  · exact ⟨.single (.requested known (.inr ⟨_, rfl⟩) bothOpen), dispatches _, rfl, known, rfl⟩
  split
  · rename_i held
    refine ⟨.single (.rewarded known (.collected held bothOpen) fun other => (ite_self _).symm),
      ?_, rfl, ?_, rfl⟩
    · intro command member
      rcases List.mem_cons.mp member with rfl | started
      · rfl
      · rw [List.mem_singleton.mp started]
        trivial
    · simp [moveRewards, Books.apply, Books.chain?_putChain]
  · exact ⟨.done, Response.concerns_empty, rfl, known, rfl⟩

theorem updateRate_passage (epoch : Epoch) (known : b.chain? chain.id = some chain) :
    Passage s (.asked (.startEpoch .delegation epoch)) b
        (updateRate chain (Width.clamp 128 (b.inFlight chain.id))
          (s.supply chain.derivativeDenom)) ∧
      (updateRate chain (Width.clamp 128 (b.inFlight chain.id))
        (s.supply chain.derivativeDenom)).Concerns chain.id := by
  unfold updateRate
  dsimp only
  split
  · rename_i rate priced
    split at priced
    · rename_i backed
      refine ⟨.single (.repriced known backed priced), ?_⟩
      intro command member
      rw [List.mem_singleton.mp member]
      rfl
    · cases priced
  · refine ⟨.single (.quiet fun _ => rfl), ?_⟩
    intro command member
    cases member

def opening (b : Books) (id : ChainId) (epoch : Epoch) : Response :=
  if (b.deposit? id epoch).isNone then ⟨[.deposit (.empty id epoch)], []⟩ else .empty

theorem opening_passage (kept : b.WellKept) (known : b.chain? id = some chain)
    (current : b.epoch? .delegation = some epoch) :
    Passage s (.asked (.startEpoch .delegation epoch)) b (opening b id epoch) ∧
      (opening b id epoch).Concerns id ∧
      (b.applyAll (opening b id epoch).commands).chain? = b.chain? ∧
      (b.applyAll (opening b id epoch).commands).epoch? = b.epoch? ∧
      (b.applyAll (opening b id epoch).commands).inFlight id = b.inFlight id ∧
      ∀ batch ∈ b.deposits id,
        (b.applyAll (opening b id epoch).commands).deposit? id batch.epoch = some batch := by
  unfold opening
  split
  · rename_i missing
    have absent : b.deposit? id epoch = none := by simpa using missing
    refine ⟨.single (.depositOpened known current absent), ?_, rfl, rfl, ?_, ?_⟩
    · intro command member
      rw [List.mem_singleton.mp member]
      rfl
    · have added := kept.depositTotal_put_new DepositBatch.inFlight DepositBatch.amount
        (.empty id epoch) absent
      have nothing : part DepositBatch.inFlight DepositBatch.amount
          (.empty id epoch) = 0 := rfl
      rw [nothing] at added
      exact added
    · intro batch member
      have stored := kept.deposit?_mem member
      have apart : batch.epoch ≠ epoch := by
        rintro rfl
        rw [stored] at absent
        cases absent
      simpa [Books.apply, Books.deposit?_putDeposit, DepositBatch.empty, apart] using stored
  · exact ⟨.done, Response.concerns_empty, rfl, rfl, rfl, fun _ => kept.deposit?_mem⟩

theorem advanceDeposits?_passage (kept : b.WellKept) (known : b.chain? chain.id = some chain)
    (current : b.epoch? .delegation = some epoch)
    (advanced : advanceDeposits? b.view s chain epoch = some r) :
    Passage s (.asked (.startEpoch .delegation epoch)) b r ∧ r.Concerns chain.id := by
  simp only [advanceDeposits?, Books.view, Option.bind_eq_bind, Option.bind_some,
    Option.bind_eq_some_iff, Option.pure_def, Option.some.injEq] at advanced
  obtain ⟨moved, each, rfl⟩ := advanced
  obtain ⟨opened, openedConcerns, chains, epochs, unchanged, stored⟩ :=
    opening_passage (s := s) kept known current
  obtain ⟨passed, passedConcerns, chains', sums⟩ := advanceDeposits_passage (s := s)
    (kept.applyAll _) (fun batch member => stored batch (List.mem_filter.mp member).1)
    ((kept.depositsInOrder chain.id).filter _) (chains ▸ known) (epochs ▸ current) each
  -- What the hub has summed up is what the books now have in flight.
  have flying : ((b.applyAll (opening b chain.id epoch).commands).applyAll
      (Response.concat (moved.map Prod.snd)).commands).inFlight chain.id =
        Width.total ((moved.filter fun pair => pair.1.status.inFlight).map
          fun pair => pair.1.amount) := by
    have whole : totalWhere DepositBatch.inFlight DepositBatch.amount (b.openDeposits chain.id) =
        b.inFlight chain.id :=
      b.openDeposits_total fun _ => DepositBatch.isOpen_of_inFlight
    have counted : Width.total ((moved.filter fun pair => pair.1.status.inFlight).map
        fun pair => pair.1.amount) = totalWhere DepositBatch.inFlight
          DepositBatch.amount (moved.map Prod.fst) := by
      simp [totalWhere, List.filter_map, Function.comp_def, DepositBatch.inFlight]
    rw [counted]
    simp only [Books.inFlight, Books.openDeposits] at whole unchanged sums ⊢
    omega
  have known' : ((b.applyAll (opening b chain.id epoch).commands).applyAll
      (Response.concat (moved.map Prod.snd)).commands).chain? chain.id = some chain := by
    rw [chains', chains]
    exact known
  obtain ⟨collected, collectedConcerns, sameId, rewritten, sameDeposits⟩ :=
    collectRewards_passage (s := s) epoch known'
  rw [← sameId] at rewritten
  obtain ⟨priced, pricedConcerns⟩ := updateRate_passage (s := s) epoch rewritten
  rw [sameId] at priced pricedConcerns
  simp only [Books.inFlight, Books.depositTotal, sameDeposits] at priced pricedConcerns flying
  rw [flying] at priced pricedConcerns
  refine ⟨?_, ?_⟩
  · refine ((opened.append passed).append ?_).append ?_
    · simpa using collected
    · simpa using priced
  · exact Response.concerns_append (Response.concerns_append
      (Response.concerns_append openedConcerns passedConcerns) collectedConcerns) pricedConcerns

/-! ## Redemptions -/

theorem advanceRedemption?_move {batch : RedemptionBatch}
    (found : b.redemption? chain.id batch.epoch = some batch)
    (known : b.chain? chain.id = some chain) (current : b.epoch? .undelegation = some epoch)
    (earlier : batch.epoch < epoch) (advanced : advanceRedemption? s.now chain batch = some r) :
    Move s b (.asked (.startEpoch .undelegation epoch)) r ∧
      (r.commands = [] ∨ ∃ (status : RedemptionStatus) (op : Option RemoteOp),
        r.commands =
          .redemption { batch with status } :: (op.map Command.dispatch).toList) := by
  simp only [advanceRedemption?, Option.bind_eq_bind, Option.bind_eq_some_iff] at advanced
  obtain ⟨step?, ready, advanced⟩ := advanced
  cases step? with
  | none =>
      cases advanced
      exact ⟨.quiet Notice.plain_nil, .inl rfl⟩
  | some step =>
      obtain ⟨op, status⟩ := step
      cases closed : chain.delegateAddress.isNone with
      | true =>
          simp only [closed, if_true, Option.pure_def, Option.some.injEq] at advanced
          subst advanced
          exact ⟨.quiet fun _ => rfl, .inl rfl⟩
      | false =>
          simp only [closed, Bool.false_eq_true, if_false, Option.pure_def,
            Option.some.injEq] at advanced
          subst advanced
          have isOpen : chain.delegateAddress.isSome = true := by
            simpa [Option.isSome_iff_ne_none] using closed
          refine ⟨.redemptionMoved found ?_ (Notice.plain_redemption _),
            .inr ⟨status, some op, rfl⟩⟩
          unfold nextRedemptionStep? at ready
          dsimp only at ready
          split at ready
          · rename_i pending
            simp only [Option.bind_eq_bind, Option.bind_eq_some_iff, Option.pure_def,
              Option.some.injEq, Prod.mk.injEq] at ready
            obtain ⟨shares, shared, rfl, rfl⟩ := ready
            exact .started current earlier (.inl pending) known isOpen shared
          · rename_i failed
            simp only [Option.bind_eq_bind, Option.bind_eq_some_iff, Option.pure_def,
              Option.some.injEq, Prod.mk.injEq] at ready
            obtain ⟨shares, shared, rfl, rfl⟩ := ready
            exact .started current earlier (.inr failed) known isOpen shared
          · rename_i waiting
            split at ready
            · rename_i ripe
              cases ready
              exact .withdrawn current earlier (.inl ⟨waiting, ripe⟩) known isOpen
            · cases ready
          · rename_i failed
            cases ready
            exact .withdrawn current earlier (.inr failed) known isOpen
          · cases ready

theorem advanceRedemptions_passage (kept : b.WellKept) {batches : List RedemptionBatch}
    {parts : List Response}
    (found : ∀ batch ∈ batches, b.redemption? chain.id batch.epoch = some batch)
    (ordered : InOrder RedemptionBatch.epoch batches) (known : b.chain? chain.id = some chain)
    (current : b.epoch? .undelegation = some epoch)
    (earlier : ∀ batch ∈ batches, batch.epoch < epoch)
    (advanced : batches.mapM (fun batch => advanceRedemption? s.now chain batch) = some parts) :
    Passage s (.asked (.startEpoch .undelegation epoch)) b (Response.concat parts) ∧
      (Response.concat parts).Concerns chain.id := by
  induction batches generalizing b parts with
  | nil =>
      cases advanced
      exact ⟨.done, Response.concerns_empty⟩
  | cons batch batches ih =>
      rw [List.mapM_cons] at advanced
      simp only [Option.bind_eq_bind, Option.bind_eq_some_iff, Option.pure_def,
        Option.some.injEq] at advanced
      obtain ⟨first, stepped, later, rest, rfl⟩ := advanced
      have stored := found batch List.mem_cons_self
      have key : batch.chain = chain.id := kept.redemptionKey (Books.mem_redemptions stored).1
      obtain ⟨move, change⟩ := advanceRedemption?_move stored known current
        (earlier batch List.mem_cons_self) stepped
      have ⟨below, restOrdered⟩ := List.pairwise_cons.mp ordered
      have restEarlier : ∀ other ∈ batches, other.epoch < epoch := fun other member =>
        earlier other (List.mem_cons_of_mem _ member)
      rcases change with nothing | ⟨status, op, written⟩
      · have concerns : first.Concerns chain.id := by
          intro command member
          rw [nothing] at member
          cases member
        obtain ⟨passage, others⟩ := ih kept
          (fun other member => found other (List.mem_cons_of_mem _ member)) restOrdered known
          current restEarlier rest
        exact ⟨.next move (by simpa [nothing] using passage),
          Response.concerns_append concerns others⟩
      · have concerns : first.Concerns chain.id := by
          have := concerns_redemption (show { batch with status }.chain = chain.id from key) op
            first.notices
          rwa [← written] at this
        have put : b.applyAll first.commands = b.putRedemption { batch with status } := by
          rw [written, Books.applyAll_redemption]
        have others : ∀ other ∈ batches, (b.putRedemption { batch with status }).redemption?
            chain.id other.epoch = some other := by
          intro other member
          have apart : other.epoch ≠ batch.epoch := Nat.ne_of_gt (below other member)
          rw [Books.redemption?_putRedemption, if_neg fun same => apart same.2]
          exact found other (List.mem_cons_of_mem _ member)
        obtain ⟨passage, concerned⟩ := ih (kept.putRedemption _) others restOrdered known current
          restEarlier rest
        exact ⟨.next move (by rw [put]; exact passage),
          Response.concerns_append concerns concerned⟩

theorem advanceRedemptions?_passage (kept : b.WellKept) (known : b.chain? chain.id = some chain)
    (current : b.epoch? .undelegation = some epoch)
    (advanced : advanceRedemptions? b.view s chain epoch = some r) :
    Passage s (.asked (.startEpoch .undelegation epoch)) b r ∧ r.Concerns chain.id := by
  simp only [advanceRedemptions?, Books.view, Option.bind_eq_bind, Option.bind_some,
    Option.bind_eq_some_iff, Option.pure_def, Option.some.injEq] at advanced
  obtain ⟨parts, each, rfl⟩ := advanced
  refine advanceRedemptions_passage kept (fun batch member => ?_) ?_ known current
    (fun batch member => by simpa using (List.mem_filter.mp member).2) each
  · exact kept.redemption?_mem (List.mem_filter.mp (List.mem_filter.mp member).1).1
  · exact ((kept.redemptionsInOrder chain.id).filter _).filter _

/-! ## All chains -/

theorem advance?_passage {kind : EpochKind} (kept : b.WellKept)
    (known : b.chain? chain.id = some chain) (current : b.epoch? kind = some epoch)
    (advanced : advance? b.view s kind chain epoch = some r) :
    Passage s (.asked (.startEpoch kind epoch)) b r ∧ r.Concerns chain.id := by
  cases kind with
  | delegation => exact advanceDeposits?_passage kept known current advanced
  | undelegation => exact advanceRedemptions?_passage kept known current advanced

theorem advance?_agree {kind : EpochKind} (agree : b.Agree c chain.id) :
    advance? c.view s kind chain epoch = advance? b.view s kind chain epoch := by
  cases kind with
  | delegation =>
      simp only [advance?, advanceDeposits?, Books.view, Books.deposit?, Books.openDeposits,
        agree.deposits]
  | undelegation =>
      simp only [advance?, advanceRedemptions?, Books.view, Books.openRedemptions,
        agree.redemptions]

/-- The chains one after the other, from books that agree with the books found
for the chains still to come. -/
theorem advanceChains_passage {kind : EpochKind} {ids : List ChainId} {parts : List Response}
    (kept : b.WellKept) (keptNow : c.WellKept) (once : ids.Nodup)
    (agree : ∀ id ∈ ids, b.Agree c id) (current : c.epoch? kind = some epoch)
    (advanced : ids.mapM (advanceChain b.view s kind epoch) = .ok parts) :
    Passage s (.asked (.startEpoch kind epoch)) c (Response.concat parts) := by
  induction ids generalizing c parts with
  | nil =>
      cases advanced
      exact .done
  | cons id ids ih =>
      rw [List.mapM_cons] at advanced
      simp only [Attempt.bind_eq_ok, Attempt.pure_eq_ok] at advanced
      obtain ⟨first, advancing, later, rest, rfl⟩ := advanced
      simp only [advanceChain, Attempt.bind_eq_ok, Books.view_chain,
        Attempt.promised_eq_ok] at advancing
      obtain ⟨chain, known, advancing⟩ := advancing
      obtain rfl := kept.chainKey known
      have same := agree chain.id List.mem_cons_self
      rw [← advance?_agree same] at advancing
      obtain ⟨passage, concerns⟩ := advance?_passage keptNow (same.chain.trans known) current
        advancing
      obtain ⟨fresh, restOnce⟩ := List.nodup_cons.mp once
      refine passage.append (ih (keptNow.applyAll _) restOnce (fun other member => ?_) ?_ rest)
      · have apart : other ≠ chain.id := fun equal => fresh (equal ▸ member)
        exact (agree other (List.mem_cons_of_mem _ member)).trans
          (Books.applyAll_agree concerns apart)
      · rw [Books.applyAll_epoch? concerns]
        exact current

theorem advanceAll_passage {kind : EpochKind} (kept : b.WellKept)
    (later : ∀ current, b.epoch? kind = some current → current < epoch)
    (granted : advanceAll b.view s kind epoch = .ok r) :
    Passage s (.asked (.startEpoch kind epoch)) b r := by
  simp only [advanceAll, Attempt.bind_eq_ok, Attempt.promised_eq_ok, Attempt.pure_eq_ok] at granted
  obtain ⟨ids, listed, parts, each, rfl⟩ := granted
  have listed : b.chainIds = ids := by simpa [Books.view] using listed
  subst listed
  refine .next (.epochStarted later) ?_
  refine advanceChains_passage kept (kept.applyAll _) kept.listedOnce (fun id _ => ?_) ?_ each
  · exact ⟨rfl, rfl, rfl⟩
  · simp [Books.apply]

theorem startEpoch_passage {kind : EpochKind} (kept : b.WellKept)
    (granted : startEpoch b.view s kind epoch = .ok r) :
    Passage s (.asked (.startEpoch kind epoch)) b r := by
  simp only [startEpoch, Attempt.bind_eq_ok, Attempt.promised_eq_ok] at granted
  obtain ⟨current, read, granted⟩ := granted
  have read : b.epoch? kind = current := by simpa [Books.view] using read
  cases current with
  | none =>
      refine advanceAll_passage kept (fun started found => ?_) granted
      rw [read] at found
      cases found
  | some current =>
      dsimp only at granted
      split at granted
      · cases granted
        exact .done
      split at granted
      · exact absurd granted Attempt.refuse_ne_ok
      · rename_i notSame notEarlier
        refine advanceAll_passage kept (fun started found => ?_) granted
        rw [read] at found
        cases found
        lia

end Hub

end LiquidStaking
