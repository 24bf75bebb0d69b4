import LiquidStaking.Proofs.Claims

/-!
# Every claim is paid once

A claim waits as long as its batch is not done, can then be claimed, and is complete
once it was paid; nothing writes it again.  So the payouts of a run, kept beside it,
are of different claims, each of what the claim is about and to its owner.
-/

namespace LiquidStaking

variable {s : Surroundings} {b c : Books} {cause : Cause} {r : Response} {h : HubState}

/-! ## Claims and the end of their batch -/

namespace Books

structure Freed (b : Books) : Prop where
  free : ∀ {key claim batch}, b.claim? key = some claim →
    b.redemption? claim.chain claim.epoch = some batch → batch.status = .done →
    claim.status ≠ .pending

namespace Freed

theorem empty : Freed .empty where
  free := nofun

theorem congr (freed : b.Freed) (claims : c.claim? = b.claim?)
    (redemptions : c.redemptions = b.redemptions) : c.Freed where
  free read stored done := by
    rw [claims] at read
    rw [redemption?, redemptions] at stored
    exact freed.free read stored done

theorem putRedemption (freed : b.Freed) (record : RedemptionBatch)
    (unfinished : record.status ≠ .done) : (b.putRedemption record).Freed where
  free read stored done := by
    rw [redemption?_putRedemption] at stored
    split at stored
    · cases stored
      exact absurd done unfinished
    · exact freed.free read stored done

theorem putClaim (freed : b.Freed) (record : Claim)
    (free : ∀ batch, b.redemption? record.chain record.epoch = some batch →
      batch.status = .done → record.status ≠ .pending) : (b.putClaim record).Freed where
  free {key claim batch} read stored done := by
    rw [claim?_putClaim] at read
    split at read
    · cases read
      exact free batch stored done
    · exact freed.free read stored done

theorem released (kept : b.WellKept) (recorded : b.Recorded) (freed : b.Freed) {id : ChainId}
    {batch : RedemptionBatch} (found : b.redemption? id batch.epoch = some batch) :
    ((b.release batch.members).putRedemption { batch with status := .done }).Freed where
  free {key claim batch'} read stored done := by
    rw [claim?_putRedemption, kept.claim?_release] at read
    rw [redemption?_putRedemption, redemption?, redemptions_release] at stored
    split at read
    · obtain ⟨old, -, rfl⟩ := Option.map_eq_some_iff.mp read
      simp
    · rename_i unlisted
      split at stored
      · rename_i own
        obtain ⟨-, -, batch'', stored'', listed, -⟩ := recorded.joined read
        obtain rfl := kept.redemptionKey (mem_redemptions found).1
        rw [own.1, own.2] at stored''
        cases found.symm.trans stored''
        exact absurd (kept.claimKey read ▸ listed) unlisted
      · exact freed.free read stored done

end Freed

end Books

theorem RedemptionEdge.unfinished {id : ChainId} {batch : RedemptionBatch}
    {next : RedemptionStatus} {op : Option RemoteOp}
    (edge : RedemptionEdge s b id batch cause next op) : next ≠ .done := by
  cases edge <;> nofun

theorem Move.freed (kept : b.WellKept) (orderly : b.Orderly) (recorded : b.Recorded)
    (freed : b.Freed) (move : Move s b cause r) : (b.applyAll r.commands).Freed := by
  cases move with
  | @redeemed id chain epoch batch amount owed owner known current fresh positive priced
      worthwhile covered found burnedFits redeemableFits =>
      obtain ⟨rfl, rfl, pending, -⟩ := orderly.collecting_redemption kept current found
      generalize claimId batch.chain batch.epoch owner = new
      have unfinished : (batch.joining amount owed new).status ≠ .done := by
        simp [RedemptionBatch.joining, pending]
      refine (freed.putRedemption _ unfinished).putClaim _ fun batch' stored done => ?_
      have own : (b.putRedemption (batch.joining amount owed new)).redemption? batch.chain
          batch.epoch = some (batch.joining amount owed new) := by
        simp [Books.redemption?_putRedemption, RedemptionBatch.joining]
      cases own.symm.trans stored
      exact absurd done unfinished
  | redemptionMoved found edge plain =>
      rw [Books.applyAll_redemption]
      exact freed.putRedemption _ edge.unfinished
  | @unbonded id chain batch shares total completion receipts notices found awaited known summed
      due told =>
      have staked : (b.putChain (chain.undelegating receipts shares total)).Freed :=
        freed.congr rfl rfl
      exact staked.putRedemption { batch with completion := some completion, status := .waiting }
        (by simp)
  | released found awaited plain =>
      rw [Books.applyAll_released]
      exact .released kept recorded freed found
  | @paid id chain epoch owner claim known found claimable covered =>
      exact freed.putClaim { claim with status := .complete } fun _ _ _ => by simp
  | revised known edge plain =>
      rw [Books.applyAll_chain]
      exact freed.congr rfl rfl
  | rewarded known edge told =>
      rw [Books.applyAll_chain]
      exact freed.congr rfl rfl
  | depositMoved found edge plain =>
      rw [Books.applyAll_deposit]
      exact freed.congr rfl rfl
  | registered | requested | repriced | epochStarted | deposited | depositOpened | delegated
  | reinvested | quiet | stale | unanswered => exact freed.congr rfl rfl

theorem Move.complete_kept (kept : b.WellKept) (recorded : b.Recorded)
    (move : Move s b cause r) {key : String} {claim : Claim}
    (found : b.claim? key = some claim) (complete : claim.status = .complete) :
    (b.applyAll r.commands).claim? key = some claim := by
  cases move with
  | @redeemed id chain epoch batch amount owed owner known current fresh positive priced
      worthwhile covered found' burnedFits redeemableFits =>
      have other : key ≠ claimId id epoch owner := by
        rintro rfl
        cases fresh.symm.trans found
      exact (if_neg other).trans found
  | @released id batch amount receipts notices found' awaited plain =>
      obtain rfl := kept.redemptionKey (Books.mem_redemptions found').1
      have other : key ∉ batch.members := by
        intro listed
        obtain ⟨claim', held, pending⟩ :=
          recorded.member_waits found' (by rw [awaited]; nofun) listed
        cases found.symm.trans held
        cases complete.symm.trans pending
      rw [Books.applyAll_released, Books.claim?_putRedemption, kept.claim?_release, if_neg other]
      exact found
  | @paid id chain epoch owner claim' known found' claimable covered =>
      have other : key ≠ claim'.id := by
        rintro rfl
        rw [kept.claimKey found', found'] at found
        cases found
        cases complete.symm.trans claimable
      exact (if_neg other).trans found
  | revised known edge plain => rwa [Books.applyAll_chain]
  | rewarded known edge told => rwa [Books.applyAll_chain]
  | depositMoved found' edge plain => rwa [Books.applyAll_deposit]
  | redemptionMoved found' edge plain => rwa [Books.applyAll_redemption]
  | registered | requested | repriced | epochStarted | deposited | depositOpened | delegated
  | reinvested | unbonded | quiet | stale | unanswered => exact found

/-! ## Payouts -/

/-- Tokens sent by the hub, and the claim that was asked for then, if one was. -/
structure Payout where
  claim? : Option String
  denom : Denom
  amount : Amount
  recipient : Address
  deriving DecidableEq, Repr

def Cause.claim? : Cause → Option String
  | .asked (.payClaim owner epoch chain) => some (claimId chain epoch owner)
  | _ => none

def Command.payout? (cause : Cause) : Command → Option Payout
  | .token (.send denom amount recipient) => some ⟨cause.claim?, denom, amount, recipient⟩
  | _ => none

def Claim.payout (claim : Claim) : Payout := ⟨some claim.id, claim.denom, claim.amount, claim.owner⟩

def Response.payouts (cause : Cause) (r : Response) : List Payout :=
  r.commands.filterMap (Command.payout? cause)

@[simp] theorem Response.payouts_append (first second : Response) :
    (first ++ second).payouts cause = first.payouts cause ++ second.payouts cause :=
  List.filterMap_append

def HubState.payouts (h : HubState) (step : Step) : List Payout :=
  (h.occurrence? step).elim [] fun (cause, r) => r.payouts cause

def Payout.after (steps : List Step) : List Payout :=
  (steps.foldl (fun (state : HubState × List Payout) step =>
    (state.1.step step, state.2 ++ state.1.payouts step)) (.initial, [])).2

theorem Payout.after_append (steps : List Step) (step : Step) :
    Payout.after (steps ++ [step]) =
      Payout.after steps ++ (HubState.after steps).payouts step := by
  simp only [Payout.after, List.foldl_append, List.foldl_cons, List.foldl_nil,
    HubState.foldl_beside fun payouts h step => payouts ++ h.payouts step]
  rfl

theorem Response.Tokenless.payouts (tokenless : r.Tokenless) : r.payouts cause = [] := by
  refine List.filterMap_eq_nil_iff.mpr fun command member => ?_
  have plain := tokenless command member
  cases command with
  | token order => cases plain
  | _ => rfl

/-- What a move pays is a claim that can be claimed, in full and to its owner, and then
the claim is complete. -/
theorem Move.payouts (kept : b.WellKept) (move : Move s b cause r) :
    (∀ teller, r.payouts teller = []) ∨ ∃ claim, cause.claim? = some claim.id ∧
      b.claim? claim.id = some claim ∧ claim.status = .claimable ∧
      r.payouts cause = [claim.payout] ∧
      (b.applyAll r.commands).claim? claim.id = some { claim with status := .complete } := by
  cases move with
  | @paid id chain epoch owner claim known found claimable covered =>
      have key := kept.claimKey found
      rw [← key] at found
      have asked : (Cause.asked (.payClaim owner epoch id)).claim? = some claim.id := by
        rw [key]
        rfl
      have sends : Response.payouts (.asked (.payClaim owner epoch id))
          ⟨[.claim { claim with status := .complete },
            .token (.send claim.denom claim.amount claim.owner)], []⟩ = [claim.payout] := by
        rw [Claim.payout, ← asked]
        rfl
      exact .inr ⟨claim, asked, found, claimable, sends, if_pos rfl⟩
  | revised known edge plain => exact .inl fun _ => (Response.Tokenless.chain _ _ _).payouts
  | rewarded known edge told => exact .inl fun _ => (Response.Tokenless.chain _ _ _).payouts
  | depositMoved found edge plain =>
      exact .inl fun _ => (Response.Tokenless.deposit _ _ _).payouts
  | redemptionMoved found edge plain =>
      exact .inl fun _ => (Response.Tokenless.redemption _ _ _).payouts
  | released found awaited plain =>
      exact .inl fun _ => (Response.Tokenless.released _ _ _).payouts
  | registered | requested | repriced | epochStarted | deposited | depositOpened | delegated
  | reinvested | redeemed | unbonded | quiet | stale | unanswered => exact .inl fun _ => rfl

theorem Move.unpaid (kept : b.WellKept) (unasked : cause.claim? = none)
    (move : Move s b cause r) (teller : Cause) : r.payouts teller = [] := by
  rcases move.payouts kept with nothing | ⟨claim, asked, -⟩
  · exact nothing teller
  · cases unasked.symm.trans asked

theorem Passage.unpaid (kept : b.WellKept) (unasked : cause.claim? = none)
    (passage : Passage s cause b r) (teller : Cause) : r.payouts teller = [] := by
  induction passage with
  | done => rfl
  | next move later ih =>
      rw [Response.payouts_append, move.unpaid kept unasked, ih (kept.applyAll _), List.nil_append]

theorem Course.payouts (kept : b.WellKept) (course : Course s b cause r) :
    r.payouts cause = [] ∨ ∃ claim, b.claim? claim.id = some claim ∧
      claim.status = .claimable ∧ r.payouts cause = [claim.payout] ∧
      (b.applyAll r.commands).claim? claim.id = some { claim with status := .complete } := by
  cases course with
  | single move =>
      rcases move.payouts kept with nothing | ⟨claim, -, paid⟩
      · exact .inl (nothing cause)
      · exact .inr ⟨claim, paid⟩
  | closing move closing =>
      refine .inl ?_
      rw [Response.payouts_append, move.unpaid kept rfl, closing.unpaid (kept.applyAll _) rfl,
        List.nil_append]
  | passing passage => exact .inl (passage.unpaid kept rfl _)

/-! ## Runs -/

namespace HubState

/-- What claims and batches know of each other, throughout a run. -/
structure Reconciled (h : HubState) : Prop where
  sound : h.Sound
  recorded : h.books.Recorded
  freed : h.books.Freed

namespace Reconciled

theorem move {rest : List RemoteOp} (reconciled : h.Reconciled) (move : Move s h.books cause r)
    (takes : cause.Takes h.outstanding rest) : (commit ⟨h.books, rest⟩ r).Reconciled where
  sound := reconciled.sound.move move takes
  recorded := move.recorded reconciled.sound.kept reconciled.sound.orderly reconciled.recorded
  freed := move.freed reconciled.sound.kept reconciled.sound.orderly reconciled.recorded
    reconciled.freed

theorem pending_iff (reconciled : h.Reconciled) {key : String} {claim : Claim}
    {batch : RedemptionBatch} (found : h.books.claim? key = some claim)
    (stored : h.books.redemption? claim.chain claim.epoch = some batch) :
    claim.status = .pending ↔ batch.status ≠ .done := by
  obtain ⟨-, -, batch', stored', -, waiting⟩ := reconciled.recorded.joined found
  cases stored.symm.trans stored'
  exact ⟨fun pending done => reconciled.freed.free found stored done pending, waiting⟩

end Reconciled

theorem after_reconciled (steps : List Step) : (after steps).Reconciled :=
  after_preserves (P := fun _ h => h.Reconciled) ⟨.initial, .empty, .empty⟩
    (fun _ _ _ _ _ _ _ reconciled move takes _ => reconciled.move move takes) steps

theorem step_complete_kept (reconciled : h.Reconciled) (step : Step) {key : String} {claim : Claim}
    (found : h.books.claim? key = some claim) (complete : claim.status = .complete) :
    (h.step step).books.claim? key = some claim :=
  (step_preserves (P := fun _ h' => h'.Reconciled ∧ h'.books.claim? key = some claim) (t := .zero)
    (fun _ holds move takes _ => ⟨holds.1.move move takes,
      move.complete_kept holds.1.sound.kept holds.1.recorded holds.2 complete⟩)
    reconciled.sound.kept ⟨reconciled, found⟩).2

theorem step_payouts (kept : h.books.WellKept) (step : Step) :
    h.payouts step = [] ∨ ∃ claim, h.books.claim? claim.id = some claim ∧
      claim.status = .claimable ∧ h.payouts step = [claim.payout] ∧
      (h.step step).books.claim? claim.id = some { claim with status := .complete } := by
  cases occurs : h.occurrence? step with
  | none => exact .inl (by rw [payouts, occurs]; rfl)
  | some occurrence =>
      obtain ⟨cause, r⟩ := occurrence
      have ordered : h.payouts step = r.payouts cause := by rw [payouts, occurs]; rfl
      rw [ordered, h.step_of_some occurs]
      exact (h.occurrence?_course kept occurs).payouts kept

/-- The payouts are of different claims, and every claim that was paid is complete. -/
structure Disbursed (payouts : List Payout) (h : HubState) : Prop where
  once : (payouts.map Payout.claim?).Nodup
  complete : ∀ payout ∈ payouts, ∃ claim, h.books.claim? claim.id = some claim ∧
    claim.status = .complete ∧ payout = claim.payout

theorem Disbursed.step {payouts : List Payout} (disbursed : Disbursed payouts h)
    (reconciled : h.Reconciled) (step : Step) :
    Disbursed (payouts ++ h.payouts step) (h.step step) := by
  have earlier : ∀ payout ∈ payouts, ∃ claim, (h.step step).books.claim? claim.id = some claim ∧
      claim.status = .complete ∧ payout = claim.payout := by
    intro payout listed
    obtain ⟨claim, found, complete, equal⟩ := disbursed.complete payout listed
    exact ⟨claim, step_complete_kept reconciled step found complete, complete, equal⟩
  rcases step_payouts reconciled.sound.kept step with nothing | ⟨claim, found, claimable, paid, now⟩
  · rw [nothing, List.append_nil]
    exact ⟨disbursed.once, earlier⟩
  · rw [paid]
    refine ⟨?_, fun payout listed => ?_⟩
    · -- What was paid before is complete, and this claim is not.
      have fresh : some claim.id ∉ payouts.map Payout.claim? := by
        intro listed
        obtain ⟨payout, before, same⟩ := List.mem_map.mp listed
        obtain ⟨claim', found', complete, rfl⟩ := disbursed.complete payout before
        rw [Option.some.inj same, found] at found'
        cases found'
        cases claimable.symm.trans complete
      rw [List.map_append]
      refine List.nodup_append.mpr ⟨disbursed.once, List.pairwise_singleton _ _, ?_⟩
      rintro key before _ last rfl
      obtain rfl : key = some claim.id := List.mem_singleton.mp last
      exact fresh before
    · rcases List.mem_append.mp listed with before | last
      · exact earlier payout before
      · rw [List.mem_singleton.mp last]
        exact ⟨{ claim with status := .complete }, now, rfl, rfl⟩

theorem after_disbursed (steps : List Step) : Disbursed (Payout.after steps) (after steps) := by
  induction steps using List.reverseRecOn with
  | nil => exact ⟨List.nodup_nil, nofun⟩
  | append_singleton steps step ih =>
      rw [Payout.after_append, after_append]
      exact ih.step (after_reconciled steps) step

/-- The members of a batch are claims of its chain and epoch, each once, that make up
what it redeems and wait exactly as long as it is not done; every claim is a member
of one batch.  Payouts are of different claims, each of what the claim is about and
to its owner, and only of claims whose batch was done before. -/
theorem claims_paid_once (steps : List Step) :
    (∀ id, ∀ batch ∈ (after steps).books.redemptions id,
      batch.members.Nodup ∧
      batch.overMembers (after steps).books.claimed = batch.redeemable ∧
      ∀ key ∈ batch.members, ∃ claim, (after steps).books.claim? key = some claim ∧
        claim.chain = id ∧ claim.epoch = batch.epoch ∧
        (claim.status = .pending ↔ batch.status ≠ .done)) ∧
    (∀ key claim, (after steps).books.claim? key = some claim →
      ∃ id, ∃ batch ∈ (after steps).books.redemptions id, key ∈ batch.members ∧
        ∀ id', ∀ other ∈ (after steps).books.redemptions id', key ∈ other.members →
          id' = id ∧ other = batch) ∧
    ((Payout.after steps).map Payout.claim?).Nodup ∧
    (∀ payout ∈ Payout.after steps, ∃ key claim, (after steps).books.claim? key = some claim ∧
      claim.status = .complete ∧
      payout = ⟨some key, claim.denom, claim.amount, claim.owner⟩) ∧
    ∀ step, ∀ payout ∈ (after steps).payouts step, ∃ key claim batch,
      payout = ⟨some key, claim.denom, claim.amount, claim.owner⟩ ∧
      (after steps).books.claim? key = some claim ∧
      (after steps).books.redemption? claim.chain claim.epoch = some batch ∧
      key ∈ batch.members ∧ batch.status = .done := by
  have reconciled := after_reconciled steps
  have kept := reconciled.sound.kept
  have recorded := reconciled.recorded
  have disbursed := after_disbursed steps
  refine ⟨fun id batch inBatches => ?_, fun key claim found => ?_, disbursed.once,
    fun payout listed => ?_, fun step payout listed => ?_⟩
  · obtain ⟨member, once, sums⟩ := recorded.enrolled inBatches
    refine ⟨once, sums, fun key listed => ?_⟩
    obtain ⟨claim, found, chain, epoch⟩ := member key listed
    rw [kept.redemptionKey inBatches] at chain
    have stored := kept.redemption?_mem inBatches
    rw [← chain, ← epoch] at stored
    exact ⟨claim, found, chain, epoch, reconciled.pending_iff found stored⟩
  · obtain ⟨-, -, batch, stored, listed, -⟩ := recorded.joined found
    rw [kept.claimKey found] at listed
    have inBatches := (Books.mem_redemptions stored).1
    exact ⟨claim.chain, batch, inBatches, listed, fun id' other inOther listed' =>
      recorded.one_batch kept inBatches inOther listed listed'⟩
  · obtain ⟨claim, found, complete, rfl⟩ := disbursed.complete payout listed
    exact ⟨claim.id, claim, found, complete, rfl⟩
  · rcases step_payouts kept step with nothing | ⟨claim, found, claimable, paid, -⟩
    · rw [nothing] at listed
      cases listed
    · rw [paid, List.mem_singleton] at listed
      obtain ⟨-, -, batch, stored, member, -⟩ := recorded.joined found
      refine ⟨claim.id, claim, batch, listed, found, stored, member, ?_⟩
      by_contra unfinished
      cases claimable.symm.trans ((reconciled.pending_iff found stored).mpr unfinished)

/-- A claim is paid once, though its owner asks twice. -/
example :
    let matured : Surroundings := { Surroundings.sample 600 400 with now := 2000000 }
    Payout.after (Step.sampleUnbonding ++
      [.perform matured (.startEpoch .undelegation 3), .acknowledge matured 0 (.success []),
        .perform matured (.payClaim "carol" 1 "cosmoshub"),
        .perform matured (.payClaim "carol" 1 "cosmoshub")]) =
      [⟨some "cosmoshub/1/carol", "ibc/uatom", 400, "carol"⟩] := by
  decide +kernel

end HubState

end LiquidStaking
