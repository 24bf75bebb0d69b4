import LiquidStaking.Proofs.Escrow
import LiquidStaking.Proofs.Payouts
import Mathlib.Data.List.Nodup

/-!
# Every voucher is accounted for

The vouchers of a chain that the hub holds, with those on their way to it, are
the deposits in escrow and the claims it has to pay.  So once everything has
arrived, nobody who can claim is turned away.
-/

namespace LiquidStaking

variable {s : Surroundings} {b : Books} {cause : Cause} {r : Response} {id : ChainId}
  {epoch : Epoch} {denom : Denom} {t : Tally} {h : HubState}

/-! ## Balance and transit -/

namespace Tally

/-- The vouchers held for a chain, once `arrived` of what was withdrawn has come in. -/
def balance (t : Tally) (id : ChainId) (denom : Denom) (arrived : Nat) : Int :=
  t.deposited id + t.returned id + arrived - t.transferred id - t.sent denom

def inTransit (t : Tally) (id : ChainId) (arrived : Nat) : Int := t.withdrawn id - arrived

theorem withdrawn_le_observe (t : Tally) (h : HubState) (step : Step) (id : ChainId) :
    t.withdrawn id ≤ (t.observe h step).withdrawn id := by
  unfold observe
  split
  · exact Nat.le_add_right _ _
  · exact Nat.le_refl _

end Tally

/-- Between the steps of a run, vouchers in transit may arrive in any portions. -/
inductive Delivered (id : ChainId) : List Step → Nat → Prop
  | start : Delivered id [] 0
  | step {steps : List Step} {arrived : Nat} (earlier : Delivered id steps arrived)
      (step : Step) : Delivered id (steps ++ [step]) arrived
  | arrival {steps : List Step} {arrived amount : Nat} (earlier : Delivered id steps arrived)
      (underway : (amount : Int) ≤ (Tally.after steps).inTransit id arrived) :
      Delivered id steps (arrived + amount)

theorem Delivered.inTransit_nonneg {steps : List Step} {arrived : Nat}
    (delivered : Delivered id steps arrived) : 0 ≤ (Tally.after steps).inTransit id arrived := by
  induction delivered with
  | start => exact Int.le_refl 0
  | @step steps arrived earlier step ih =>
      have more := (Tally.after steps).withdrawn_le_observe (HubState.after steps) step id
      rw [← Tally.after_append] at more
      simp only [Tally.inTransit] at ih ⊢
      omega
  | arrival earlier underway ih =>
      simp only [Tally.inTransit] at underway ⊢
      omega

theorem Delivered.nothing (steps : List Step) (id : ChainId) : Delivered id steps 0 := by
  induction steps using List.reverseRecOn with
  | nil => exact .start
  | append_singleton steps step ih => exact ih.step step

/-! ## One move -/

theorem Books.Vouches.before {c : Books} (vouches : c.Vouches id denom) (follows : c.Follows b) :
    b.Vouches id denom := by
  intro other chain known
  obtain ⟨chain', known', same, -⟩ := follows.chain known
  rw [← same]
  exact vouches other chain' known'

/-- Whatever is under way has its batch waiting for it, claims and batches agree,
and every voucher that came in and did not go out again is in escrow or claimable. -/
structure HubState.Custody (t : Tally) (h : HubState) (id : ChainId) (denom : Denom) : Prop where
  sound : h.Sound
  funded : h.Funded t id
  recorded : h.books.Recorded
  transfers : ∀ epoch, RemoteOp.total (RemoteOp.transfers id epoch) h.outstanding ≤
    h.books.transferring id epoch
  withdrawals : ∀ epoch, RemoteOp.total (RemoteOp.withdraws id epoch) h.outstanding ≤
    h.books.withdrawing id epoch
  accounted : t.paidIn id < Width.limit 128 → h.books.Vouches id denom →
    t.deposited id + t.returned id + t.withdrawn id =
      t.transferred id + t.sent denom + h.books.escrow id + h.books.claimable id

theorem HubState.Custody.initial : HubState.Custody .zero .initial id denom where
  sound := .initial
  funded := Nat.le_refl 0
  recorded := .empty
  transfers _ := Nat.le_refl 0
  withdrawals _ := Nat.le_refl 0
  accounted _ _ := rfl

theorem HubState.Custody.move {rest : List RemoteOp} (custody : h.Custody t id denom)
    (move : Move s h.books cause r) (takes : cause.Takes h.outstanding rest)
    (keepsTransfers : cause.KeepsTransfers h.books id)
    (keepsWithdrawals : cause.KeepsWithdrawals h.books id) :
    (HubState.commit ⟨h.books, rest⟩ r).Custody (t.record cause r) id denom := by
  have ⟨sound, funded, recorded, transfers, withdrawals, accounted⟩ := custody
  have transfers_taken (epoch : Epoch) := takes.total (RemoteOp.transfers id epoch)
  have withdrawals_taken (epoch : Epoch) := takes.total (RemoteOp.withdraws id epoch)
  refine ⟨sound.move move takes, funded.move sound move takes,
    move.recorded sound.kept sound.orderly recorded, fun epoch => ?_, fun epoch => ?_,
    fun below vouches => ?_⟩
  · have started := move.transfers sound.kept sound.orderly keepsTransfers epoch
    have before := transfers epoch
    have taken := transfers_taken epoch
    simp only [HubState.commit, RemoteOp.total_append]
    omega
  · have started := move.withdraws sound.kept sound.orderly keepsWithdrawals epoch
    have before := withdrawals epoch
    have taken := withdrawals_taken epoch
    simp only [HubState.commit, RemoteOp.total_append]
    omega
  · have bound := Nat.lt_of_le_of_lt (t.paidIn_le_record cause r id) below
    have vouches' := vouches.before (move.follows sound.kept sound.orderly)
    have before := accounted bound vouches'
    have rewards := takes.total (RemoteOp.rewardsFor id)
    have fits : h.books.collected id + cause.answered (RemoteOp.rewardsFor id) <
        Width.limit 128 := by
      simp only [HubState.Funded] at funded
      omega
    have escrow := move.escrow sound.kept sound.orderly fits keepsTransfers
      (fun epoch => by have := transfers_taken epoch; have := transfers epoch; omega)
      (sound.heard takes)
    have claimable := move.claimable sound.kept sound.orderly recorded vouches'
      (fun epoch => by have := withdrawals_taken epoch; have := withdrawals epoch; omega)
      (sound.heard takes)
    simp only [Tally.record, HubState.commit]
    omega

/-! ## Resets -/

theorem Move.reset_transferring (kept : b.WellKept) (orderly : b.Orderly)
    (move : Move s b (.asked (.resetDeposit id epoch)) r) :
    (b.applyAll r.commands).transferring id epoch = 0 := by
  rw [Books.transferring_eq, move.asked_idle kept orderly (by simp [Cause.drops, Leg.ofDeposit])]
  rfl

theorem Move.reset_withdrawing (kept : b.WellKept) (orderly : b.Orderly)
    (move : Move s b (.asked (.resetRedemption id epoch)) r) :
    (b.applyAll r.commands).withdrawing id epoch = 0 := by
  rw [Books.withdrawing_eq, move.asked_idle kept orderly (by simp [Cause.drops, Leg.ofDeposit])]
  rfl

structure HubState.Settling (t : Tally) (h : HubState) (id : ChainId) (denom : Denom)
    (step : Step) : Prop where
  custody : h.Custody t id denom
  transfers : ∀ s epoch, step = .perform s (.resetDeposit id epoch) →
    h.books.transferring id epoch = 0
  withdrawals : ∀ s epoch, step = .perform s (.resetRedemption id epoch) →
    h.books.withdrawing id epoch = 0

theorem HubState.Settling.preserves (id : ChainId) (denom : Denom) (step : Step) :
    Preserves (fun t h => h.Settling t id denom step) step := by
  intro t h cause r rest kept ⟨custody, transfers, withdrawals⟩ move takes of
  have keepsTransfers : cause.KeepsTransfers h.books id := by
    rintro epoch rfl
    obtain ⟨s, performed⟩ := of
    exact transfers s epoch performed
  have keepsWithdrawals : cause.KeepsWithdrawals h.books id := by
    rintro epoch rfl
    obtain ⟨s, performed⟩ := of
    exact withdrawals s epoch performed
  refine ⟨custody.move move takes keepsTransfers keepsWithdrawals, fun s epoch performed => ?_,
    fun s epoch performed => ?_⟩
  · obtain rfl := Cause.asked_of of performed
    exact move.reset_transferring kept custody.sound.orderly
  · obtain rfl := Cause.asked_of of performed
    exact move.reset_withdrawing kept custody.sound.orderly

/-! ## Runs -/

/-- No batch of the chain is reset while it is transferred or withdrawn. -/
structure Patient (steps : List Step) (id : ChainId) : Prop where
  transfers : ∀ before s epoch, before ++ [.perform s (.resetDeposit id epoch)] <+: steps →
    ∀ batch, (HubState.after before).books.deposit? id epoch = some batch →
      batch.status ≠ .transferring
  withdrawals : ∀ before s epoch,
    before ++ [.perform s (.resetRedemption id epoch)] <+: steps →
    ∀ batch, (HubState.after before).books.redemption? id epoch = some batch →
      batch.status ≠ .withdrawing

theorem Patient.of_no_resets {steps : List Step}
    (none : ∀ step ∈ steps, step.resets = false) (id : ChainId) : Patient steps id where
  transfers before s epoch earlier := by
    have reset := none _ (earlier.subset (List.mem_append_right _ (List.mem_singleton_self _)))
    cases reset
  withdrawals before s epoch earlier := by
    have reset := none _ (earlier.subset (List.mem_append_right _ (List.mem_singleton_self _)))
    cases reset

theorem HubState.after_custody {steps : List Step} (patient : Patient steps id) (denom : Denom) :
    (after steps).Custody (Tally.after steps) id denom := by
  induction steps using List.reverseRecOn with
  | nil => exact .initial
  | append_singleton steps step ih =>
      have before : Patient steps id :=
        ⟨fun before s epoch earlier =>
            patient.transfers before s epoch (earlier.trans (List.prefix_append _ _)),
          fun before s epoch earlier =>
            patient.withdrawals before s epoch (earlier.trans (List.prefix_append _ _))⟩
      have custody := ih before
      have settling : (after steps).Settling (Tally.after steps) id denom step := by
        refine ⟨custody, ?_, ?_⟩
        · rintro s epoch rfl
          by_contra waiting
          obtain ⟨batch, found, awaited⟩ :=
            (after steps).books.awaited_of_transferring (Nat.pos_of_ne_zero waiting)
          exact patient.transfers steps s epoch (List.prefix_refl _) batch found awaited
        · rintro s epoch rfl
          by_contra waiting
          obtain ⟨batch, found, awaited⟩ :=
            (after steps).books.awaited_of_withdrawing (Nat.pos_of_ne_zero waiting)
          exact patient.withdrawals steps s epoch (List.prefix_refl _) batch found awaited
      rw [Tally.after_append, after_append]
      have settled := step_preserves (P := fun t h => h.Settling t id denom step)
        (Settling.preserves id denom step) custody.sound.kept settling
      exact settled.custody

/-! ## The claims of a chain -/

theorem totalWhere_filterMap {α β : Type} (counts : β → Bool) (figure : β → Nat)
    (read : α → Option β) (keys : List α) :
    totalWhere counts figure (keys.filterMap read) =
      totalWhere (fun _ => true) (fun key => (read key).elim 0 (part counts figure)) keys := by
  induction keys with
  | nil => rfl
  | cons key keys ih =>
      rw [totalWhere_cons]
      cases found : read key with
      | none => simp [found, part, ih]
      | some record =>
          rw [List.filterMap_cons_some found, totalWhere_cons, ih]
          simp [part, found]

theorem totalWhere_flatMap {α β : Type} (counts : β → Bool) (figure : β → Nat)
    (members : α → List β) (records : List α) :
    totalWhere counts figure (records.flatMap members) =
      totalWhere (fun _ => true) (fun record => totalWhere counts figure (members record))
        records := by
  induction records with
  | nil => rfl
  | cons record records ih =>
      rw [List.flatMap_cons, totalWhere_append, totalWhere_cons, ih]
      simp [part]

namespace Books

def claims (b : Books) (id : ChainId) : List Claim :=
  ((b.redemptions id).flatMap RedemptionBatch.members).filterMap b.claim?

theorem claims_total (b : Books) (id : ChainId) :
    totalWhere Claim.isClaimable Claim.amount (b.claims id) = b.claimable id := by
  rw [claims, totalWhere_filterMap, totalWhere_flatMap]
  rfl

theorem Recorded.mem_claims (kept : b.WellKept) (recorded : b.Recorded) {claim : Claim} :
    claim ∈ b.claims id ↔ b.claim? claim.id = some claim ∧ claim.chain = id := by
  simp only [claims, List.mem_filterMap, List.mem_flatMap]
  constructor
  · rintro ⟨key, ⟨batch, inBatches, listed⟩, found⟩
    obtain ⟨claim', found', chain, -⟩ := (recorded.enrolled inBatches).member key listed
    cases found.symm.trans found'
    exact ⟨(kept.claimKey found).symm ▸ found, chain.trans (kept.redemptionKey inBatches)⟩
  · rintro ⟨found, rfl⟩
    obtain ⟨-, -, batch, stored, listed, -⟩ := recorded.joined found
    exact ⟨claim.id, ⟨batch, (mem_redemptions stored).1, listed⟩, found⟩

theorem Recorded.nodup_claims (kept : b.WellKept) (recorded : b.Recorded) (id : ChainId) :
    (b.claims id).Nodup := by
  have keys : ((b.redemptions id).flatMap RedemptionBatch.members).Nodup := by
    refine List.nodup_flatMap.mpr ⟨fun batch inBatches => (recorded.enrolled inBatches).once, ?_⟩
    refine List.Pairwise.imp_of_mem ?_ (kept.redemptionsInOrder id)
    intro batch other inBatches inOther before key listed listed'
    obtain ⟨-, rfl⟩ := recorded.one_batch kept inBatches inOther listed listed'
    exact Nat.lt_irrefl _ before
  refine List.Nodup.filterMap (fun key key' claim found found' => ?_) keys
  rw [← kept.claimKey found, ← kept.claimKey found']

end Books

theorem Hub.payClaim_grants (kept : b.WellKept) {chain : Chain} {claim : Claim} {owner : Address}
    (known : b.chain? id = some chain) (found : b.claim? (claimId id epoch owner) = some claim)
    (claimable : claim.status = .claimable)
    (covered : claim.amount ≤ s.balance claim.denom - Width.clamp 128 (b.escrow id)) :
    payClaim b.view s owner epoch id = .ok ⟨[.claim { claim with status := .complete },
      .token (.send claim.denom claim.amount claim.owner)], []⟩ := by
  obtain rfl := kept.chainKey known
  have filtered : (some claim).filter (fun claim => claim.status == .claimable) = some claim :=
    Option.filter_eq_some_iff.mpr ⟨rfl, by simpa using claimable⟩
  simp only [payClaim, Attempt.bind_eq_ok, Books.view_chain, escrowed?_view,
    Attempt.promised_eq_ok, Attempt.require_eq_ok, Attempt.orRefuse_eq_ok, Option.some.injEq,
    Attempt.pure_eq_ok]
  exact ⟨chain, known, some claim, congrArg some found, claim, filtered, _, rfl, (), covered, rfl⟩

/-- In every state of every run that resets no batch under way, as long as what is
paid in for a chain is an amount and no other chain pays in its voucher, what the
hub holds of the voucher and what is in transit is what deposits in escrow and
claimable claims add up to.  Once nothing is in transit, each of these claims is
paid to its owner. -/
theorem HubState.vouchers_accounted (steps : List Step) (id : ChainId) (chain : Chain)
    (arrived : Nat) (known : (after steps).books.chain? id = some chain)
    (distinct : ∀ other chain', (after steps).books.chain? other = some chain' →
      chain'.voucherDenom = chain.voucherDenom → other = id)
    (patient : Patient steps id) (below : (Tally.after steps).paidIn id < Width.limit 128)
    (delivered : Delivered id steps arrived) :
    0 ≤ (Tally.after steps).inTransit id arrived ∧
      (Tally.after steps).balance id chain.voucherDenom arrived +
          (Tally.after steps).inTransit id arrived =
        (after steps).books.escrow id +
          totalWhere Claim.isClaimable Claim.amount ((after steps).books.claims id) ∧
      ((after steps).books.claims id).Nodup ∧
      (∀ claim, claim ∈ (after steps).books.claims id ↔
        (after steps).books.claim? claim.id = some claim ∧ claim.chain = id) ∧
      ((Tally.after steps).inTransit id arrived = 0 →
        ∀ claim ∈ (after steps).books.claims id, claim.status = .claimable →
          ∀ s : Surroundings, (s.balance chain.voucherDenom : Int) =
              (Tally.after steps).balance id chain.voucherDenom arrived →
            (Request.payClaim claim.owner claim.epoch id).answer (after steps).books.view s =
              .ok ⟨[.claim { claim with status := .complete },
                .token (.send chain.voucherDenom claim.amount claim.owner)], []⟩) := by
  obtain ⟨sound, -, recorded, -, -, accounted⟩ := after_custody patient chain.voucherDenom
  have vouches : (after steps).books.Vouches id chain.voucherDenom := by
    refine fun other chain' known' => ⟨distinct other chain' known', ?_⟩
    rintro rfl
    cases known.symm.trans known'
    rfl
  have flows := accounted below vouches
  rw [← Books.claims_total] at flows
  have balance : (Tally.after steps).balance id chain.voucherDenom arrived +
      (Tally.after steps).inTransit id arrived = (after steps).books.escrow id +
        totalWhere Claim.isClaimable Claim.amount ((after steps).books.claims id) := by
    simp only [Tally.balance, Tally.inTransit]
    omega
  refine ⟨delivered.inTransit_nonneg, balance, recorded.nodup_claims sound.kept id,
    fun claim => recorded.mem_claims sound.kept, fun here claim listed claimable s reported => ?_⟩
  obtain ⟨found, rfl⟩ := (recorded.mem_claims sound.kept).mp listed
  obtain ⟨named, ⟨chain', known', inVoucher⟩, -⟩ := recorded.joined found
  cases known.symm.trans known'
  have own := part_le_totalWhere Claim.isClaimable Claim.amount listed
  rw [part_counted (by rw [Claim.isClaimable, claimable]; rfl)] at own
  have escrow := Nat.min_le_left ((after steps).books.escrow claim.chain) (Width.max 128)
  have covered : claim.amount ≤ s.balance claim.denom -
      Width.clamp 128 ((after steps).books.escrow claim.chain) := by
    rw [inVoucher, Width.clamp]
    have held : (after steps).books.escrow claim.chain + claim.amount ≤
        s.balance chain.voucherDenom := by
      rw [here, Int.add_zero, ← reported] at balance
      lia
    lia
  rw [← inVoucher]
  rw [named] at found
  exact Hub.payClaim_grants sound.kept known found claimable covered

/-- A transfer fails, so its deposits are back in escrow, and unbonded funds arrive. -/
def Step.sampleReturns : List Step :=
  sampleUnbonding ++
    [.perform (.sample 600 0) (.deposit "cosmoshub" 500 "dave"),
      .perform (.sample 1100 500) (.startEpoch .delegation 3),
      .acknowledge (.sample 1100 0) 0 .failure,
      .perform { Surroundings.sample 1100 500 with now := 2000000 } (.startEpoch .undelegation 3),
      .acknowledge (.sample 1100 500) 0 (.success [])]

theorem HubState.vouchers_accounted_sample :
    (Tally.after Step.sampleReturns).balance "cosmoshub" "ibc/uatom" 400 =
        (after Step.sampleReturns).books.escrow "cosmoshub" + 400 ∧
      ∃ claim ∈ (after Step.sampleReturns).books.claims "cosmoshub", claim.amount = 400 ∧
        (Request.payClaim claim.owner claim.epoch "cosmoshub").answer
            (after Step.sampleReturns).books.view (.sample 1100 900) =
          .ok ⟨[.claim { claim with status := .complete },
            .token (.send "ibc/uatom" claim.amount claim.owner)], []⟩ := by
  obtain ⟨chain, known⟩ : ∃ chain,
      (after Step.sampleReturns).books.chain? "cosmoshub" = some chain :=
    Option.isSome_iff_exists.mp (by decide +kernel)
  have voucher : ((after Step.sampleReturns).books.chain? "cosmoshub").map Chain.voucherDenom =
      some "ibc/uatom" := by decide +kernel
  have distinct : ∀ other chain', (after Step.sampleReturns).books.chain? other = some chain' →
      chain'.voucherDenom = chain.voucherDenom → other = "cosmoshub" := by
    intro other chain' known' _
    have listed := (after_wellKept Step.sampleReturns).listed known'
    have only : (after Step.sampleReturns).books.chainIds = ["cosmoshub"] := by decide +kernel
    rw [only] at listed
    exact List.mem_singleton.mp listed
  have patient : Patient Step.sampleReturns "cosmoshub" :=
    .of_no_resets (by decide +kernel) _
  have delivered : Delivered "cosmoshub" Step.sampleReturns (0 + 400) :=
    .arrival (.nothing _ _) (by decide +kernel)
  obtain ⟨-, balance, -, -, pays⟩ := vouchers_accounted Step.sampleReturns "cosmoshub" chain 400
    known distinct patient (by decide +kernel) delivered
  have denom : chain.voucherDenom = "ibc/uatom" := by simpa [known] using voucher
  have here : (Tally.after Step.sampleReturns).inTransit "cosmoshub" 400 = 0 := by decide +kernel
  have claims : totalWhere Claim.isClaimable Claim.amount
      ((after Step.sampleReturns).books.claims "cosmoshub") = 400 := by decide +kernel
  rw [denom, here, claims, Int.add_zero] at balance
  rw [denom] at pays
  obtain ⟨claim, listed, amount, claimable⟩ :
      ∃ claim ∈ (after Step.sampleReturns).books.claims "cosmoshub",
        claim.amount = 400 ∧ claim.status = .claimable := by decide +kernel
  exact ⟨balance, claim, listed, amount,
    pays here claim listed claimable (.sample 1100 900) (by decide +kernel)⟩

end LiquidStaking
