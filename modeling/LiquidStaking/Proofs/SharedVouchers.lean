import LiquidStaking.Proofs.Vouchers

/-!
# Claims and the escrow of their voucher

A claim is paid if the balance of its voucher covers it besides the deposits that the
named chain has in escrow.  Chains may pay in one voucher, and then the escrow of one
of them is no hindrance to the claims of another.  Where the others have nothing in
escrow, a payout leaves all deposits in that voucher untouched.
-/

namespace LiquidStaking

variable {s : Surroundings} {b : Books} {cause : Cause} {r : Response} {id : ChainId}
  {denom : Denom}

/-! ## Escrow of a voucher -/

namespace Books

def paysIn (b : Books) (denom : Denom) (id : ChainId) : Bool :=
  (b.chain? id).any fun chain => chain.voucherDenom == denom

def escrowIn (b : Books) (denom : Denom) : Nat :=
  totalWhere (b.paysIn denom) b.escrow b.chainIds

end Books

section Totals

variable {α : Type} {counts : α → Bool} {figure : α → Nat} {only : α} {records : List α}

theorem totalWhere_no_parts (nothing : ∀ record ∈ records, part counts figure record = 0) :
    totalWhere counts figure records = 0 := by
  induction records with
  | nil => rfl
  | cons record rest ih =>
      rw [totalWhere_cons, nothing record List.mem_cons_self,
        ih fun other member => nothing other (List.mem_cons_of_mem _ member)]

theorem totalWhere_le_only (distinct : records.Nodup)
    (nothing : ∀ record ∈ records, record ≠ only → part counts figure record = 0) :
    totalWhere counts figure records ≤ figure only := by
  induction records with
  | nil => exact Nat.zero_le _
  | cons record rest ih =>
      have ⟨fresh, restDistinct⟩ := List.nodup_cons.mp distinct
      have later := fun other member => nothing other (List.mem_cons_of_mem _ member)
      rw [totalWhere_cons]
      by_cases same : record = only
      · subst same
        have none : totalWhere counts figure rest = 0 :=
          totalWhere_no_parts fun other member => later other member fun same =>
            fresh (same ▸ member)
        have own : part counts figure record ≤ figure record := by
          unfold part
          split <;> lia
        lia
      · have none := nothing record List.mem_cons_self same
        have := ih restDistinct later
        lia

end Totals

theorem Books.WellKept.escrowIn_le (kept : b.WellKept)
    (alone : ∀ other, b.paysIn denom other = true → other ≠ id → b.escrow other = 0) :
    b.escrowIn denom ≤ b.escrow id := by
  refine totalWhere_le_only kept.listedOnce fun other _ differ => ?_
  cases pays : b.paysIn denom other with
  | false => exact part_ignored pays
  | true => rw [part_counted pays, alone other pays differ]

/-! ## Claims are for something -/

def Books.Owing (b : Books) : Prop :=
  ∀ key claim, b.claim? key = some claim → claim.amount ≠ 0

theorem Move.owing (kept : b.WellKept) (owing : b.Owing) (move : Move s b cause r) :
    (b.applyAll r.commands).Owing := by
  intro key claim read
  cases move with
  | @redeemed id chain epoch batch amount owed owner known current fresh positive priced
      worthwhile covered found burnedFits redeemableFits =>
      have read : (b.putClaim ⟨claimId id epoch owner, id, epoch, owner, owed,
        chain.voucherDenom, .pending⟩).claim? key = some claim := read
      rw [Books.claim?_putClaim] at read
      split at read
      · cases read
        exact worthwhile
      · exact owing key claim read
  | @released id batch amount receipts notices found awaited plain =>
      rw [Books.applyAll_released, Books.claim?_putRedemption, kept.claim?_release] at read
      split at read
      · obtain ⟨old, held, rfl⟩ := Option.map_eq_some_iff.mp read
        have stays : old.amount ≠ 0 := owing key old held
        exact stays
      · exact owing key claim read
  | @paid id chain epoch owner old known found claimable covered =>
      have read : (b.putClaim { old with status := .complete }).claim? key = some claim := read
      rw [Books.claim?_putClaim] at read
      split at read
      · cases read
        have stays : old.amount ≠ 0 := owing _ old found
        exact stays
      · exact owing key claim read
  | revised known edge plain =>
      rw [Books.applyAll_chain] at read
      exact owing key claim read
  | rewarded known edge told =>
      rw [Books.applyAll_chain] at read
      exact owing key claim read
  | depositMoved found edge plain =>
      rw [Books.applyAll_deposit] at read
      exact owing key claim read
  | redemptionMoved found edge plain =>
      rw [Books.applyAll_redemption] at read
      exact owing key claim read
  | registered | requested | repriced | epochStarted | deposited | depositOpened | delegated
  | reinvested | unbonded | quiet | stale | unanswered => exact owing key claim read

theorem HubState.after_owing (steps : List Step) : (after steps).books.Owing :=
  after_preserves (P := fun _ h => h.books.Owing) nofun
    (fun _ _ _ _ _ _ kept owing move _ _ => move.owing kept owing) steps

/-! ## Payouts -/

theorem Width.covered_beside {amount balance escrow : Nat} (something : amount ≠ 0)
    (within : balance < limit 128) (covered : amount ≤ balance - clamp 128 escrow) :
    amount + escrow ≤ balance := by
  unfold clamp max at covered
  lia

theorem Hub.payClaim_granted (kept : b.WellKept) {owner : Address} {epoch : Epoch}
    (granted : payClaim b.view s owner epoch id = .ok r) :
    ∃ claim, b.claim? (claimId id epoch owner) = some claim ∧
      r.commands = [.claim { claim with status := .complete },
        .token (.send claim.denom claim.amount claim.owner)] ∧
      claim.amount ≤ s.balance claim.denom - Width.clamp 128 (b.escrow id) := by
  cases payClaim_move kept granted with
  | paid known found claimable covered => exact ⟨_, found, rfl, covered⟩
  | revised known edge plain => cases edge
  | rewarded known edge told => cases edge
  | depositMoved found edge plain => cases edge
  | redemptionMoved found edge plain => cases edge

namespace HubState

/-- In every state of every run, a claim is paid from a balance that covers the escrow of
the named chain besides.  It covers all that is in escrow in the voucher of the claim, if
no other chain that pays in it has anything in escrow. -/
theorem payouts_leave_escrow (steps : List Step) (s : Surroundings) (owner : Address)
    (epoch : Epoch) (id : ChainId) (r : Response)
    (within : ∀ denom, s.balance denom < Width.limit 128)
    (granted : (Request.payClaim owner epoch id).answer (after steps).books.view s = .ok r) :
    ∃ claim, (after steps).books.claim? (claimId id epoch owner) = some claim ∧
      r.commands = [.claim { claim with status := .complete },
        .token (.send claim.denom claim.amount claim.owner)] ∧
      claim.amount + (after steps).books.escrow id ≤ s.balance claim.denom ∧
      ((∀ other, (after steps).books.paysIn claim.denom other = true → other ≠ id →
          (after steps).books.escrow other = 0) →
        claim.amount + (after steps).books.escrowIn claim.denom ≤ s.balance claim.denom) := by
  have kept := after_wellKept steps
  have owing := after_owing steps
  generalize (after steps).books = b at granted kept owing ⊢
  obtain ⟨claim, found, paid, covered⟩ := Hub.payClaim_granted kept granted
  have beside := Width.covered_beside (owing _ claim found) (within claim.denom) covered
  refine ⟨claim, found, paid, beside, fun alone => ?_⟩
  have shared : b.escrowIn claim.denom ≤ b.escrow id := kept.escrowIn_le alone
  lia

theorem payouts_leave_escrow_sample :
    ∃ claim, (after Step.sampleReturns).books.claim? (claimId "cosmoshub" 1 "carol") =
        some claim ∧
      claim.amount + (after Step.sampleReturns).books.escrow "cosmoshub" ≤ 900 ∧
      claim.amount + (after Step.sampleReturns).books.escrowIn claim.denom ≤ 900 := by
  have within (denom : Denom) : (Surroundings.sample 1100 900).balance denom < Width.limit 128 := by
    simp only [Surroundings.sample]
    split <;> decide
  have granted : ∃ r, (Request.payClaim "carol" 1 "cosmoshub").answer
      (after Step.sampleReturns).books.view (.sample 1100 900) = .ok r :=
    ⟨⟨[.claim ⟨"cosmoshub/1/carol", "cosmoshub", 1, "carol", 400, "ibc/uatom", .complete⟩,
      .token (.send "ibc/uatom" 400 "carol")], []⟩, by decide +kernel⟩
  obtain ⟨r, granted⟩ := granted
  obtain ⟨claim, found, -, own, shared⟩ :=
    payouts_leave_escrow Step.sampleReturns (.sample 1100 900) "carol" 1 "cosmoshub" r within
      granted
  have voucher : ((after Step.sampleReturns).books.claim? (claimId "cosmoshub" 1 "carol")).map
      Claim.denom = some "ibc/uatom" := by decide +kernel
  rw [found, Option.map_some, Option.some.injEq] at voucher
  have kept := after_wellKept Step.sampleReturns
  have only : (after Step.sampleReturns).books.chainIds = ["cosmoshub"] := by decide +kernel
  refine ⟨claim, found, by simpa [voucher, Surroundings.sample] using own, ?_⟩
  have all := shared fun other pays differ => ?_
  · simpa [voucher, Surroundings.sample] using all
  · obtain ⟨chain, known, -⟩ := (Option.any_eq_true _ _).mp pays
    have listed := kept.listed known
    rw [only, List.mem_singleton] at listed
    exact absurd listed differ

end HubState

/-- Two chains pay in one voucher.  Unbonded funds of the first were sent off, and a
deposit for the second waits in escrow. -/
def Step.sampleShared : List Step :=
  [.perform (.sample 0 0) (.register .sample),
    .perform (.sample 0 0) (.register { Registration.sample with
      chainId := "cosmoshub-4", derivativeDenom := "statom4" }),
    .perform (.sample 0 0) (.accountOpened "cosmoshub" .delegate "delegator"),
    .perform (.sample 0 0) (.startEpoch .delegation 1),
    .perform (.sample 0 0) (.deposit "cosmoshub" 1000 "carol"),
    .perform (.sample 1000 1000) (.startEpoch .delegation 2),
    .acknowledge (.sample 1000 0) 0 (.success []),
    .acknowledge (.sample 1000 0) 0 (.success []),
    .perform (.sample 1000 0) (.startEpoch .undelegation 1),
    .perform (.sample 1000 0) (.redeem "cosmoshub" 400 "carol"),
    .perform (.sample 1000 0) (.startEpoch .undelegation 2),
    .acknowledge (.sample 1000 0) 0 (.success []),
    .perform (.sample 600 0) (.deposit "cosmoshub-4" 500 "dave"),
    .perform { Surroundings.sample 600 500 with now := 2000000 } (.startEpoch .undelegation 3),
    .acknowledge (.sample 600 500) 0 (.success [])]

/-- The funds have yet to arrive, and the claim is paid out of the deposit for the
other chain. -/
theorem HubState.payout_spends_shared_escrow :
    (Request.payClaim "carol" 1 "cosmoshub").answer (after Step.sampleShared).books.view
        (.sample 600 500) =
      .ok ⟨[.claim ⟨"cosmoshub/1/carol", "cosmoshub", 1, "carol", 400, "ibc/uatom", .complete⟩,
        .token (.send "ibc/uatom" 400 "carol")], []⟩ ∧
    (after Step.sampleShared).books.escrowIn "ibc/uatom" = 500 ∧
    (Surroundings.sample 600 500).balance "ibc/uatom" - 400 <
      (after Step.sampleShared).books.escrowIn "ibc/uatom" := by
  decide +kernel

end LiquidStaking
