import LiquidStaking.Proofs.Ordered

/-!
# Laws of the books

What the books read after a write, and what every sequence of writes keeps:
each record stands under its own key, the batches of a chain are in the order
of their epochs, and a chain is listed once.
-/

namespace LiquidStaking.Books

variable {b : Books} {id : ChainId}

/-! ## Reading after writing -/

section Reading

variable (b) (chain : Chain) (deposit : DepositBatch) (redemption : RedemptionBatch)
  (claim : Claim)

theorem chain?_putChain (id : ChainId) :
    (b.putChain chain).chain? id = if id = chain.id then some chain else b.chain? id := rfl

theorem claim?_putClaim (id : String) :
    (b.putClaim claim).claim? id = if id = claim.id then some claim else b.claim? id := rfl

@[simp] theorem epoch?_putChain : (b.putChain chain).epoch? = b.epoch? := rfl

@[simp] theorem deposits_putChain : (b.putChain chain).deposits = b.deposits := rfl

@[simp] theorem redemptions_putChain : (b.putChain chain).redemptions = b.redemptions := rfl

@[simp] theorem claim?_putChain : (b.putChain chain).claim? = b.claim? := rfl

@[simp] theorem chain?_putDeposit : (b.putDeposit deposit).chain? = b.chain? := rfl

@[simp] theorem epoch?_putDeposit : (b.putDeposit deposit).epoch? = b.epoch? := rfl

@[simp] theorem redemptions_putDeposit :
    (b.putDeposit deposit).redemptions = b.redemptions := rfl

@[simp] theorem claim?_putDeposit : (b.putDeposit deposit).claim? = b.claim? := rfl

@[simp] theorem chain?_putRedemption : (b.putRedemption redemption).chain? = b.chain? := rfl

@[simp] theorem epoch?_putRedemption : (b.putRedemption redemption).epoch? = b.epoch? := rfl

@[simp] theorem deposits_putRedemption :
    (b.putRedemption redemption).deposits = b.deposits := rfl

@[simp] theorem claim?_putRedemption : (b.putRedemption redemption).claim? = b.claim? := rfl

@[simp] theorem chain?_putClaim : (b.putClaim claim).chain? = b.chain? := rfl

@[simp] theorem epoch?_putClaim : (b.putClaim claim).epoch? = b.epoch? := rfl

@[simp] theorem deposits_putClaim : (b.putClaim claim).deposits = b.deposits := rfl

@[simp] theorem redemptions_putClaim : (b.putClaim claim).redemptions = b.redemptions := rfl

theorem deposits_putDeposit (id : ChainId) :
    (b.putDeposit deposit).deposits id =
      if id = deposit.chain then putByEpoch DepositBatch.epoch deposit (b.deposits deposit.chain)
      else b.deposits id := rfl

theorem redemptions_putRedemption (id : ChainId) :
    (b.putRedemption redemption).redemptions id =
      if id = redemption.chain then
        putByEpoch RedemptionBatch.epoch redemption (b.redemptions redemption.chain)
      else b.redemptions id := rfl

theorem deposit?_putDeposit (id : ChainId) (e : Epoch) :
    (b.putDeposit deposit).deposit? id e =
      if id = deposit.chain ∧ e = deposit.epoch then some deposit else b.deposit? id e := by
  simp only [deposit?, deposits_putDeposit]
  by_cases same : id = deposit.chain
  · have law := atEpoch?_putByEpoch DepositBatch.epoch deposit
      (b.deposits deposit.chain) e
    simp only [atEpoch?] at law
    simp only [same, if_true, true_and, law, eq_comm]
  · simp [same]

theorem redemption?_putRedemption (id : ChainId) (e : Epoch) :
    (b.putRedemption redemption).redemption? id e =
      if id = redemption.chain ∧ e = redemption.epoch then some redemption
      else b.redemption? id e := by
  simp only [redemption?, redemptions_putRedemption]
  by_cases same : id = redemption.chain
  · have law := atEpoch?_putByEpoch RedemptionBatch.epoch redemption
      (b.redemptions redemption.chain) e
    simp only [atEpoch?] at law
    simp only [same, if_true, true_and, law, eq_comm]
  · simp [same]

end Reading

@[simp] theorem applyAll_nil (b : Books) : b.applyAll [] = b := rfl

@[simp] theorem applyAll_cons (b : Books) (command : Command) (commands : List Command) :
    b.applyAll (command :: commands) = (b.apply command).applyAll commands := rfl

@[simp] theorem applyAll_append (b : Books) (first second : List Command) :
    b.applyAll (first ++ second) = (b.applyAll first).applyAll second :=
  List.foldl_append

section Responses

variable (b) (ops : List RemoteOp) (op : Option RemoteOp)

theorem applyAll_dispatches : b.applyAll (ops.map .dispatch) = b := by
  induction ops with
  | nil => rfl
  | cons op ops ih => exact ih

theorem applyAll_chain (record : Chain) :
    b.applyAll (.chain record :: ops.map .dispatch) = b.putChain record :=
  (b.putChain record).applyAll_dispatches ops

theorem applyAll_deposit (record : DepositBatch) :
    b.applyAll (.deposit record :: (op.map Command.dispatch).toList) = b.putDeposit record := by
  cases op <;> rfl

theorem applyAll_redemption (record : RedemptionBatch) :
    b.applyAll (.redemption record :: (op.map Command.dispatch).toList) =
      b.putRedemption record := by
  cases op <;> rfl

end Responses

/-! ## What every write keeps -/

structure WellKept (b : Books) : Prop where
  chainKey : ∀ {id chain}, b.chain? id = some chain → chain.id = id
  listed : ∀ {id chain}, b.chain? id = some chain → id ∈ b.chainIds
  listedOnce : b.chainIds.Nodup
  depositKey : ∀ {id batch}, batch ∈ b.deposits id → batch.chain = id
  depositsInOrder : ∀ id, InOrder DepositBatch.epoch (b.deposits id)
  redemptionKey : ∀ {id batch}, batch ∈ b.redemptions id → batch.chain = id
  redemptionsInOrder : ∀ id, InOrder RedemptionBatch.epoch (b.redemptions id)
  claimKey : ∀ {id claim}, b.claim? id = some claim → claim.id = id

namespace WellKept

theorem empty : WellKept .empty where
  chainKey := nofun
  listed := nofun
  listedOnce := List.nodup_nil
  depositKey := nofun
  depositsInOrder _ := List.Pairwise.nil
  redemptionKey := nofun
  redemptionsInOrder _ := List.Pairwise.nil
  claimKey := nofun

theorem putChain (kept : b.WellKept) (chain : Chain) : (b.putChain chain).WellKept where
  chainKey {id found} read := by
    rw [chain?_putChain] at read
    split at read
    · rename_i same
      cases read
      exact same.symm
    · exact kept.chainKey read
  listed {id found} read := by
    rw [chain?_putChain] at read
    simp only [Books.putChain]
    split at read
    · rename_i same
      subst same
      split <;> simp_all
    · have := kept.listed read
      split <;> simp_all
  listedOnce := by
    simp only [Books.putChain]
    split
    · exact kept.listedOnce
    · rename_i fresh
      exact List.nodup_append.mpr ⟨kept.listedOnce, by simp,
        fun known member _ added => by
          rw [List.mem_singleton] at added
          rintro rfl
          exact fresh (added ▸ member)⟩
  depositKey := kept.depositKey
  depositsInOrder := kept.depositsInOrder
  redemptionKey := kept.redemptionKey
  redemptionsInOrder := kept.redemptionsInOrder
  claimKey := kept.claimKey

theorem putDeposit (kept : b.WellKept) (record : DepositBatch) :
    (b.putDeposit record).WellKept where
  chainKey := kept.chainKey
  listed := kept.listed
  listedOnce := kept.listedOnce
  depositKey {id batch} member := by
    rw [deposits_putDeposit] at member
    split at member
    · rename_i same
      rcases mem_putByEpoch member with rfl | old
      · exact same.symm
      · exact same ▸ kept.depositKey old
    · exact kept.depositKey member
  depositsInOrder id := by
    rw [deposits_putDeposit]
    split
    · exact (kept.depositsInOrder _).putByEpoch record
    · exact kept.depositsInOrder id
  redemptionKey := kept.redemptionKey
  redemptionsInOrder := kept.redemptionsInOrder
  claimKey := kept.claimKey

theorem putRedemption (kept : b.WellKept) (record : RedemptionBatch) :
    (b.putRedemption record).WellKept where
  chainKey := kept.chainKey
  listed := kept.listed
  listedOnce := kept.listedOnce
  depositKey := kept.depositKey
  depositsInOrder := kept.depositsInOrder
  redemptionKey {id batch} member := by
    rw [redemptions_putRedemption] at member
    split at member
    · rename_i same
      rcases mem_putByEpoch member with rfl | old
      · exact same.symm
      · exact same ▸ kept.redemptionKey old
    · exact kept.redemptionKey member
  redemptionsInOrder id := by
    rw [redemptions_putRedemption]
    split
    · exact (kept.redemptionsInOrder _).putByEpoch record
    · exact kept.redemptionsInOrder id
  claimKey := kept.claimKey

theorem putClaim (kept : b.WellKept) (claim : Claim) : (b.putClaim claim).WellKept where
  chainKey := kept.chainKey
  listed := kept.listed
  listedOnce := kept.listedOnce
  depositKey := kept.depositKey
  depositsInOrder := kept.depositsInOrder
  redemptionKey := kept.redemptionKey
  redemptionsInOrder := kept.redemptionsInOrder
  claimKey {id found} read := by
    rw [claim?_putClaim] at read
    split at read
    · rename_i same
      cases read
      exact same.symm
    · exact kept.claimKey read

theorem apply (kept : b.WellKept) (command : Command) : (b.apply command).WellKept := by
  cases command with
  | chain record => exact kept.putChain record
  | epoch kind epoch => exact { kept with }
  | deposit record => exact kept.putDeposit record
  | redemption record => exact kept.putRedemption record
  | claim record => exact kept.putClaim record
  | token order => exact kept
  | dispatch op => exact kept

theorem applyAll (kept : b.WellKept) (commands : List Command) :
    (b.applyAll commands).WellKept := by
  induction commands generalizing b with
  | nil => exact kept
  | cons command commands ih => exact ih (kept.apply command)

/-! ## Finding a batch -/

theorem deposit?_mem (kept : b.WellKept) {batch : DepositBatch}
    (member : batch ∈ b.deposits id) : b.deposit? id batch.epoch = some batch :=
  (kept.depositsInOrder id).atEpoch? member

theorem redemption?_mem (kept : b.WellKept) {batch : RedemptionBatch}
    (member : batch ∈ b.redemptions id) : b.redemption? id batch.epoch = some batch :=
  (kept.redemptionsInOrder id).atEpoch? member

end WellKept

theorem mem_deposits {e : Epoch} {batch : DepositBatch} (found : b.deposit? id e = some batch) :
    batch ∈ b.deposits id ∧ batch.epoch = e :=
  atEpoch?_eq_some found

theorem mem_redemptions {e : Epoch} {batch : RedemptionBatch}
    (found : b.redemption? id e = some batch) : batch ∈ b.redemptions id ∧ batch.epoch = e :=
  atEpoch?_eq_some found

/-! ## Sums over the batches of a chain -/

def depositTotal (b : Books) (id : ChainId) (counts : DepositBatch → Bool)
    (figure : DepositBatch → Amount) : Nat :=
  totalWhere counts figure (b.deposits id)

def redemptionTotal (b : Books) (id : ChainId) (counts : RedemptionBatch → Bool)
    (figure : RedemptionBatch → Amount) : Nat :=
  totalWhere counts figure (b.redemptions id)

section Totals

variable (counts : DepositBatch → Bool) (figure : DepositBatch → Amount)
  (counts' : RedemptionBatch → Bool) (figure' : RedemptionBatch → Amount)

theorem WellKept.depositTotal_put (kept : b.WellKept) (record : DepositBatch) {old : DepositBatch}
    (found : b.deposit? record.chain record.epoch = some old) :
    (b.putDeposit record).depositTotal record.chain counts figure + part counts figure old =
      b.depositTotal record.chain counts figure + part counts figure record := by
  have law := (kept.depositsInOrder record.chain).totalWhere_putByEpoch counts figure record
  have old? : atEpoch? DepositBatch.epoch (b.deposits record.chain) record.epoch = some old :=
    found
  rw [old?] at law
  simpa [depositTotal, deposits_putDeposit] using law

theorem WellKept.depositTotal_put_new (kept : b.WellKept) (record : DepositBatch)
    (absent : b.deposit? record.chain record.epoch = none) :
    (b.putDeposit record).depositTotal record.chain counts figure =
      b.depositTotal record.chain counts figure + part counts figure record := by
  have law := (kept.depositsInOrder record.chain).totalWhere_putByEpoch counts figure record
  have old? : atEpoch? DepositBatch.epoch (b.deposits record.chain) record.epoch = none :=
    absent
  rw [old?] at law
  simpa [depositTotal, deposits_putDeposit] using law

theorem depositTotal_put_other (record : DepositBatch) (differ : id ≠ record.chain) :
    (b.putDeposit record).depositTotal id counts figure = b.depositTotal id counts figure := by
  simp [depositTotal, deposits_putDeposit, differ]

theorem WellKept.redemptionTotal_put (kept : b.WellKept) (record : RedemptionBatch)
    {old : RedemptionBatch}
    (found : b.redemption? record.chain record.epoch = some old) :
    (b.putRedemption record).redemptionTotal record.chain counts' figure' +
        part counts' figure' old =
      b.redemptionTotal record.chain counts' figure' + part counts' figure' record := by
  have law := (kept.redemptionsInOrder record.chain).totalWhere_putByEpoch counts' figure' record
  have old? : atEpoch? RedemptionBatch.epoch (b.redemptions record.chain) record.epoch =
      some old := found
  rw [old?] at law
  simpa [redemptionTotal, redemptions_putRedemption] using law

theorem WellKept.redemptionTotal_put_new (kept : b.WellKept) (record : RedemptionBatch)
    (absent : b.redemption? record.chain record.epoch = none) :
    (b.putRedemption record).redemptionTotal record.chain counts' figure' =
      b.redemptionTotal record.chain counts' figure' + part counts' figure' record := by
  have law := (kept.redemptionsInOrder record.chain).totalWhere_putByEpoch counts' figure' record
  have old? : atEpoch? RedemptionBatch.epoch (b.redemptions record.chain) record.epoch =
      none := absent
  rw [old?] at law
  simpa [redemptionTotal, redemptions_putRedemption] using law

theorem redemptionTotal_put_other (record : RedemptionBatch) (differ : id ≠ record.chain) :
    (b.putRedemption record).redemptionTotal id counts' figure' =
      b.redemptionTotal id counts' figure' := by
  simp [redemptionTotal, redemptions_putRedemption, differ]

end Totals

end LiquidStaking.Books
