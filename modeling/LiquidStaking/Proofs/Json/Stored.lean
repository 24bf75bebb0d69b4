import LiquidStaking.Proofs.Json.Operations
import LiquidStaking.Proofs.Storage

/-!
# Documents in storage

Writing a document never fails, since its text is never empty, and whoever reads
the entry while these bytes are in it reads the value that was written.  This is
so of everything the contract keeps as a document.
-/

namespace LiquidStaking

namespace Document

variable {α : Type} [Document α]

theorem toBytes_ne_nil {value : α} (writable : (toJson value).Writable) : toBytes value ≠ [] := by
  intro empty
  have read := Bytes.toText?_ofText (toJson value).toText
  rw [show Bytes.ofText (toJson value).toText = Bytes.ofText "" from empty,
    Bytes.toText?_ofText, Option.some.injEq] at read
  have printed : (toJson value).print = [] := by
    have := congrArg String.toList read
    simpa [Json.toText] using this.symm
  have positive := Json.print_length_pos writable
  simp [printed] at positive

/-- Under every key of every store the value can be written, what is read next is
the value, and so is what any later store has there that kept the entry. -/
structure Durable (value : α) : Prop where
  written : ∀ (store : Store) (key : String),
    store.set? key (toBytes value) = some (store.setDocument key value)
  read : ∀ (store : Store) (key : String),
    (store.setDocument key value).document? key = some (some value)
  kept : ∀ (store later : Store) (key : String),
    later.get? key = (store.setDocument key value).get? key →
      later.document? key = some (some value)

theorem Faithful.durable {value : α} (faithful : Faithful value) : Durable value where
  written _ _ := if_neg (toBytes_ne_nil faithful.writable)
  read store key := Store.document?_setDocument store key faithful
  kept store _ key same :=
    (Store.document?_of_get? same).trans (Store.document?_setDocument store key faithful)

/-- Everything the contract keeps as a document is durable, whatever its texts and
however long its lists: all that is asked of it is that its numbers keep to their
widths. -/
theorem records_durable :
    (∀ chain : Chain, chain.Fits → Durable chain) ∧
    (∀ batch : DepositBatch, batch.Fits → Durable batch) ∧
    (∀ batch : RedemptionBatch, batch.Fits → Durable batch) ∧
    (∀ claim : Claim, claim.Fits → Durable claim) ∧
    (∀ epochs : List Epoch, (∀ epoch ∈ epochs, epoch < Width.limit 64) → Durable epochs) ∧
    (∀ ids : List String, Durable ids) ∧
    (∀ op : RemoteOp, op.Fits → Durable op) ∧
    (∀ stashed : Stashed, stashed.op.Fits → Durable stashed) :=
  ⟨fun _ fits => (faithful_chain fits).durable,
    fun _ fits => (faithful_deposit fits).durable,
    fun _ fits => (faithful_redemption fits).durable,
    fun _ fits => (faithful_claim fits).durable,
    fun _ fits => (faithful_epochs fits).durable,
    fun ids => (faithful_texts ids).durable,
    fun _ fits => (faithful_op fits).durable,
    fun _ fits => (faithful_stashed fits).durable⟩

def extremeChain : Chain where
  id := "a \"quoted\" \\ name"
  connection := ""
  transferChannel := "\x00\t\n\x1f\x7f"
  remoteTransferChannel := "é€😀"
  escrow := "null"
  delegateAddress := some ""
  unbondAddress := none
  withdrawAddressSet := true
  validators := [⟨"\\u0022", Width.max 64, Width.max 128⟩, ⟨"", 0, 0⟩]
  nativeDenom := "1"
  voucherDenom := "[,]"
  derivativeDenom := ":"
  rate := ⟨⟨Width.max 256⟩⟩
  staked := Width.max 128
  unbondingPeriod := Width.max 64
  pendingRewards := Width.max 128

/-- All hypotheses can be met by the last number of each width. -/
theorem records_durable_extreme :
    Durable extremeChain ∧
    Durable (DepositBatch.mk "\"" "" (Width.max 64) (Width.max 128) 0 .transferFailed) ∧
    Durable (RedemptionBatch.mk "" "\\" (Width.max 64) 0 (Width.max 128) (some (Width.max 64))
      .startFailed ["", "\n"]) ∧
    Durable (Claim.mk "/" "" 0 "\x01" (Width.max 128) "ibc/\"" .claimable) ∧
    Durable [0, Width.max 64] ∧
    Durable (RemoteOp.undelegate "\t" (Width.max 64) [⟨"", Width.max 128⟩]) ∧
    Durable (Stashed.mk "\"\\" (.transferRewards "" (Width.max 128))) := by
  obtain ⟨chain, deposit, redemption, claim, epochs, -, op, stashed⟩ := records_durable
  refine ⟨chain _ ?_, deposit _ ?_, redemption _ ?_, claim _ ?_, epochs _ ?_, op _ ?_,
    stashed _ ?_⟩
  · exact {
      validators := by
        intro v member
        simp only [extremeChain, List.mem_cons, List.not_mem_nil, or_false] at member
        obtain rfl | rfl := member <;> exact ⟨by decide, by decide⟩
      rate := by decide
      staked := by decide
      unbondingPeriod := by decide
      pendingRewards := by decide }
  · exact ⟨by decide, by decide, by decide⟩
  · exact ⟨by decide, by decide, by decide, by decide⟩
  · exact ⟨by decide, by decide⟩
  · decide
  · refine ⟨by decide, ?_⟩
    intro share member
    rw [List.mem_singleton.mp member]
    exact (by decide : Width.max 128 < Width.limit 128)
  · exact (by decide : Width.max 128 < Width.limit 128)

end Document

end LiquidStaking
