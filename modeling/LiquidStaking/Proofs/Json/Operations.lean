import LiquidStaking.Proofs.Json.Records
import LiquidStaking.Store.Registry

/-!
# Operations read back

An operation is stored until there is word of it.  Its kind is the name of the only
member of its document, and what it holds is read back like a record.
-/

namespace LiquidStaking

def Share.Fits (share : Share) : Prop := share.amount < Width.limit 128

def RemoteOp.Fits : RemoteOp → Prop
  | .transferDeposit _ epoch amount => epoch < Width.limit 64 ∧ amount < Width.limit 128
  | .delegate _ epoch shares => epoch < Width.limit 64 ∧ ∀ share ∈ shares, share.Fits
  | .undelegate _ epoch shares => epoch < Width.limit 64 ∧ ∀ share ∈ shares, share.Fits
  | .withdrawUnbonded _ epoch amount => epoch < Width.limit 64 ∧ amount < Width.limit 128
  | .withdrawRewards _ _ => True
  | .transferRewards _ amount => amount < Width.limit 128
  | .setWithdrawAddress _ => True

namespace Document

theorem faithful_share {share : Share} (fits : share.Fits) : Faithful share where
  writable := ⟨trivial, trivial, trivial⟩
  shallow := (by decide : 1 ≤ Json.maxDepth)
  means := by
    unfold instDocumentShare
    simp only [Json.asObject?, Members.string?, Members.amount?, Members.get?, named_cons,
      named_nil, String.reduceEq, ↓reduceIte, Json.asString?, asAmount?_amount fits,
      Option.bind_eq_bind, Option.bind_some, Option.pure_def]

theorem faithful_shares {shares : Allocation} (fits : ∀ share ∈ shares, share.Fits) :
    Faithful shares :=
  faithful_list (fun share member => faithful_share (fits share member))
    fun _ _ => (by decide : 1 < Json.maxDepth)

/-! ## What an operation holds -/

section Members

variable {op : RemoteOp} (fits : op.Fits)

include fits

theorem writable_members : (Json.object op.members).Writable := by
  cases op with
  | transferDeposit id epoch amount => exact ⟨trivial, fits.1, trivial, trivial⟩
  | delegate id epoch shares =>
      exact ⟨trivial, fits.1, (faithful_shares fits.2).writable, trivial⟩
  | undelegate id epoch shares =>
      exact ⟨trivial, fits.1, (faithful_shares fits.2).writable, trivial⟩
  | withdrawUnbonded id epoch amount => exact ⟨trivial, fits.1, trivial, trivial⟩
  | withdrawRewards id validators =>
      exact ⟨trivial, (faithful_texts validators).writable, trivial⟩
  | transferRewards id amount => exact ⟨trivial, trivial, trivial⟩
  | setWithdrawAddress id => exact ⟨trivial, trivial⟩

theorem ofMembers?_members : RemoteOp.ofMembers? op.name op.members = some op := by
  have listed {shares : Allocation} (fits : ∀ share ∈ shares, share.Fits) :=
    (faithful_shares fits).means
  cases op <;>
    simp only [RemoteOp.ofMembers?, RemoteOp.name, RemoteOp.members, String.reduceEq, ↓reduceIte,
      Members.string?, Members.nat?, Members.amount?, Members.read?, Members.get?, named_cons,
      named_nil, Json.asString?, Option.bind_eq_bind, Option.bind_some, Option.pure_def]
  case transferDeposit | withdrawUnbonded =>
    rw [asNat?_nat fits.1, asAmount?_amount fits.2]
    rfl
  case delegate | undelegate =>
    rw [asNat?_nat fits.1, Option.bind_some, listed fits.2]
    rfl
  case withdrawRewards id validators =>
    rw [(faithful_texts validators).means]
    rfl
  case transferRewards =>
    rw [asAmount?_amount fits]
    rfl

end Members

theorem depth_members (op : RemoteOp) : (Json.object op.members).depth ≤ 3 := by
  have shares (shares : Allocation) : (toJson shares).depth ≤ 2 :=
    depth_list fun _ _ => Nat.le_refl 1
  have texts (texts : List String) : (toJson texts).depth ≤ 1 := depth_list fun _ _ => Nat.zero_le _
  have amount (n : Amount) : (Json.amount n).depth = 0 := rfl
  cases op <;> simp only [RemoteOp.members, Json.depth, Json.depthOfMembers, amount]
  case delegate _ _ allocation | undelegate _ _ allocation =>
    have := shares allocation
    omega
  case withdrawRewards _ validators =>
    have := texts validators
    omega
  all_goals omega

theorem faithful_op {op : RemoteOp} (fits : op.Fits) : Faithful op where
  writable := ⟨writable_members fits, trivial⟩
  shallow := by
    have held := depth_members op
    unfold instDocumentRemoteOp
    simp only [Json.variant, Json.depth, Json.depthOfMembers, Json.maxDepth] at held ⊢
    omega
  means := ofMembers?_members fits

theorem faithful_stashed {port : String} {op : RemoteOp} (fits : op.Fits) :
    Faithful (Stashed.mk port op) where
  writable := ⟨trivial, (faithful_op fits).writable, trivial⟩
  shallow := by
    have held := depth_members op
    unfold instDocumentStashed instDocumentRemoteOp
    simp only [Json.variant, Json.depth, Json.depthOfMembers, Json.maxDepth] at held ⊢
    omega
  means := by
    have read := (faithful_op fits).means
    unfold instDocumentStashed
    simp only [Json.asObject?, Members.string?, Members.read?, Members.get?, named_cons, named_nil,
      String.reduceEq, ↓reduceIte, Json.asString?, read, Option.bind_eq_bind, Option.bind_some,
      Option.pure_def]

end Document

end LiquidStaking
