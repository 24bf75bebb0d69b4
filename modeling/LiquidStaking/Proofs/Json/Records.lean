import LiquidStaking.Proofs.Json.Documents
import LiquidStaking.Proofs.Ordered
import LiquidStaking.Records

/-!
# Records read back

A record whose numbers keep to their widths is read back from what is stored of
it.  Its texts may be any.
-/

namespace LiquidStaking

/-! ## Widths -/

def Validator.Fits (v : Validator) : Prop :=
  v.weight < Width.limit 64 ∧ v.delegated < Width.limit 128

structure Chain.Fits (c : Chain) : Prop where
  validators : ∀ v ∈ c.validators, v.Fits
  rate : c.rate.value.Fits
  staked : c.staked < Width.limit 128
  unbondingPeriod : c.unbondingPeriod < Width.limit 64
  pendingRewards : c.pendingRewards < Width.limit 128

structure DepositBatch.Fits (b : DepositBatch) : Prop where
  epoch : b.epoch < Width.limit 64
  amount : b.amount < Width.limit 128
  reinvested : b.reinvested < Width.limit 128

structure RedemptionBatch.Fits (b : RedemptionBatch) : Prop where
  epoch : b.epoch < Width.limit 64
  burned : b.burned < Width.limit 128
  redeemable : b.redeemable < Width.limit 128
  completion : ∀ time ∈ b.completion, time < Width.limit 64

structure Claim.Fits (c : Claim) : Prop where
  epoch : c.epoch < Width.limit 64
  amount : c.amount < Width.limit 128

namespace Document

/-! ## Single values -/

theorem asNat?_nat {n : Nat} (fits : n < Width.limit 64) : Json.asNat? (.nat n) = some n :=
  if_pos fits

theorem asAmount?_amount {n : Nat} (fits : n < Width.limit 128) :
    Json.asAmount? (.amount n) = some n := by
  simp [Json.amount, Json.asAmount?, Digits.ofNat, Digits.readPlain?_render fits]

theorem asOptional?_string (text : Option String) :
    Json.asOptional? Json.asString? (Json.ofOption .string text) = some text := by
  cases text <;> rfl

theorem asOptional?_nat {n : Option Nat} (fits : ∀ n' ∈ n, n' < Width.limit 64) :
    Json.asOptional? Json.asNat? (Json.ofOption .nat n) = some n := by
  cases n with
  | none => rfl
  | some n => simp [Json.ofOption, Json.asOptional?, asNat?_nat (fits n rfl)]

theorem faithful_rate {rate : Rate} (fits : rate.value.Fits) : Faithful rate where
  writable := trivial
  shallow := Nat.zero_le _
  means := by
    have read := Digits.readWidth?_render fits
    simp [toJson, ofJson?, Json.asString?, Decimal.rawText, Decimal.ofRawText?, Digits.ofNat, read]

theorem ofJson?_depositStatus (status : DepositStatus) : ofJson? (toJson status) = some status := by
  cases status <;> decide

theorem ofJson?_redemptionStatus (status : RedemptionStatus) :
    ofJson? (toJson status) = some status := by
  cases status <;> decide

theorem ofJson?_claimStatus (status : ClaimStatus) : ofJson? (toJson status) = some status := by
  cases status <;> decide

/-! ## Lists -/

variable {α : Type} [Document α]

theorem depth_list {values : List α} {most : Nat} (each : ∀ v ∈ values, (toJson v).depth ≤ most) :
    (toJson values).depth ≤ most + 1 := by
  refine Nat.succ_le_succ (Json.depthOfItems_le fun item member => ?_)
  obtain ⟨v, inList, rfl⟩ := List.mem_map.mp member
  exact each v inList

theorem faithful_list {values : List α} (each : ∀ v ∈ values, Faithful v)
    (shallow : ∀ v ∈ values, (toJson v).depth < Json.maxDepth) : Faithful values where
  writable := by
    refine Json.writableItems_of_all fun item member => ?_
    obtain ⟨v, inList, rfl⟩ := List.mem_map.mp member
    exact (each v inList).writable
  shallow := by
    have each : ∀ v ∈ values, (toJson v).depth ≤ Json.maxDepth - 1 := fun v member =>
      Nat.le_sub_one_of_lt (shallow v member)
    exact depth_list each
  means := mapM_eq_some.mpr (List.forall₂_map_left_iff.mpr
    (List.forall₂_same.mpr fun v member => (each v member).means))

theorem faithful_texts (texts : List String) : Faithful texts :=
  faithful_list (fun _ _ => ⟨trivial, Nat.zero_le _, rfl⟩) fun _ _ =>
    (by decide : 0 < Json.maxDepth)

theorem faithful_epochs {epochs : List Epoch} (fits : ∀ epoch ∈ epochs, epoch < Width.limit 64) :
    Faithful epochs :=
  faithful_list
    (fun epoch member => ⟨fits epoch member, Nat.zero_le _, asNat?_nat (fits epoch member)⟩)
    fun _ _ => (by decide : 0 < Json.maxDepth)

/-! ## Records -/

theorem named_nil (asked : String) : Members.named [] asked = [] := rfl

theorem named_cons (name : String) (member : Json) (members : Members) (asked : String) :
    Members.named ((name, member) :: members) asked =
      if name = asked then member :: members.named asked else members.named asked := by
  rw [Members.named, Members.named, List.filterMap_cons]
  split <;> simp_all

theorem writable_option {β : Type} {f : β → Json} {value : Option β}
    (each : ∀ v ∈ value, (f v).Writable) : (Json.ofOption f value).Writable := by
  cases value with
  | none => trivial
  | some v => exact each v rfl

theorem depth_option {β : Type} {f : β → Json} (flat : ∀ v, (f v).depth = 0) (value : Option β) :
    (Json.ofOption f value).depth = 0 := by
  cases value with
  | none => rfl
  | some v => exact flat v

theorem faithful_validator {v : Validator} (fits : v.Fits) : Faithful v where
  writable := ⟨trivial, fits.1, trivial, trivial⟩
  shallow := (by decide : 1 ≤ Json.maxDepth)
  means := by
    unfold instDocumentValidator
    simp only [Json.asObject?, Members.string?, Members.nat?, Members.amount?, Members.get?,
      named_cons, named_nil, String.reduceEq, ↓reduceIte, Json.asString?, asNat?_nat fits.1,
      asAmount?_amount fits.2, Option.bind_eq_bind, Option.bind_some, Option.pure_def]

theorem faithful_validators {vs : List Validator} (fits : ∀ v ∈ vs, v.Fits) : Faithful vs :=
  faithful_list (fun v member => faithful_validator (fits v member))
    fun _ _ => (by decide : 1 < Json.maxDepth)

theorem faithful_chain {c : Chain} (fits : c.Fits) : Faithful c where
  writable :=
    ⟨trivial, trivial, trivial, trivial, trivial, writable_option fun _ _ => trivial,
      writable_option fun _ _ => trivial, trivial, (faithful_validators fits.validators).writable,
      trivial, trivial, trivial, trivial, trivial, fits.unbondingPeriod, trivial, trivial⟩
  shallow := by
    have validators : (toJson c.validators).depth ≤ 2 := depth_list fun _ _ => Nat.le_refl 1
    have address (address : Option Address) := depth_option (f := .string) (fun _ => rfl) address
    have rate : (toJson c.rate).depth = 0 := rfl
    have amount (n : Amount) : (Json.amount n).depth = 0 := rfl
    unfold instDocumentChain
    simp only [Json.depth, Json.depthOfMembers, address, rate, amount, Json.maxDepth]
    omega
  means := by
    unfold instDocumentChain
    dsimp only
    rw [Json.asObject?, Option.bind_eq_bind, Option.bind_some]
    -- All members are looked up first: each that is bound has the rest gone through again.
    simp only [Members.string?, Members.nat?, Members.amount?, Members.read?, Members.bool?,
      Members.optionalString?, Members.getOptional?, Members.get?, named_cons, named_nil,
      String.reduceEq, ↓reduceIte]
    simp only [Json.asString?, Json.asBool?, asOptional?_string, asNat?_nat fits.unbondingPeriod,
      asAmount?_amount fits.staked, asAmount?_amount fits.pendingRewards,
      (faithful_rate fits.rate).means, (faithful_validators fits.validators).means,
      Option.bind_eq_bind, Option.bind_some, Option.pure_def]

theorem faithful_deposit {batch : DepositBatch} (fits : batch.Fits) : Faithful batch where
  writable := ⟨trivial, trivial, fits.epoch, trivial, trivial, trivial, trivial⟩
  shallow := (by decide : 1 ≤ Json.maxDepth)
  means := by
    unfold instDocumentDepositBatch
    simp only [Json.asObject?, Members.string?, Members.nat?, Members.amount?, Members.read?,
      Members.get?, named_cons, named_nil, String.reduceEq, ↓reduceIte, Json.asString?,
      asNat?_nat fits.epoch, asAmount?_amount fits.amount, asAmount?_amount fits.reinvested,
      ofJson?_depositStatus, Option.bind_eq_bind, Option.bind_some, Option.pure_def]

theorem faithful_redemption {batch : RedemptionBatch} (fits : batch.Fits) : Faithful batch where
  writable :=
    ⟨trivial, trivial, fits.epoch, trivial, trivial, writable_option fits.completion, trivial,
      (faithful_texts batch.members).writable, trivial⟩
  shallow := by
    have members : (toJson batch.members).depth ≤ 1 := depth_list fun _ _ => Nat.zero_le _
    have completion := depth_option (f := .nat) (fun _ => rfl) batch.completion
    have status : (toJson batch.status).depth = 0 := rfl
    have amount (n : Amount) : (Json.amount n).depth = 0 := rfl
    unfold instDocumentRedemptionBatch
    simp only [Json.depth, Json.depthOfMembers, completion, status, amount, Json.maxDepth]
    omega
  means := by
    unfold instDocumentRedemptionBatch
    simp only [Json.asObject?, Members.string?, Members.nat?, Members.amount?, Members.read?,
      Members.optionalNat?, Members.getOptional?, Members.get?, named_cons, named_nil,
      String.reduceEq, ↓reduceIte, Json.asString?, asNat?_nat fits.epoch,
      asAmount?_amount fits.burned, asAmount?_amount fits.redeemable,
      asOptional?_nat fits.completion, ofJson?_redemptionStatus,
      (faithful_texts batch.members).means, Option.bind_eq_bind, Option.bind_some,
      Option.pure_def]

theorem faithful_claim {claim : Claim} (fits : claim.Fits) : Faithful claim where
  writable := ⟨trivial, trivial, fits.epoch, trivial, trivial, trivial, trivial, trivial⟩
  shallow := (by decide : 1 ≤ Json.maxDepth)
  means := by
    unfold instDocumentClaim
    simp only [Json.asObject?, Members.string?, Members.nat?, Members.amount?, Members.read?,
      Members.get?, named_cons, named_nil, String.reduceEq, ↓reduceIte, Json.asString?,
      asNat?_nat fits.epoch, asAmount?_amount fits.amount, ofJson?_claimStatus,
      Option.bind_eq_bind, Option.bind_some, Option.pure_def]

end Document

end LiquidStaking
