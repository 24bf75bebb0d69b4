import LiquidStaking.Allocation
import LiquidStaking.Proofs.Arithmetic

/-!
# What an allocation adds up to

Every division of a total among a set of validators that is not empty adds up
to exactly that total, whatever the validators hold; and there is one for every
amount, if the weights sum to a positive amount.
-/

namespace LiquidStaking

namespace Allocation

def sum (shares : Allocation) : Nat := Width.total (shares.map Share.amount)

@[simp] theorem sum_nil : sum [] = 0 := rfl

@[simp] theorem sum_cons (share : Share) (shares : Allocation) :
    sum (share :: shares) = share.amount + sum shares := rfl

theorem total?_eq_some {shares : Allocation} {total : Amount} :
    total? shares = some total ↔ sum shares = total ∧ sum shares < Width.limit 128 :=
  Width.narrow?_eq_some

theorem split?_cons₂ (total weights allocated : Nat) (first second : Validator)
    (rest : List Validator) :
    split? total weights allocated (first :: second :: rest) = (do
      let amount ← Width.mulDivFloor? total first.weight weights
      let allocated ← Width.add? 128 allocated amount
      let shares ← split? total weights allocated (second :: rest)
      return ⟨first.address, amount⟩ :: shares) := rfl

theorem split?_sum {total weights allocated : Nat} {validators : List Validator}
    {shares : Allocation} (staffed : validators ≠ [])
    (divided : split? total weights allocated validators = some shares) :
    allocated + sum shares = total ∧ shares.length = validators.length := by
  induction validators generalizing allocated shares with
  | nil => exact absurd rfl staffed
  | cons validator rest ih =>
      cases rest with
      | nil =>
          simp only [split?, Width.sub?, Option.bind_eq_bind, Option.bind_eq_some_iff] at divided
          obtain ⟨amount, taken, result⟩ := divided
          split at taken
          · cases taken
            cases result
            simp only [sum_cons, sum_nil, List.length_cons, List.length_nil, and_true]
            omega
          · cases taken
      | cons second rest =>
          simp only [split?_cons₂, Option.bind_eq_bind, Option.bind_eq_some_iff] at divided
          obtain ⟨amount, -, next, added, later, recursive, result⟩ := divided
          obtain ⟨rfl, -⟩ := Width.narrow?_eq_some.mp added
          cases result
          obtain ⟨sums, lengths⟩ := ih (List.cons_ne_nil _ _) recursive
          refine ⟨?_, by simp [lengths]⟩
          simp only [sum_cons]
          lia

theorem byWeight?_sum {total : Amount} {validators : List Validator} {shares : Allocation}
    (staffed : validators ≠ []) (divided : byWeight? total validators = some shares) :
    sum shares = total ∧ shares.length = validators.length := by
  simp only [byWeight?, Option.bind_eq_bind, Option.bind_eq_some_iff] at divided
  obtain ⟨weights, -, divided⟩ := divided
  obtain ⟨sums, lengths⟩ := split?_sum staffed divided
  exact ⟨by omega, lengths⟩

/-- A weighted share is rounded down, so the shares given out and the weights left
never ask for more than the total. -/
theorem split?_isSome {total weights allocated : Nat} {validators : List Validator}
    (amount : total < Width.limit 128) (weighty : 0 < weights) (fits : weights < Width.limit 128)
    (covered : allocated * weights +
      total * Width.total (validators.map Validator.weight) ≤ total * weights) :
    ∃ shares, split? total weights allocated validators = some shares := by
  induction validators generalizing allocated with
  | nil => exact ⟨[], rfl⟩
  | cons validator rest ih =>
      rw [List.map_cons, Width.total_cons, Nat.mul_add] at covered
      cases rest with
      | nil =>
          have within : allocated ≤ total := Nat.le_of_mul_le_mul_right (by omega) weighty
          simp [split?, Width.sub?, within]
      | cons second rest =>
          have light : total * validator.weight ≤ total * weights := by omega
          have floored := Nat.div_mul_le_self (total * validator.weight) weights
          have paid : (allocated + total * validator.weight / weights) * weights +
              total * Width.total ((second :: rest).map Validator.weight) ≤ total * weights := by
            rw [Nat.add_mul]
            omega
          have within : allocated + total * validator.weight / weights ≤ total :=
            Nat.le_of_mul_le_mul_right (by omega) weighty
          have product : total * validator.weight < Width.limit 256 := by
            rw [← Width.limit_mul 128 128]
            exact Nat.lt_of_le_of_lt light (Nat.mul_lt_mul'' amount fits)
          obtain ⟨shares, divided⟩ := ih paid
          have share : Width.mulDivFloor? total validator.weight weights =
              some (total * validator.weight / weights) := by
            rw [Width.mulDivFloor?_of_lt product]
            exact Width.quotient?_eq_some.mpr ⟨weighty, rfl, by omega⟩
          have added : Width.add? 128 allocated (total * validator.weight / weights) =
              some (allocated + total * validator.weight / weights) :=
            Width.narrow?_of_lt (by omega)
          exact ⟨_, by rw [split?_cons₂, share, Option.bind_eq_bind, Option.bind_some, added,
            Option.bind_some, divided]; rfl⟩

theorem byWeight?_isSome {total : Amount} {validators : List Validator}
    (amount : total < Width.limit 128)
    (weighty : 0 < Width.total (validators.map Validator.weight))
    (fits : Width.total (validators.map Validator.weight) < Width.limit 128) :
    ∃ shares, byWeight? total validators = some shares := by
  have covered : 0 * Width.total (validators.map Validator.weight) +
      total * Width.total (validators.map Validator.weight) ≤
        total * Width.total (validators.map Validator.weight) :=
    Nat.le_of_eq (by rw [Nat.zero_mul, Nat.zero_add])
  obtain ⟨shares, divided⟩ := split?_isSome amount weighty fits covered
  exact ⟨shares, by rw [byWeight?, Width.sum?, Width.narrow?_of_lt fits]; exact divided⟩

/-! ## Undelegations -/

def cutOff (shares : Allocation) (validators : List Validator) : Nat :=
  Width.total (List.zipWith (fun share validator => share.amount - validator.delegated)
    shares validators)

theorem cutOff_cons (share : Share) (shares : Allocation) (validator : Validator)
    (validators : List Validator) :
    cutOff (share :: shares) (validator :: validators) =
      (share.amount - validator.delegated) + cutOff shares validators := rfl

theorem capped_cons (share : Share) (shares : Allocation) (validator : Validator)
    (validators : List Validator) :
    capped (share :: shares) (validator :: validators) =
      { share with amount := min share.amount validator.delegated } ::
        capped shares validators := rfl

/-- The shares by weight are cut down, the excess is spread, and the last takes what
is left over. -/
theorem withinHoldings?_eq (total : Amount) (validators : List Validator) :
    withinHoldings? total validators = (byWeight? total validators).bind fun weighted =>
      (Width.narrow? 128 (cutOff weighted validators)).bind fun excess =>
        addToLast? (spread excess (capped weighted validators) validators).2
          (spread excess (capped weighted validators) validators).1 := rfl

theorem withinHoldings?_steps {total : Amount} {validators : List Validator} {shares : Allocation}
    (divided : withinHoldings? total validators = some shares) :
    ∃ weighted, byWeight? total validators = some weighted ∧
      cutOff weighted validators < Width.limit 128 ∧
      addToLast? (spread (cutOff weighted validators) (capped weighted validators) validators).2
        (spread (cutOff weighted validators) (capped weighted validators) validators).1 =
          some shares := by
  simp only [withinHoldings?_eq, Option.bind_eq_some_iff] at divided
  obtain ⟨weighted, byWeight, excess, cut, added⟩ := divided
  obtain ⟨rfl, fits⟩ := Width.narrow?_eq_some.mp cut
  exact ⟨weighted, byWeight, fits, added⟩

theorem sum_capped {shares : Allocation} {validators : List Validator}
    (lengths : shares.length = validators.length) :
    sum (capped shares validators) + cutOff shares validators = sum shares ∧
      (capped shares validators).length = validators.length := by
  induction shares generalizing validators with
  | nil => cases validators <;> simp_all [capped, cutOff, sum]
  | cons share shares ih =>
      cases validators with
      | nil => simp at lengths
      | cons validator validators =>
          obtain ⟨sums, lengths⟩ := ih (by simpa using lengths)
          rw [capped_cons, cutOff_cons, sum_cons, sum_cons, List.length_cons, List.length_cons,
            lengths]
          exact ⟨by lia, rfl⟩

theorem sum_spread (excess : Amount) (shares : Allocation) (validators : List Validator) :
    sum (spread excess shares validators).1 + (spread excess shares validators).2 =
        sum shares + excess ∧
      (spread excess shares validators).1.length = shares.length := by
  induction shares generalizing excess validators with
  | nil => cases validators <;> simp [spread]
  | cons share shares ih =>
      cases validators with
      | nil => simp [spread]
      | cons validator validators =>
          obtain ⟨sums, lengths⟩ :=
            ih (excess - min excess (validator.delegated - share.amount)) validators
          simp only [spread, sum_cons, List.length_cons, lengths, and_true]
          lia

theorem addToLast?_sum {extra : Amount} {shares result : Allocation} (staffed : shares ≠ [])
    (added : addToLast? extra shares = some result) : sum result = sum shares + extra := by
  induction shares generalizing result with
  | nil => exact absurd rfl staffed
  | cons share rest ih =>
      cases rest with
      | nil =>
          simp only [addToLast?, Option.bind_eq_bind, Option.bind_eq_some_iff] at added
          obtain ⟨amount, grown, result⟩ := added
          obtain ⟨rfl, -⟩ := Width.narrow?_eq_some.mp grown
          cases result
          simp
      | cons second rest =>
          simp only [addToLast?, Option.bind_eq_bind, Option.bind_eq_some_iff] at added
          obtain ⟨later, recursive, result⟩ := added
          cases result
          have := ih (List.cons_ne_nil _ _) recursive
          simp only [sum_cons] at this ⊢
          lia

theorem withinHoldings?_sum {total : Amount} {validators : List Validator} {shares : Allocation}
    (staffed : validators ≠ []) (divided : withinHoldings? total validators = some shares) :
    sum shares = total := by
  obtain ⟨weighted, byWeight, -, added⟩ := withinHoldings?_steps divided
  obtain ⟨weightedSum, lengths⟩ := byWeight?_sum staffed byWeight
  obtain ⟨cappedSum, cappedLength⟩ := sum_capped lengths
  obtain ⟨spreadSum, spreadLength⟩ := sum_spread (cutOff weighted validators)
    (capped weighted validators) validators
  have placed : (spread (cutOff weighted validators) (capped weighted validators)
      validators).1 ≠ [] := by
    intro none
    rw [none, cappedLength, List.length_nil] at spreadLength
    exact staffed (List.length_eq_zero_iff.mp spreadLength.symm)
  have := addToLast?_sum placed added
  omega

end Allocation

end LiquidStaking
