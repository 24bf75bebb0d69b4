import LiquidStaking.Proofs.Shares

/-!
# Fair divisions

By weight, every validator but the last is given its portion rounded down, and the
last what remains.  Rounding down loses less than one unit for each validator, so
there is always enough left for the portion of the last, and less than one unit
for each of the others beside it.
-/

namespace LiquidStaking

/-! ## Sums of floors -/

namespace Width

theorem total_div_add_mod (amount divisor : Nat) (ns : List Nat) :
    divisor * total (ns.map fun n => amount * n / divisor) +
        total (ns.map fun n => amount * n % divisor) = amount * total ns := by
  induction ns with
  | nil => rfl
  | cons n ns ih =>
      have own := Nat.div_add_mod (amount * n) divisor
      simp only [List.map_cons, total_cons, Nat.mul_add]
      omega

theorem total_mod_le (amount : Nat) {divisor : Nat} (positive : 0 < divisor) (ns : List Nat) :
    total (ns.map fun n => amount * n % divisor) ≤ ns.length * (divisor - 1) := by
  have each : ∀ rest ∈ ns.map fun n => amount * n % divisor, rest ≤ divisor - 1 := by
    intro rest member
    obtain ⟨n, -, rfl⟩ := List.mem_map.mp member
    exact Nat.le_sub_one_of_lt (Nat.mod_lt _ positive)
  simpa using total_le each

/-- Portions rounded down never exceed the whole, and miss less than one unit each. -/
theorem portions_close (amount : Nat) {ns : List Nat} (positive : 0 < total ns) :
    total (ns.map fun n => amount * n / total ns) ≤ amount ∧
      amount < total (ns.map fun n => amount * n / total ns) + ns.length := by
  have parts := total_div_add_mod amount (total ns) ns
  have rests := total_mod_le amount positive ns
  generalize total (ns.map fun n => amount * n / total ns) = floors at parts ⊢
  generalize total (ns.map fun n => amount * n % total ns) = lost at parts rests
  have present : 0 < ns.length := by
    cases ns with
    | nil => cases positive
    | cons n ns => exact Nat.succ_pos _
  have less : lost < total ns * ns.length := by
    rw [Nat.mul_comm]
    exact Nat.lt_of_le_of_lt rests
      (Nat.mul_lt_mul_of_pos_left (Nat.sub_lt positive Nat.one_pos) present)
  constructor
  · apply Nat.le_of_mul_le_mul_left (c := total ns) _ positive
    rw [Nat.mul_comm (total ns) amount]
    omega
  · apply Nat.lt_of_mul_lt_mul_left (a := total ns)
    rw [Nat.mul_comm (total ns) amount, Nat.mul_add]
    omega

end Width

/-! ## Weights -/

def weightOf (validators : List Validator) : Nat :=
  Width.total (validators.map Validator.weight)

/-- A set whose weights divide every amount: there is somebody to give to, every
weight is a positive number of 64 bits, and 64 bits can count them. -/
structure Weighable (validators : List Validator) : Prop where
  present : validators ≠ []
  few : validators.length < Width.limit 64
  weighty : ∀ validator ∈ validators, 0 < validator.weight
  light : ∀ validator ∈ validators, validator.weight < Width.limit 64

namespace Weighable

variable {validators : List Validator}

theorem weightOf_pos (set : Weighable validators) : 0 < weightOf validators := by
  apply Width.total_pos
  · simpa using set.present
  · simpa using set.weighty

theorem weightOf_lt (set : Weighable validators) : weightOf validators < Width.limit 128 := by
  apply Width.total_lt
  · simpa using set.few
  · simpa using set.light

end Weighable

/-! ## Shares by weight -/

namespace Allocation

variable {validators : List Validator} {shares : Allocation} {total : Amount}

def portion (total : Amount) (validators : List Validator) (validator : Validator) : Amount :=
  total * validator.weight / weightOf validators

theorem split?_floors {weights allocated : Nat}
    (divided : split? total weights allocated validators = some shares) :
    shares.dropLast.map Share.amount =
      validators.dropLast.map fun validator => total * validator.weight / weights := by
  induction validators generalizing allocated shares with
  | nil =>
      cases divided
      rfl
  | cons validator rest ih =>
      cases rest with
      | nil =>
          simp only [split?, Option.bind_eq_bind, Option.bind_eq_some_iff] at divided
          obtain ⟨amount, -, result⟩ := divided
          cases result
          rfl
      | cons second rest =>
          simp only [split?_cons₂, Option.bind_eq_bind, Option.bind_eq_some_iff] at divided
          obtain ⟨amount, floored, next, -, later, recursive, result⟩ := divided
          cases result
          have left : later ≠ [] := (split?_matches recursive).ne_nil (List.cons_ne_nil _ _)
          rw [List.dropLast_cons_of_ne_nil left, List.dropLast_cons_cons, List.map_cons,
            List.map_cons, ih recursive, Width.floor_of_mulDivFloor? floored]

theorem byWeight?_floors (divided : byWeight? total validators = some shares) :
    shares.dropLast.map Share.amount = validators.dropLast.map (portion total validators) := by
  simp only [byWeight?, Option.bind_eq_bind, Option.bind_eq_some_iff] at divided
  obtain ⟨weights, weighed, divided⟩ := divided
  obtain ⟨rfl, -⟩ := Width.narrow?_eq_some.mp weighed
  exact split?_floors divided

theorem portions_close (total : Amount) (set : Weighable validators) :
    Width.total (validators.map (portion total validators)) ≤ total ∧
      total < Width.total (validators.map (portion total validators)) + validators.length := by
  have close := Width.portions_close total set.weightOf_pos
  rw [List.map_map, List.length_map] at close
  exact close

/-- Each validator but the last is given its portion rounded down; the last is given
the rest, which is its own portion and less than one unit for each other validator. -/
theorem divided_by_weight (amount : total < Width.limit 128) (set : Weighable validators) :
    ∃ (front : Allocation) (last : Share), byWeight? total validators = some (front ++ [last]) ∧
      Matches (front ++ [last]) validators ∧
      front.map Share.amount = validators.dropLast.map (portion total validators) ∧
      sum (front ++ [last]) = total ∧
      portion total validators (validators.getLast set.present) ≤ last.amount ∧
      last.amount ≤ portion total validators (validators.getLast set.present) +
        (validators.length - 1) := by
  obtain ⟨shares, divided⟩ := byWeight?_isSome amount set.weightOf_pos set.weightOf_lt
  have matched := byWeight?_matches divided
  have floors := byWeight?_floors divided
  have summed := (byWeight?_sum set.present divided).1
  have given := matched.ne_nil set.present
  have joined := List.dropLast_append_getLast given
  refine ⟨shares.dropLast, shares.getLast given, ?_, ?_, floors, ?_, ?_⟩
  · rw [joined]
    exact divided
  · rw [joined]
    exact matched
  · rw [joined]
    exact summed
  · -- What the others are given and what the portions add up to differ in the last place only.
    have others := Width.total_dropLast Share.amount given
    have portions := Width.total_dropLast (portion total validators) set.present
    have close := portions_close total set
    have present := List.length_pos_iff.mpr set.present
    rw [floors] at others
    rw [sum, others] at summed
    constructor
    · lia
    · lia

/-- The largest amount, divided by weights of which two are as large as can be: the
light validator between them gets its portion, and the last at most two units more
than its own. -/
theorem divided_by_weight_extreme :
    Width.max 128 < Width.limit 128 ∧
      Weighable [⟨"val0", Width.max 64, 0⟩, ⟨"val1", 1, 0⟩, ⟨"val2", Width.max 64, 0⟩] ∧
      ∃ (front : Allocation) (last : Share),
        byWeight? (Width.max 128)
          [⟨"val0", Width.max 64, 0⟩, ⟨"val1", 1, 0⟩, ⟨"val2", Width.max 64, 0⟩] =
            some (front ++ [last]) ∧
        front.map Share.amount =
          [Width.max 128 * Width.max 64 / (2 * Width.max 64 + 1),
            Width.max 128 / (2 * Width.max 64 + 1)] ∧
        sum (front ++ [last]) = Width.max 128 ∧
        Width.max 128 * Width.max 64 / (2 * Width.max 64 + 1) ≤ last.amount ∧
        last.amount ≤ Width.max 128 * Width.max 64 / (2 * Width.max 64 + 1) + 2 := by
  have amount : Width.max 128 < Width.limit 128 := by decide
  have set : Weighable
      [⟨"val0", Width.max 64, 0⟩, ⟨"val1", 1, 0⟩, ⟨"val2", Width.max 64, 0⟩] :=
    ⟨by decide, by decide, by decide, by decide⟩
  obtain ⟨front, last, divided, -, floors, summed, enough, close⟩ := divided_by_weight amount set
  exact ⟨amount, set, front, last, divided, floors.trans (by decide), summed, enough, close⟩

end Allocation

end LiquidStaking
