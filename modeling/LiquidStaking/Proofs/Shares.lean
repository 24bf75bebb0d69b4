import LiquidStaking.Proofs.Allocation
import LiquidStaking.Proofs.Ordered
import LiquidStaking.Hub.Registration
import Mathlib.Data.List.Perm.Lattice
import Mathlib.Data.List.Nodup

/-!
# Shares by position

An allocation lists one share for each validator of the set it was made for, in
the order of the set.  As long as the addresses of the set are the same, what is
booked to it arrives in full; and a division of what the validators hold asks
none of them for more than it holds.
-/

namespace LiquidStaking

variable {validators : List Validator} {shares : Allocation}

def heldBy (validators : List Validator) : Nat :=
  Width.total (validators.map Validator.delegated)

@[simp] theorem heldBy_nil : heldBy [] = 0 := rfl

@[simp] theorem heldBy_cons (validator : Validator) (validators : List Validator) :
    heldBy (validator :: validators) = validator.delegated + heldBy validators := rfl

namespace Allocation

def Matches (shares : Allocation) (validators : List Validator) : Prop :=
  shares.map Share.validator = validators.map Validator.address

theorem Matches.length (same : shares.Matches validators) : shares.length = validators.length := by
  simpa using congrArg List.length same

theorem Matches.ne_nil (same : shares.Matches validators) (present : validators ≠ []) :
    shares ≠ [] := by
  rintro rfl
  exact present (List.length_eq_zero_iff.mp same.length.symm)

theorem Matches.congr {others : List Validator} (same : shares.Matches validators)
    (addresses : others.map Validator.address = validators.map Validator.address) :
    shares.Matches others := same.trans addresses.symm

/-! ## Divisions match -/

theorem split?_matches {total weights allocated : Nat}
    (divided : split? total weights allocated validators = some shares) :
    shares.Matches validators := by
  induction validators generalizing allocated shares with
  | nil => cases divided; rfl
  | cons validator rest ih =>
      cases rest with
      | nil =>
          simp only [split?, Option.bind_eq_bind, Option.bind_eq_some_iff] at divided
          obtain ⟨amount, -, result⟩ := divided
          cases result
          rfl
      | cons second rest =>
          simp only [split?_cons₂, Option.bind_eq_bind, Option.bind_eq_some_iff] at divided
          obtain ⟨amount, -, next, -, later, recursive, result⟩ := divided
          cases result
          exact congrArg (validator.address :: ·) (ih recursive)

theorem byWeight?_matches {total : Amount}
    (divided : byWeight? total validators = some shares) : shares.Matches validators := by
  simp only [byWeight?, Option.bind_eq_bind, Option.bind_eq_some_iff] at divided
  obtain ⟨weights, -, divided⟩ := divided
  exact split?_matches divided

theorem Matches.capped (same : shares.Matches validators) :
    (capped shares validators).Matches validators := by
  induction shares generalizing validators with
  | nil => cases validators <;> simp_all [Matches, Allocation.capped]
  | cons share shares ih =>
      cases validators with
      | nil => cases same
      | cons validator validators =>
          simp only [Matches, List.map_cons, List.cons.injEq] at same
          simp only [Matches, Allocation.capped, List.zipWith_cons_cons, List.map_cons, same.1,
            List.cons.injEq, true_and]
          exact ih same.2

theorem spread_validators (excess : Amount) (shares : Allocation) (validators : List Validator) :
    (spread excess shares validators).1.map Share.validator = shares.map Share.validator := by
  induction shares generalizing excess validators with
  | nil => cases validators <;> rfl
  | cons share shares ih =>
      cases validators with
      | nil => rfl
      | cons validator validators =>
          simp only [spread, List.map_cons]
          rw [ih]

theorem addToLast?_validators {extra : Amount} {result : Allocation}
    (added : addToLast? extra shares = some result) :
    result.map Share.validator = shares.map Share.validator := by
  induction shares generalizing result with
  | nil => cases added; rfl
  | cons share rest ih =>
      cases rest with
      | nil =>
          simp only [addToLast?, Option.bind_eq_bind, Option.bind_eq_some_iff] at added
          obtain ⟨amount, -, result⟩ := added
          cases result
          rfl
      | cons second rest =>
          simp only [addToLast?, Option.bind_eq_bind, Option.bind_eq_some_iff] at added
          obtain ⟨later, recursive, result⟩ := added
          cases result
          exact congrArg (share.validator :: ·) (ih recursive)

theorem withinHoldings?_matches {total : Amount}
    (divided : withinHoldings? total validators = some shares) : shares.Matches validators := by
  obtain ⟨weighted, byWeight, -, added⟩ := withinHoldings?_steps divided
  exact (addToLast?_validators added).trans
    ((spread_validators _ _ _).trans (byWeight?_matches byWeight).capped)

/-! ## Nobody is asked for more than is held -/

def Within (shares : Allocation) (validators : List Validator) : Prop :=
  ∀ share ∈ shares, ∀ validator ∈ validators, validator.address = share.validator →
    share.amount ≤ validator.delegated

instance (shares : Allocation) (validators : List Validator) :
    Decidable (shares.Within validators) :=
  inferInstanceAs (Decidable (∀ share ∈ shares, ∀ validator ∈ validators,
    validator.address = share.validator → share.amount ≤ validator.delegated))

/-- Share by share, what is asked for is held. -/
abbrev Held (shares : Allocation) (validators : List Validator) : Prop :=
  List.Forall₂ (fun share validator => share.amount ≤ validator.delegated) shares validators

theorem Held.capped (lengths : shares.length = validators.length) :
    (capped shares validators).Held validators := by
  induction shares generalizing validators with
  | nil => cases validators <;> simp_all [Allocation.capped]
  | cons share shares ih =>
      cases validators with
      | nil => cases lengths
      | cons validator validators =>
          exact .cons (Nat.min_le_right _ _) (ih (by simpa using lengths))

theorem le_sum {share : Share} (member : share ∈ shares) : share.amount ≤ sum shares := by
  induction shares with
  | nil => cases member
  | cons first rest ih =>
      rw [sum_cons]
      rcases List.mem_cons.mp member with rfl | later
      · exact Nat.le_add_right _ _
      · exact Nat.le_trans (ih later) (Nat.le_add_left _ _)

theorem Held.sum_le (held : shares.Held validators) : sum shares ≤ heldBy validators := by
  induction held with
  | nil => exact Nat.le_refl 0
  | cons covered _ ih => exact Nat.add_le_add covered ih

theorem Held.spread (held : shares.Held validators) (excess : Amount) :
    (spread excess shares validators).1.Held validators ∧
      (spread excess shares validators).2 = excess - (heldBy validators - sum shares) := by
  induction held generalizing excess with
  | nil => exact ⟨.nil, rfl⟩
  | @cons share validator shares validators covered rest ih =>
      have covered : share.amount ≤ validator.delegated := covered
      have less := Held.sum_le rest
      obtain ⟨held, left⟩ := ih (excess - min excess (validator.delegated - share.amount))
      refine ⟨.cons ?_ held, ?_⟩
      · simp only
        lia
      · simp only [Allocation.spread, left, sum_cons, heldBy_cons]
        lia

theorem addToLast?_zero {result : Allocation} (added : addToLast? 0 shares = some result) :
    result = shares := by
  induction shares generalizing result with
  | nil => cases added; rfl
  | cons share rest ih =>
      cases rest with
      | nil =>
          simp only [addToLast?, Option.bind_eq_bind, Option.bind_eq_some_iff] at added
          obtain ⟨amount, grown, result⟩ := added
          obtain ⟨rfl, -⟩ := Width.narrow?_eq_some.mp grown
          cases result
          rfl
      | cons second rest =>
          simp only [addToLast?, Option.bind_eq_bind, Option.bind_eq_some_iff] at added
          obtain ⟨later, recursive, result⟩ := added
          cases result
          rw [ih recursive]

theorem withinHoldings?_held {total : Amount} (staffed : validators ≠ [])
    (covered : total ≤ heldBy validators)
    (divided : withinHoldings? total validators = some shares) : shares.Held validators := by
  obtain ⟨weighted, byWeight, -, added⟩ := withinHoldings?_steps divided
  obtain ⟨sums, lengths⟩ := byWeight?_sum staffed byWeight
  have cut := (sum_capped lengths).1
  obtain ⟨held, left⟩ := (Held.capped lengths).spread (cutOff weighted validators)
  have nothing : (spread (cutOff weighted validators) (capped weighted validators)
      validators).2 = 0 := by
    lia
  rw [nothing] at added
  exact addToLast?_zero added ▸ held

theorem Held.within (held : shares.Held validators) (same : shares.Matches validators)
    (distinct : (validators.map Validator.address).Nodup) : shares.Within validators := by
  induction held with
  | nil => exact nofun
  | @cons share validator shares validators covered _ ih =>
      simp only [Matches, List.map_cons, List.cons.injEq] at same
      obtain ⟨own, same⟩ := same
      obtain ⟨fresh, distinct⟩ := List.nodup_cons.mp distinct
      -- A share of another validator of that address would repeat it.
      have apart {share : Share} (member : share ∈ shares) : share.validator ≠ validator.address :=
        fun equal => fresh (equal ▸ same ▸ List.mem_map_of_mem member)
      intro share' asked validator' listed equal
      rcases List.mem_cons.mp asked with rfl | asked <;>
        rcases List.mem_cons.mp listed with rfl | listed
      · exact covered
      · exact absurd (List.mem_map_of_mem listed) (equal.trans own ▸ fresh)
      · exact absurd equal.symm (apart asked)
      · exact ih same distinct share' asked validator' listed equal

/-! ## Booking -/

theorem book_other (change : Amount → Amount → Amount) (validator : Validator)
    (others : ∀ share ∈ shares, share.validator ≠ validator.address)
    (validators : List Validator) :
    book change shares (validator :: validators) = validator :: book change shares validators := by
  induction shares generalizing validators with
  | nil => rfl
  | cons share shares ih =>
      have other : validator.address ≠ share.validator :=
        (others share List.mem_cons_self).symm
      have skipped : book.bookShare change share (validator :: validators) =
          validator :: book.bookShare change share validators := by
        rw [book.bookShare, if_neg other]
      have later := ih (fun other member => others other (List.mem_cons_of_mem _ member))
        (book.bookShare change share validators)
      simp only [book, List.foldl_cons, skipped] at later ⊢
      exact later

def bookInPlace (change : Amount → Amount → Amount) :
    Allocation → List Validator → List Validator
  | share :: shares, validator :: validators =>
      { validator with delegated := change validator.delegated share.amount } ::
        bookInPlace change shares validators
  | _, validators => validators

theorem Matches.book (change : Amount → Amount → Amount) (same : shares.Matches validators)
    (distinct : (validators.map Validator.address).Nodup) :
    book change shares validators = bookInPlace change shares validators := by
  induction validators generalizing shares with
  | nil =>
      cases shares with
      | nil => rfl
      | cons share shares => cases same
  | cons validator validators ih =>
      cases shares with
      | nil => rfl
      | cons share shares =>
          simp only [Matches, List.map_cons, List.cons.injEq] at same
          obtain ⟨own, same⟩ := same
          obtain ⟨fresh, distinct⟩ := List.nodup_cons.mp distinct
          have others : ∀ other ∈ shares, other.validator ≠ validator.address :=
            fun other member equal => fresh (equal ▸ same ▸ List.mem_map_of_mem member)
          have first : Allocation.book change (share :: shares) (validator :: validators) =
              Allocation.book change shares
                ({ validator with delegated := change validator.delegated share.amount } ::
                  validators) := by
            simp only [Allocation.book, List.foldl_cons, book.bookShare, own, if_true]
          rw [first, book_other change
            { validator with delegated := change validator.delegated share.amount } others,
            ih same distinct]
          rfl

theorem mem_bookInPlace {change : Amount → Amount → Amount} {validator : Validator}
    (member : validator ∈ bookInPlace change shares validators) :
    ∃ old ∈ validators, validator.address = old.address ∧
      (validator.delegated = old.delegated ∨
        ∃ amount, validator.delegated = change old.delegated amount) := by
  induction validators generalizing shares with
  | nil => cases shares <;> cases member
  | cons first rest ih =>
      cases shares with
      | nil => exact ⟨validator, member, rfl, .inl rfl⟩
      | cons share shares =>
          rcases List.mem_cons.mp member with rfl | later
          · exact ⟨first, List.mem_cons_self, rfl, .inr ⟨share.amount, rfl⟩⟩
          · obtain ⟨old, listed, booked⟩ := ih later
            exact ⟨old, List.mem_cons_of_mem _ listed, booked⟩

theorem Within.added (within : shares.Within validators)
    (fits : ∀ share ∈ shares, share.amount < Width.limit 128) (others : Allocation) :
    shares.Within (bookInPlace (Width.addSat 128) others validators) := by
  intro share asked validator member equal
  obtain ⟨old, listed, same, booked⟩ := mem_bookInPlace member
  have covered := within share asked old listed (same.symm.trans equal)
  rcases booked with unchanged | ⟨amount, grown⟩
  · rw [unchanged]
    exact covered
  · have fits := fits share asked
    rw [grown]
    simp only [Width.addSat, Width.clamp, Width.max]
    lia

theorem heldBy_added (shares : Allocation) (validators : List Validator)
    (lengths : shares.length = validators.length) :
    Width.clamp 128 (heldBy validators + sum shares) ≤
        heldBy (bookInPlace (Width.addSat 128) shares validators) ∧
      (heldBy validators + sum shares < Width.limit 128 →
        heldBy (bookInPlace (Width.addSat 128) shares validators) =
          heldBy validators + sum shares) := by
  induction validators generalizing shares with
  | nil =>
      obtain rfl := List.length_eq_zero_iff.mp lengths
      exact ⟨Nat.min_le_left _ _, fun _ => rfl⟩
  | cons validator validators ih =>
      cases shares with
      | nil => cases lengths
      | cons share shares =>
          obtain ⟨clamped, exact_sum⟩ := ih shares (by simpa using lengths)
          simp only [bookInPlace, heldBy_cons, sum_cons]
          refine ⟨?_, fun fits => ?_⟩
          · simp only [Width.addSat, Width.clamp] at clamped ⊢
            lia
          · rw [exact_sum (by lia), Width.addSat_of_lt (by lia)]
            lia

theorem heldBy_taken (shares : Allocation) (validators : List Validator) :
    heldBy validators - sum shares ≤
        heldBy (bookInPlace (fun held share => held - share) shares validators) ∧
      (shares.Held validators →
        heldBy (bookInPlace (fun held share => held - share) shares validators) + sum shares =
          heldBy validators) := by
  induction validators generalizing shares with
  | nil =>
      refine ⟨Nat.sub_le_of_le_add (Nat.zero_le _), fun held => ?_⟩
      cases held
      rfl
  | cons validator validators ih =>
      cases shares with
      | nil => exact ⟨Nat.sub_le _ _, nofun⟩
      | cons share shares =>
          obtain ⟨least, exact_sum⟩ := ih shares
          simp only [bookInPlace, heldBy_cons, sum_cons]
          refine ⟨by lia, fun held => ?_⟩
          cases held with
          | cons covered rest =>
              have := exact_sum rest
              lia

theorem Within.held (within : shares.Within validators) (same : shares.Matches validators) :
    shares.Held validators := by
  induction validators generalizing shares with
  | nil =>
      cases shares with
      | nil => exact .nil
      | cons share shares => cases same
  | cons validator validators ih =>
      cases shares with
      | nil => cases same
      | cons share shares =>
          simp only [Matches, List.map_cons, List.cons.injEq] at same
          refine .cons (within share List.mem_cons_self validator List.mem_cons_self same.1.symm)
            (ih (fun share asked validator listed => ?_) same.2)
          exact within share (List.mem_cons_of_mem _ asked) validator
            (List.mem_cons_of_mem _ listed)

end Allocation

/-! ## A new set of validators -/

/-- Two lists without repetitions have the same sum if they have the same members
where the figure is not zero. -/
theorem Width.total_same {α : Type} {figure : α → Nat} {first second : List α}
    (distinct : first.Nodup) (distinct' : second.Nodup)
    (same : ∀ key, figure key ≠ 0 → (key ∈ first ↔ key ∈ second)) :
    Width.total (first.map figure) = Width.total (second.map figure) := by
  have counted (keys : List α) : Width.total (keys.map figure) =
      totalWhere (fun key => figure key != 0) figure keys := by
    induction keys with
    | nil => rfl
    | cons key keys ih =>
        rw [List.map_cons, Width.total_cons, ih, totalWhere_cons]
        by_cases zero : figure key = 0 <;> simp [part, zero]
  rw [counted, counted]
  refine Width.total_perm (List.Perm.map figure ?_)
  refine (List.perm_ext_iff_of_nodup (distinct.filter _) (distinct'.filter _)).mpr fun key => ?_
  simp only [List.mem_filter, bne_iff_ne, ne_eq, and_congr_left_iff]
  exact same key

def heldAt (validators : List Validator) (address : Address) : Amount :=
  (validators.find? fun validator => validator.address == address).elim 0 Validator.delegated

theorem heldAt_of_mem (distinct : (validators.map Validator.address).Nodup)
    {validator : Validator} (member : validator ∈ validators) :
    heldAt validators validator.address = validator.delegated := by
  induction validators with
  | nil => cases member
  | cons first rest ih =>
      obtain ⟨fresh, distinct⟩ := List.nodup_cons.mp distinct
      rcases List.mem_cons.mp member with rfl | later
      · simp [heldAt]
      · have other : first.address ≠ validator.address := fun equal =>
          fresh (equal ▸ List.mem_map_of_mem later)
        have := ih distinct later
        simpa [heldAt, List.find?_cons, beq_eq_false_iff_ne.mpr other] using this

section Retained

variable {next : List (Address × Nat)}

theorem Hub.retained_delegated {validator : Validator}
    (member : validator ∈ retained validators next) :
    validator.delegated = heldAt validators validator.address := by
  obtain ⟨⟨address, weight⟩, -, rfl⟩ := List.mem_map.mp member
  rfl

theorem Hub.heldBy_retained (distinct : (validators.map Validator.address).Nodup)
    (unique : (next.map Prod.fst).Nodup) (none : abandoned? validators next = none) :
    heldBy (retained validators next) = heldBy validators := by
  have after : heldBy (retained validators next) =
      Width.total ((next.map Prod.fst).map (heldAt validators)) := by
    simp [heldBy, retained, Function.comp_def, heldAt]
  have before : heldBy validators =
      Width.total ((validators.map Validator.address).map (heldAt validators)) := by
    rw [heldBy, List.map_map]
    exact congrArg _ (List.map_congr_left fun validator member =>
      (heldAt_of_mem distinct member).symm)
  rw [after, before]
  refine Width.total_same unique distinct fun address held => ?_
  obtain ⟨validator, found, staked⟩ : ∃ validator,
      validators.find? (fun validator => validator.address == address) = some validator ∧
        validator.delegated ≠ 0 := by
    cases found : validators.find? fun validator => validator.address == address with
    | none => simp [heldAt, found] at held
    | some validator => exact ⟨validator, rfl, by simpa [heldAt, found] using held⟩
  have member := List.mem_of_find?_eq_some found
  obtain rfl : validator.address = address := by simpa using List.find?_some found
  have named := List.find?_eq_none.mp none validator member
  simp only [Bool.and_eq_true, decide_eq_true_eq, Bool.not_eq_true', not_and,
    Bool.not_eq_false, List.any_eq_true, beq_iff_eq] at named
  obtain ⟨entry, listed, same⟩ := named (Nat.pos_of_ne_zero staked)
  exact ⟨fun _ => List.mem_map_of_mem member, fun _ => same ▸ List.mem_map_of_mem listed⟩

end Retained

end LiquidStaking
