import LiquidStaking.Proofs.Fairness

/-!
# Divisions within holdings

The shares by weight are cut down to what is held, and what was cut off goes to the
validators that hold more, the first ones first.  As long as the whole is held,
nobody is asked for more than is held, nor for less than the weight asks of what is
held, and an extra share is asked of a validator only once those before it give
all.  Otherwise everybody gives all, and the last is asked for the difference.
-/

namespace LiquidStaking.Allocation

variable {validators : List Validator} {weighted shares : Allocation} {total excess : Amount}

/-! ## Step by step -/

def cutDown? (excess : Amount) : Allocation → List Validator → Option (Allocation × Amount)
  | share :: shares, validator :: validators =>
      if validator.delegated < share.amount then do
        let cut ← Width.sub? share.amount validator.delegated
        let excess ← Width.add? 128 excess cut
        let (rest, excess) ← cutDown? excess shares validators
        return ({ share with amount := validator.delegated } :: rest, excess)
      else do
        let (rest, excess) ← cutDown? excess shares validators
        return (share :: rest, excess)
  | shares, _ => some (shares, excess)

def handOut? (excess : Amount) : Allocation → List Validator → Option (Allocation × Amount)
  | share :: shares, validator :: validators =>
      if excess = 0 then some (share :: shares, 0)
      else do
        let room ← Width.sub? validator.delegated share.amount
        let amount ← Width.add? 128 share.amount (min excess room)
        let excess ← Width.sub? excess (min excess room)
        let (rest, left) ← handOut? excess shares validators
        return ({ share with amount } :: rest, left)
  | shares, _ => some (shares, excess)

/-- The division with every sum and difference checked where it is formed. -/
def inPasses? (total : Amount) (validators : List Validator) : Option Allocation := do
  let shares ← byWeight? total validators
  let (cut, excess) ← cutDown? 0 shares validators
  let (placed, left) ← handOut? excess cut validators
  addToLast? left placed

theorem cutDown?_cons (fits : excess < Width.limit 128) (share : Share) (shares : Allocation)
    (validator : Validator) (validators : List Validator) :
    cutDown? excess (share :: shares) (validator :: validators) =
      (Width.add? 128 excess (share.amount - validator.delegated)).bind fun excess =>
        (cutDown? excess shares validators).map fun cut =>
          ({ share with amount := min share.amount validator.delegated } :: cut.1, cut.2) := by
  by_cases more : validator.delegated < share.amount
  · have cut : Width.sub? share.amount validator.delegated =
        some (share.amount - validator.delegated) := if_pos (Nat.le_of_lt more)
    rw [cutDown?, if_pos more, cut, Nat.min_eq_right (Nat.le_of_lt more)]
    simp only [Option.bind_eq_bind, Option.bind_some, Option.map_eq_bind]
    rfl
  · have covered : share.amount ≤ validator.delegated := Nat.le_of_not_lt more
    have nothing : Width.add? 128 excess (share.amount - validator.delegated) = some excess := by
      rw [Nat.sub_eq_zero_of_le covered]
      exact Width.narrow?_of_lt fits
    rw [cutDown?, if_neg more, nothing, Nat.min_eq_left covered]
    simp only [Option.bind_eq_bind, Option.bind_some, Option.map_eq_bind]
    rfl

/-- The running excess leaves its width exactly if all that is cut off does. -/
theorem cutDown?_eq (lengths : shares.length = validators.length)
    (fits : excess < Width.limit 128) :
    cutDown? excess shares validators =
      (Width.narrow? 128 (excess + cutOff shares validators)).map
        fun excess => (capped shares validators, excess) := by
  induction shares generalizing validators excess with
  | nil =>
      cases validators with
      | nil => simp [cutDown?, cutOff, capped, Width.narrow?_of_lt fits]
      | cons validator validators => cases lengths
  | cons share shares ih =>
      cases validators with
      | nil => cases lengths
      | cons validator validators =>
          have lengths : shares.length = validators.length := by simpa using lengths
          rw [cutDown?_cons fits, cutOff_cons, capped_cons, ← Nat.add_assoc, Width.add?]
          by_cases small : excess + (share.amount - validator.delegated) < Width.limit 128
          · rw [Width.narrow?_of_lt small, Option.bind_some, ih lengths small, Option.map_map]
            rfl
          · have past := Nat.le_of_not_lt small
            rw [Width.narrow?_of_le past, Width.narrow?_of_le (Nat.le_add_right_of_le past)]
            rfl

theorem spread_zero (shares : Allocation) (validators : List Validator) :
    spread 0 shares validators = (shares, 0) := by
  induction shares generalizing validators with
  | nil => cases validators <;> rfl
  | cons share shares ih =>
      cases validators with
      | nil => rfl
      | cons validator validators => simp [spread, ih]

theorem handOut?_eq (held : shares.Held validators)
    (sized : ∀ validator ∈ validators, validator.delegated < Width.limit 128) (excess : Amount) :
    handOut? excess shares validators = some (spread excess shares validators) := by
  induction held generalizing excess with
  | nil => rfl
  | @cons share validator shares validators covered held ih =>
      have covered : share.amount ≤ validator.delegated := covered
      by_cases nothing : excess = 0
      · rw [handOut?, if_pos nothing, nothing, spread_zero]
      · have room : Width.sub? validator.delegated share.amount =
            some (validator.delegated - share.amount) := if_pos covered
        have given : Width.add? 128 share.amount
            (min excess (validator.delegated - share.amount)) =
              some (share.amount + min excess (validator.delegated - share.amount)) := by
          apply Width.narrow?_of_lt
          have small := sized validator List.mem_cons_self
          lia
        have left : Width.sub? excess (min excess (validator.delegated - share.amount)) =
            some (excess - min excess (validator.delegated - share.amount)) :=
          if_pos (Nat.min_le_left _ _)
        have later := ih (fun validator member => sized validator (List.mem_cons_of_mem _ member))
        simp only [handOut?, if_neg nothing, room, given, left, later, Option.bind_eq_bind,
          Option.bind_some]
        rfl

theorem inPasses?_eq (sized : ∀ validator ∈ validators, validator.delegated < Width.limit 128)
    (total : Amount) : inPasses? total validators = withinHoldings? total validators := by
  rw [inPasses?, withinHoldings?_eq]
  cases divided : byWeight? total validators with
  | none => rfl
  | some weighted =>
      have lengths := (byWeight?_matches divided).length
      simp only [Option.bind_eq_bind, Option.bind_some]
      rw [cutDown?_eq lengths (Width.limit_pos 128), Nat.zero_add]
      cases Width.narrow? 128 (cutOff weighted validators) with
      | none => rfl
      | some excess =>
          simp only [Option.map_some, Option.bind_some]
          rw [handOut?_eq (Held.capped lengths) sized]
          rfl

/-! ## Where the excess goes -/

/-- What a validator is asked for, beside what its weight asks of it and what it holds. -/
structure Placement where
  weighted : Amount
  asked : Amount
  held : Amount

namespace Placement

def least (p : Placement) : Amount := min p.weighted p.held

/-- An extra share is asked of the later one only if the earlier one gives all. -/
def Before (earlier later : Placement) : Prop :=
  later.least < later.asked → earlier.asked = earlier.held

end Placement

def placements : Allocation → Allocation → List Validator → List Placement
  | own :: weighted, share :: shares, validator :: validators =>
      ⟨own.amount, share.amount, validator.delegated⟩ :: placements weighted shares validators
  | _, _, _ => []

theorem length_placements (lengths : weighted.length = validators.length)
    (same : shares.length = validators.length) :
    (placements weighted shares validators).length = validators.length := by
  induction validators generalizing weighted shares with
  | nil => cases weighted <;> cases shares <;> rfl
  | cons validator validators ih =>
      cases weighted with
      | nil => cases lengths
      | cons own weighted =>
          cases shares with
          | nil => cases same
          | cons share shares =>
              rw [placements, List.length_cons, List.length_cons,
                ih (by simpa using lengths) (by simpa using same)]

theorem asked_capped {p : Placement}
    (member : p ∈ placements weighted (capped weighted validators) validators) :
    p.asked = p.least := by
  induction weighted generalizing validators with
  | nil => cases member
  | cons own weighted ih =>
      cases validators with
      | nil => cases member
      | cons validator validators =>
          rw [capped_cons, placements] at member
          rcases List.mem_cons.mp member with rfl | later
          · rfl
          · exact ih later

theorem placements_spread (own : Share) (weighted : Allocation) (validator : Validator)
    (validators : List Validator) (excess : Amount) :
    placements (own :: weighted)
        (spread excess (capped (own :: weighted) (validator :: validators))
          (validator :: validators)).1 (validator :: validators) =
      ⟨own.amount, min own.amount validator.delegated +
          min excess (validator.delegated - min own.amount validator.delegated),
        validator.delegated⟩ ::
        placements weighted
          (spread (excess - min excess (validator.delegated - min own.amount validator.delegated))
            (capped weighted validators) validators).1 validators := rfl

theorem asked_spread {p : Placement}
    (member : p ∈ placements weighted
      (spread excess (capped weighted validators) validators).1 validators) :
    p.least ≤ p.asked ∧ p.asked ≤ p.held := by
  induction weighted generalizing validators excess with
  | nil => cases member
  | cons own weighted ih =>
      cases validators with
      | nil => cases member
      | cons validator validators =>
          rw [placements_spread] at member
          rcases List.mem_cons.mp member with rfl | later
          · simp only [Placement.least]
            constructor
            · lia
            · lia
          · exact ih later

/-- The excess is used up where it is first left over, so behind a validator with
something to spare nobody is asked for more than before. -/
theorem spread_greedy (weighted : Allocation) (validators : List Validator) (excess : Amount) :
    (placements weighted
      (spread excess (capped weighted validators) validators).1 validators).Pairwise
        Placement.Before := by
  induction weighted generalizing validators excess with
  | nil => exact .nil
  | cons own weighted ih =>
      cases validators with
      | nil => exact .nil
      | cons validator validators =>
          rw [placements_spread]
          apply List.Pairwise.cons
          · intro later member more
            by_cases all : excess ≤ validator.delegated - min own.amount validator.delegated
            · rw [Nat.min_eq_left all, Nat.sub_self, spread_zero] at member
              exact absurd (asked_capped member) (Nat.ne_of_gt more)
            · rw [Nat.min_eq_right (Nat.le_of_not_le all)]
              exact Nat.add_sub_cancel' (Nat.min_le_right _ _)
          · exact ih validators _

/-! ## What is left over -/

theorem addToLast?_isSome {extra : Amount} (fits : sum shares + extra < Width.limit 128) :
    ∃ result, addToLast? extra shares = some result := by
  induction shares with
  | nil => exact ⟨[], rfl⟩
  | cons share rest ih =>
      cases rest with
      | nil =>
          have grown : Width.add? 128 share.amount extra = some (share.amount + extra) :=
            Width.narrow?_of_lt (by simpa using fits)
          exact ⟨_, by rw [addToLast?, grown]; rfl⟩
      | cons second rest =>
          rw [sum_cons] at fits
          obtain ⟨later, added⟩ := ih (by omega)
          refine ⟨share :: later, ?_⟩
          simp only [addToLast?, added, Option.bind_eq_bind, Option.bind_some]
          rfl

theorem addToLast?_dropLast {extra : Amount} {result : Allocation}
    (added : addToLast? extra shares = some result) : result.dropLast = shares.dropLast := by
  induction shares generalizing result with
  | nil =>
      cases added
      rfl
  | cons share rest ih =>
      cases rest with
      | nil =>
          simp only [addToLast?, Option.bind_eq_bind, Option.bind_eq_some_iff] at added
          obtain ⟨amount, -, result⟩ := added
          cases result
          rfl
      | cons second rest =>
          simp only [addToLast?, Option.bind_eq_bind, Option.bind_eq_some_iff] at added
          obtain ⟨later, recursive, result⟩ := added
          cases result
          have left : later ≠ [] := by
            intro none
            have same := addToLast?_validators recursive
            rw [none] at same
            cases same
          rw [List.dropLast_cons_of_ne_nil left, List.dropLast_cons_cons, ih recursive]

theorem Held.full (held : shares.Held validators) (all : heldBy validators ≤ sum shares) :
    shares.map Share.amount = validators.map Validator.delegated := by
  induction held with
  | nil => rfl
  | @cons share validator shares validators covered held ih =>
      have covered : share.amount ≤ validator.delegated := covered
      have rest := Held.sum_le held
      rw [heldBy_cons, sum_cons] at all
      have own : share.amount = validator.delegated := by
        lia
      rw [List.map_cons, List.map_cons, own, ih (by lia)]

theorem before_of_full (weighted : Allocation)
    (full : shares.dropLast.map Share.amount = validators.dropLast.map Validator.delegated) :
    (placements weighted shares validators).Pairwise Placement.Before := by
  induction validators generalizing weighted shares with
  | nil => cases weighted <;> cases shares <;> exact .nil
  | cons validator validators ih =>
      cases weighted with
      | nil => exact .nil
      | cons own weighted =>
          cases shares with
          | nil => exact .nil
          | cons share shares =>
              apply List.Pairwise.cons
              · intro later member _
                -- Somebody comes later, so this is not the last.
                cases shares with
                | nil => cases weighted <;> cases member
                | cons second shares =>
                    cases validators with
                    | nil => cases weighted <;> cases member
                    | cons next validators => exact (List.cons.inj full).1
              · apply ih
                cases shares with
                | nil =>
                    cases validators with
                    | nil => rfl
                    | cons next validators => cases full
                | cons second shares =>
                    cases validators with
                    | nil => cases full
                    | cons next validators => exact (List.cons.inj full).2

theorem withinHoldings?_isSome (amount : total < Width.limit 128) (set : Weighable validators) :
    ∃ (weighted placed shares : Allocation) (left : Amount),
      byWeight? total validators = some weighted ∧
      spread (cutOff weighted validators) (capped weighted validators) validators =
        (placed, left) ∧
      left = total - heldBy validators ∧ sum placed + left = total ∧ placed.Held validators ∧
      addToLast? left placed = some shares ∧ withinHoldings? total validators = some shares := by
  obtain ⟨weighted, byWeight⟩ := byWeight?_isSome amount set.weightOf_pos set.weightOf_lt
  obtain ⟨summed, lengths⟩ := byWeight?_sum set.present byWeight
  have cut := (sum_capped lengths).1
  have within := Held.capped lengths
  have least := Held.sum_le within
  have kept := (sum_spread (cutOff weighted validators) (capped weighted validators) validators).1
  obtain ⟨held, rest⟩ := within.spread (cutOff weighted validators)
  have fits : cutOff weighted validators < Width.limit 128 :=
    Nat.lt_of_le_of_lt (by omega) amount
  -- All that is cut off is placed or left over, so the last validator gets the total to the full.
  cases spreads : spread (cutOff weighted validators) (capped weighted validators) validators with
  | mk placed left =>
      rw [spreads] at held rest kept
      have whole : sum placed + left = total := by
        lia
      obtain ⟨shares, added⟩ := addToLast?_isSome (whole ▸ amount)
      refine ⟨weighted, placed, shares, left, byWeight, spreads, by lia, whole, held, added, ?_⟩
      rw [withinHoldings?_eq, byWeight, Option.bind_some, Width.narrow?_of_lt fits,
        Option.bind_some, spreads]
      exact added

theorem addToLast?_full {placed : Allocation} {left : Amount} (given : shares ≠ [])
    (held : placed.Held validators) (all : heldBy validators ≤ sum placed)
    (added : addToLast? left placed = some shares) :
    shares.dropLast.map Share.amount = validators.dropLast.map Validator.delegated ∧
      shares.getLast?.map Share.amount = some (sum shares - heldBy validators.dropLast) := by
  have others : shares.dropLast.map Share.amount =
      validators.dropLast.map Validator.delegated := by
    rw [addToLast?_dropLast added, List.map_dropLast, Held.full held all,
      List.map_dropLast]
  have parts := Width.total_dropLast Share.amount given
  rw [others] at parts
  have last : (shares.getLast given).amount = sum shares - heldBy validators.dropLast := by
    rw [heldBy, sum, parts]
    exact (Nat.add_sub_cancel_left _ _).symm
  refine ⟨others, ?_⟩
  rw [List.getLast?_eq_some_getLast given, Option.map_some, last]

/-- As long as all of the total is held, each validator is asked for at least its
share by weight, or all it holds, and at most for what it holds; and in any case
for more than that least share only if all validators before it give what they
hold.  Nothing a step on the way forms is negative or too large. -/
theorem asked_within_holdings (amount : total < Width.limit 128) (set : Weighable validators)
    (sized : ∀ validator ∈ validators, validator.delegated < Width.limit 128) :
    ∃ weighted shares : Allocation, byWeight? total validators = some weighted ∧
      withinHoldings? total validators = some shares ∧
      inPasses? total validators = some shares ∧
      shares.Matches validators ∧ sum shares = total ∧
      (placements weighted shares validators).length = validators.length ∧
      (total ≤ heldBy validators → ∀ p ∈ placements weighted shares validators,
        p.least ≤ p.asked ∧ p.asked ≤ p.held) ∧
      (heldBy validators < total →
        shares.dropLast.map Share.amount = validators.dropLast.map Validator.delegated ∧
        shares.getLast?.map Share.amount = some (total - heldBy validators.dropLast)) ∧
      (placements weighted shares validators).Pairwise Placement.Before := by
  obtain ⟨weighted, placed, shares, left, byWeight, spreads, surplus, whole, held, added,
    divided⟩ := withinHoldings?_isSome amount set
  have matched := withinHoldings?_matches divided
  have summed := withinHoldings?_sum set.present divided
  have counted := length_placements (byWeight?_matches byWeight).length matched.length
  have passes := (inPasses?_eq sized total).trans divided
  -- Without anything left over the placed shares are the result.
  have placedAll (covered : total ≤ heldBy validators) : shares =
      (spread (cutOff weighted validators) (capped weighted validators) validators).1 := by
    rw [surplus, Nat.sub_eq_zero_of_le covered] at added
    rw [addToLast?_zero added, spreads]
  have short (more : heldBy validators < total) :=
    addToLast?_full (matched.ne_nil set.present) held (by lia) added
  rw [summed] at short
  refine ⟨weighted, shares, byWeight, divided, passes, matched, summed, counted, ?_, short, ?_⟩
  · intro covered p member
    rw [placedAll covered] at member
    exact asked_spread member
  · by_cases covered : total ≤ heldBy validators
    · rw [placedAll covered]
      exact spread_greedy weighted validators _
    · exact before_of_full weighted (short (Nat.lt_of_not_le covered)).1

/-- Of holdings of 40, 5 and 40 and equal weights: 60 is asked for within them, and of
100 the first two are asked for all they hold and the last for the other 55. -/
theorem asked_within_holdings_sample :
    Weighable [⟨"val0", 1, 40⟩, ⟨"val1", 1, 5⟩, ⟨"val2", 1, 40⟩] ∧
      60 ≤ heldBy [⟨"val0", 1, 40⟩, ⟨"val1", 1, 5⟩, ⟨"val2", 1, 40⟩] ∧
      heldBy [⟨"val0", 1, 40⟩, ⟨"val1", 1, 5⟩, ⟨"val2", 1, 40⟩] < 100 ∧
      (∃ weighted shares : Allocation,
        inPasses? 60 [⟨"val0", 1, 40⟩, ⟨"val1", 1, 5⟩, ⟨"val2", 1, 40⟩] = some shares ∧
        sum shares = 60 ∧
        ∀ p ∈ placements weighted shares [⟨"val0", 1, 40⟩, ⟨"val1", 1, 5⟩, ⟨"val2", 1, 40⟩],
          p.least ≤ p.asked ∧ p.asked ≤ p.held) ∧
      ∃ shares : Allocation,
        withinHoldings? 100 [⟨"val0", 1, 40⟩, ⟨"val1", 1, 5⟩, ⟨"val2", 1, 40⟩] = some shares ∧
        shares.dropLast.map Share.amount = [40, 5] ∧
        shares.getLast?.map Share.amount = some 55 := by
  have set : Weighable [⟨"val0", 1, 40⟩, ⟨"val1", 1, 5⟩, ⟨"val2", 1, 40⟩] :=
    ⟨by decide, by decide, by decide, by decide⟩
  have sized : ∀ validator ∈ ([⟨"val0", 1, 40⟩, ⟨"val1", 1, 5⟩, ⟨"val2", 1, 40⟩] :
      List Validator), validator.delegated < Width.limit 128 := by decide
  have enough : 60 ≤ heldBy [⟨"val0", 1, 40⟩, ⟨"val1", 1, 5⟩, ⟨"val2", 1, 40⟩] := by decide
  have short : heldBy [⟨"val0", 1, 40⟩, ⟨"val1", 1, 5⟩, ⟨"val2", 1, 40⟩] < 100 := by decide
  obtain ⟨weighted, shares, -, -, passes, -, summed, -, within, -⟩ :=
    asked_within_holdings (by decide : 60 < Width.limit 128) set sized
  obtain ⟨-, all, -, divided, -, -, -, -, -, last, -⟩ :=
    asked_within_holdings (by decide : 100 < Width.limit 128) set sized
  exact ⟨set, enough, short, ⟨weighted, shares, passes, summed, within enough⟩, all, divided,
    (last short).1, (last short).2⟩

end LiquidStaking.Allocation
