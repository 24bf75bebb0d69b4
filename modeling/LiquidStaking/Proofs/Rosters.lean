import LiquidStaking.Proofs.Orderly

/-!
# Validator sets

The addresses and weights of a chain's validators are those it was registered
with or last given, so they stay as they were checked then: there is at least one
validator, and none is nameless, weightless or listed twice.  If the weights came
in 64 bits each, they divide every amount.
-/

namespace LiquidStaking

variable {s : Surroundings} {b : Books} {id : ChainId} {cause : Cause} {r : Response}

/-- Addresses and weights of validators, in the order of the set. -/
abbrev Roster := List (Address × Nat)

def Chain.roster (chain : Chain) : Roster :=
  chain.validators.map fun validator => (validator.address, validator.weight)

def Request.roster? : Request → Option Roster
  | .register registration => some registration.validators
  | .updateValidators _ next => some next
  | _ => none

def Cause.roster? : Cause → Option Roster
  | .asked request => request.roster?
  | _ => none

/-! ## What is checked -/

theorem distinct_of_sound {seen : List Address} {roster : Roster}
    (sound : validatorDefect? seen roster = none) :
    (∀ entry ∈ roster, entry.1 ≠ "" ∧ 0 < entry.2 ∧ entry.1 ∉ seen) ∧
      (roster.map Prod.fst).Nodup := by
  induction roster generalizing seen with
  | nil => exact ⟨nofun, List.nodup_nil⟩
  | cons entry rest ih =>
      obtain ⟨address, weight⟩ := entry
      simp only [validatorDefect?] at sound
      split at sound
      · cases sound
      · rename_i named
        split at sound
        · cases sound
        · rename_i weighty
          split at sound
          · cases sound
          · rename_i fresh
            obtain ⟨later, distinct⟩ := ih sound
            refine ⟨fun entry member => ?_, ?_⟩
            · rcases List.mem_cons.mp member with rfl | inRest
              · exact ⟨named, Nat.pos_of_ne_zero weighty, fresh⟩
              · obtain ⟨named', weighty', unseen⟩ := later entry inRest
                exact ⟨named', weighty', fun seen => unseen (List.mem_cons_of_mem _ seen)⟩
            · refine List.nodup_cons.mpr ⟨fun again => ?_, distinct⟩
              obtain ⟨entry, inRest, same⟩ := List.mem_map.mp again
              exact (later entry inRest).2.2 (same ▸ List.mem_cons_self)

theorem Roster.distinct {roster : Roster} (sound : validatorSetDefect? roster = none) :
    (roster.map Prod.fst).Nodup := by
  have present := staffed_of_sound sound
  rw [validatorSetDefect?, if_neg present] at sound
  exact (distinct_of_sound sound).2

/-- What the check of a validator set leaves to be said about it. -/
structure Chain.Staffed (chain : Chain) : Prop where
  present : chain.validators ≠ []
  distinct : (chain.validators.map Validator.address).Nodup
  named : ∀ validator ∈ chain.validators, validator.address ≠ ""
  weighty : ∀ validator ∈ chain.validators, 0 < validator.weight

theorem Chain.staffed_of_sound {chain : Chain} (sound : validatorSetDefect? chain.roster = none) :
    chain.Staffed := by
  have distinct := Roster.distinct sound
  have present := LiquidStaking.staffed_of_sound sound
  rw [validatorSetDefect?, if_neg present] at sound
  have entries := (distinct_of_sound sound).1
  have entry {validator : Validator} (member : validator ∈ chain.validators) :=
    entries _ (List.mem_map_of_mem member)
  refine ⟨?_, ?_, fun validator member => (entry member).1,
    fun validator member => (entry member).2.1⟩
  · simpa [roster] using present
  · simpa [roster, Function.comp_def] using distinct

/-! ## What is kept -/

theorem Allocation.roster_book (change : Amount → Amount → Amount) (shares : Allocation)
    (validators : List Validator) :
    (book change shares validators).map (fun validator => (validator.address, validator.weight)) =
      validators.map fun validator => (validator.address, validator.weight) := by
  have one (share : Share) (validators : List Validator) :
      (book.bookShare change share validators).map
          (fun validator => (validator.address, validator.weight)) =
        validators.map fun validator => (validator.address, validator.weight) := by
    induction validators with
    | nil => rfl
    | cons validator rest ih =>
        simp only [book.bookShare]
        split
        · rfl
        · rw [List.map_cons, ih, List.map_cons]
  induction shares generalizing validators with
  | nil => rfl
  | cons share shares ih => exact (ih _).trans (one share validators)

theorem Allocation.addresses_book (change : Amount → Amount → Amount) (shares : Allocation)
    (validators : List Validator) :
    (book change shares validators).map Validator.address = validators.map Validator.address := by
  simpa [Function.comp_def] using congrArg (List.map Prod.fst)
    (roster_book change shares validators)

theorem Hub.roster_retained (current : List Validator) (next : Roster) :
    (retained current next).map (fun validator => (validator.address, validator.weight)) =
      next := by
  simp [retained, Function.comp_def]

theorem Registration.roster_profile (registration : Registration) :
    registration.profile.roster = registration.validators := by
  simp [Chain.roster, profile, Function.comp_def]

namespace Chain

variable (chain : Chain) (receipts : List Receipt) (shares : Allocation) (total : Amount)

theorem roster_delegating : (chain.delegating receipts shares total).roster = chain.roster :=
  Allocation.roster_book _ _ _

theorem roster_undelegating : (chain.undelegating receipts shares total).roster = chain.roster :=
  Allocation.roster_book _ _ _

end Chain

theorem ChainEdge.roster {chain chain' : Chain} {ops : List RemoteOp}
    (edge : ChainEdge b id chain cause chain' ops) :
    chain'.roster = chain.roster ∨
      (validatorSetDefect? chain'.roster = none ∧ cause.roster? = some chain'.roster) := by
  cases edge with
  | opened account address => cases account <;> exact .inl rfl
  | @restaffed next sound noDelegation noUndelegation noneAbandoned =>
      have given := Hub.roster_retained chain.validators next
      refine .inr ⟨(congrArg _ given).trans sound, congrArg some given.symm⟩
  | withdrawAddressSet receipts => exact .inl rfl
  | closed account => cases account <;> exact .inl rfl

theorem RewardEdge.roster {chain chain' : Chain} {ops : List RemoteOp} {reported : Amount}
    (edge : RewardEdge b id chain cause chain' ops reported) : chain'.roster = chain.roster := by
  cases edge <;> rfl

def Books.Rosters (good : Roster → Prop) (b : Books) : Prop :=
  ∀ id chain, b.chain? id = some chain → good chain.roster

theorem Books.Rosters.putChain {good : Roster → Prop} (rosters : b.Rosters good) (record : Chain)
    (fits : good record.roster) : (b.putChain record).Rosters good := by
  intro id chain known
  rw [chain?_putChain] at known
  split at known
  · cases known
    exact fits
  · exact rosters id chain known

theorem Move.rosters {good : Roster → Prop} (rosters : b.Rosters good) (move : Move s b cause r)
    (given : ∀ roster, validatorSetDefect? roster = none → cause.roster? = some roster →
      good roster) : (b.applyAll r.commands).Rosters good := by
  cases move with
  | @registered registration sound fresh =>
      refine rosters.putChain registration.profile ?_
      rw [registration.roster_profile]
      exact given _ (Registration.sound_validators sound) rfl
  | revised known edge plain =>
      rw [Books.applyAll_chain]
      refine rosters.putChain _ ?_
      rcases edge.roster with same | ⟨sound, set⟩
      · exact same ▸ rosters _ _ known
      · exact given _ sound set
  | rewarded known edge told =>
      rw [Books.applyAll_chain]
      exact rosters.putChain _ (edge.roster ▸ rosters _ _ known)
  | @repriced id chain rate epoch known backed priced =>
      have same := rosters id chain known
      exact rosters.putChain { chain with rate } same
  | @delegated id chain batch shares total receipts notices found awaited known summed told =>
      exact rosters.putChain _
        (chain.roster_delegating receipts shares total ▸ rosters id chain known)
  | @unbonded id chain batch shares total completion receipts notices found awaited known summed
      due told =>
      exact rosters.putChain _
        (chain.roster_undelegating receipts shares total ▸ rosters id chain known)
  | depositMoved found edge plain =>
      rw [Books.applyAll_deposit]
      exact rosters
  | redemptionMoved found edge plain =>
      rw [Books.applyAll_redemption]
      exact rosters
  | released found awaited plain =>
      rw [Books.applyAll_released]
      simpa [Books.Rosters] using rosters
  | requested | epochStarted | deposited | depositOpened | reinvested | redeemed | paid | quiet
  | stale | unanswered => exact rosters

/-! ## Weights -/

def Roster.sized (roster : Roster) : Bool :=
  decide (roster.length < Width.limit 64) &&
    roster.all fun entry => decide (entry.2 < Width.limit 64)

def Step.sized : Step → Bool
  | .perform _ request => request.roster?.all Roster.sized
  | .acknowledge .. => true

def Roster.Weighed (roster : Roster) : Prop :=
  0 < Width.total (roster.map Prod.snd) ∧ Width.total (roster.map Prod.snd) < Width.limit 128

namespace Roster

variable {roster : Roster}

theorem weighed_of_sized (sized : Roster.sized roster = true)
    (sound : validatorSetDefect? roster = none) : Weighed roster := by
  simp only [Roster.sized, Bool.and_eq_true, decide_eq_true_eq, List.all_eq_true] at sized
  obtain ⟨few, light⟩ := sized
  have present := staffed_of_sound sound
  rw [validatorSetDefect?, if_neg present] at sound
  have entries := (distinct_of_sound sound).1
  constructor
  · apply Width.total_pos
    · simpa using present
    · intro weight member
      obtain ⟨entry, listed, rfl⟩ := List.mem_map.mp member
      exact (entries entry listed).2.1
  · apply Width.total_lt
    · simpa using few
    · intro weight member
      obtain ⟨entry, listed, rfl⟩ := List.mem_map.mp member
      exact light entry listed

end Roster

theorem Cause.sized_of {step : Step} {roster : Roster} (sized : step.sized = true)
    (of : cause.Of step) (given : cause.roster? = some roster) : Roster.sized roster = true := by
  cases cause with
  | asked request =>
      obtain ⟨s, rfl⟩ := of
      have given : request.roster? = some roster := given
      simpa [Step.sized, given] using sized
  | heard op outcome => cases given
  | closed chain account => cases given

/-! ## Runs -/

theorem HubState.after_staffed (steps : List Step) {id : ChainId} {chain : Chain}
    (known : (HubState.after steps).books.chain? id = some chain) : chain.Staffed := by
  have rosters := after_preserves
    (P := fun _ h => h.books.Rosters fun roster => validatorSetDefect? roster = none) nofun
    (fun _ _ _ _ _ _ _ rosters move _ _ => move.rosters rosters fun _ sound _ => sound) steps
  exact Chain.staffed_of_sound (rosters id chain known)

/-- In the middle of a step with weights of 64 bits, the weights of every chain
divide every amount. -/
theorem Move.weighed {step : Step} (sized : step.sized = true) (of : cause.Of step)
    (weighed : b.Rosters Roster.Weighed) (move : Move s b cause r) :
    (b.applyAll r.commands).Rosters Roster.Weighed :=
  move.rosters weighed fun _ sound given =>
    Roster.weighed_of_sized (Cause.sized_of sized of given) sound

theorem HubState.after_weighed {steps : List Step} (sized : ∀ step ∈ steps, step.sized = true) :
    (after steps).books.Rosters Roster.Weighed := by
  refine after_keeps (P := fun _ h _ => h.books.Rosters Roster.Weighed) nofun
    (fun step member => ?_) (Hears.anything steps)
  intro t h cause r errands left _ _ weighed move _ of
  exact move.weighed (sized step member) of weighed

end LiquidStaking
