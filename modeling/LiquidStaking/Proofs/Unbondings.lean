import LiquidStaking.Proofs.Holdings
import Mathlib.Data.List.Infix

/-!
# Undelegations on their way

An allocation is cut to what the validators hold when it is made, and nothing is
set aside for it until it is booked.  So a validator is asked for no more than it
holds as long as no two undelegations of its chain are on their way at once; two
of them may ask it together for more.
-/

namespace LiquidStaking

variable {s : Surroundings} {h : HubState} {id : ChainId} {cause : Cause} {r : Response}
  {shares : Allocation}

def RemoteOp.unbonds (id : ChainId) : RemoteOp → Bool
  | .undelegate chain _ _ => chain == id
  | _ => false

def Allocation.askedOf (address : Address) (shares : Allocation) : Nat :=
  totalWhere (fun share => share.validator == address) Share.amount shares

def RemoteOp.askedOf (address : Address) : RemoteOp → Nat
  | .undelegate _ _ shares => shares.askedOf address
  | _ => 0

namespace HubState

def unbondings (h : HubState) (id : ChainId) : Nat := h.outstanding.countP (RemoteOp.unbonds id)

def askedOf (h : HubState) (id : ChainId) (address : Address) : Nat :=
  totalWhere (RemoteOp.unbonds id) (RemoteOp.askedOf address) h.outstanding

end HubState

/-! ## A single record -/

theorem totalWhere_le_of_single {α : Type} {counts : α → Bool} {figure : α → Nat}
    {records : List α} {bound : Nat} (single : records.countP counts ≤ 1)
    (small : ∀ record ∈ records, counts record = true → figure record ≤ bound) :
    totalWhere counts figure records ≤ bound := by
  induction records with
  | nil => exact Nat.zero_le _
  | cons record records ih =>
      rw [totalWhere_cons]
      rw [List.countP_cons] at single
      by_cases counted : counts record = true
      · rw [if_pos counted] at single
        have others : totalWhere counts figure records = 0 := by
          have none := List.countP_eq_zero.mp (show records.countP counts = 0 by omega)
          rw [totalWhere, List.filter_eq_nil_iff.mpr none]
          rfl
        rw [others, part_counted counted]
        exact small record List.mem_cons_self counted
      · rw [if_neg counted] at single
        rw [part_ignored (by simpa using counted), Nat.zero_add]
        exact ih single fun other later => small other (List.mem_cons_of_mem _ later)

theorem Allocation.Within.askedOf_le {validators : List Validator}
    (within : shares.Within validators) (same : shares.Matches validators)
    (distinct : (validators.map Validator.address).Nodup) {validator : Validator}
    (member : validator ∈ validators) :
    shares.askedOf validator.address ≤ validator.delegated := by
  refine totalWhere_le_of_single ?_ fun share asked named =>
    within share asked validator member (beq_iff_eq.mp named).symm
  have once := List.nodup_iff_count_le_one.mp (same ▸ distinct) validator.address
  rwa [List.count_eq_countP, List.countP_map] at once

/-! ## One undelegation at a time -/

/-- If there is one undelegation of the chain on its way, or none, no validator is
asked for more than it holds. -/
def HubState.Spared (h : HubState) (errands : Errands) (id : ChainId) : Prop :=
  h.unbondings id ≤ 1 → ∀ errand ∈ errands, errand.givenUp = false →
    ∀ epoch shares, errand.op = .undelegate id epoch shares →
      ∀ chain, h.books.chain? id = some chain → shares.Within chain.validators

namespace HubState

variable {errands left : Errands}

/-- What is heard of was not given up, and it is the only undelegation of the
chain if it is one. -/
def Alone (id : ChainId) (h : HubState) (errand : Errand) (_ : Outcome) : Prop :=
  errand.givenUp = false ∧ h.unbondings id ≤ 1

/-- Acting on a cause, a hub that hears of single undelegations has one at most
left if it has one at most at the end. -/
theorem unbondings_before (same : errands.ops = h.outstanding)
    (leaves : cause.Leaves (Alone id h) errands left)
    (single : (HubState.commit ⟨h.books, left.ops⟩ r).unbondings id ≤ 1) :
    h.unbondings id ≤ 1 := by
  have fewer : left.ops.countP (RemoteOp.unbonds id) ≤ 1 := by
    simp only [unbondings, commit, List.countP_append] at single
    omega
  cases cause with
  | asked request | closed chain account =>
      have leaves : left = errands := leaves
      rwa [leaves, same] at fewer
  | heard op outcome =>
      obtain ⟨givenUp, -, -, single⟩ := leaves
      exact single

theorem no_other {epoch : Epoch} {outcome : Outcome} (same : errands.ops = h.outstanding)
    (leaves : (Cause.heard (.undelegate id epoch shares) outcome).Leaves (Alone id h) errands left)
    {errand : Errand} (member : errand ∈ left) : errand.op.unbonds id = false := by
  obtain ⟨givenUp, perm, -, single⟩ := leaves
  have both := (perm.map Errand.op).countP_eq (RemoteOp.unbonds id)
  rw [List.map_cons, List.countP_cons, if_pos (by simp [RemoteOp.unbonds])] at both
  have none : left.ops.countP (RemoteOp.unbonds id) = 0 := by
    simp only [unbondings, ← same, Errands.ops] at single ⊢
    omega
  simpa using List.countP_eq_zero.mp none errand.op (List.mem_map_of_mem member)

theorem Booked.started_within {epoch : Epoch} {chain : Chain} (booked : h.Booked errands id)
    (solvent : h.books.Solvent) (move : Move s h.books cause r)
    (started : .undelegate id epoch shares ∈ r.dispatched)
    (known : h.books.chain? id = some chain) : shares.Within chain.validators := by
  have staffed := Chain.staffed_of_sound (booked.staffed id chain known)
  cases move.divides started rfl known with
  | undelegation listed holding shared =>
      have covered := Nat.le_trans (solvent.redeemable_le known listed holding)
        (booked.covered chain known)
      exact (Allocation.withinHoldings?_held staffed.present covered shared).within
        (Allocation.withinHoldings?_matches shared) staffed.distinct

theorem Spared.move (spared : h.Spared errands id) (booked : h.Booked errands id)
    (solvent : h.books.Solvent) (same : errands.ops = h.outstanding)
    (move : Move s h.books cause r) (leaves : cause.Leaves (Alone id h) errands left) :
    (HubState.commit ⟨h.books, left.ops⟩ r).Spared (left.record cause r) id := by
  intro single errand member unspent epoch shares asks chain' known'
  have before := unbondings_before same leaves single
  have booking := move.booking booked.sound.kept known'
  rcases List.mem_append.mp member with old | new
  · obtain ⟨errand, inLeft, rfl⟩ := List.mem_map.mp old
    have listed := leaves.subset errand inLeft
    obtain ⟨op, givenUp⟩ := errand
    obtain rfl : op = .undelegate id epoch shares := asks
    have fresh : givenUp = false := (Bool.or_eq_false_iff.mp unspent).1
    have within {chain : Chain} (known : h.books.chain? id = some chain) :=
      spared before _ listed fresh epoch shares rfl chain known
    have unnamed := booked.unnamed same listed fresh rfl rfl
    cases booking with
    | registered unknown => exact (unnamed (.inl unknown)).elim
    | kept known staked validators => exact validators ▸ within known
    | restaffed known sound resting => exact (unnamed (.inr resting)).elim
    | delegated known heard found awaited staked validators none =>
        have staffed := Chain.staffed_of_sound (booked.staffed id _ known)
        have matched := booked.heard_matches leaves (fun _ _ alone _ => alone.1) heard rfl rfl known
        rw [validators, matched.book _ staffed.distinct]
        refine (within known).added (fun share asked => ?_) _
        have outstanding : .undelegate id epoch shares ∈ h.outstanding :=
          same ▸ List.mem_map_of_mem listed
        obtain ⟨-, -, batch, found, sums⟩ := booked.sound.founded _ outstanding
        have fits := booked.sound.orderly.redemptionFits (Books.mem_redemptions found).1
        exact Nat.lt_of_le_of_lt (sums ▸ Allocation.le_sum asked) fits
    | undelegated known heard staked validators none =>
        subst heard
        have other := no_other same leaves inLeft
        simp [RemoteOp.unbonds] at other
  · obtain ⟨op, started, rfl⟩ := List.mem_map.mp new
    obtain rfl : op = .undelegate id epoch shares := asks
    cases booking with
    | registered _ _ _ none | restaffed _ _ _ _ _ _ none | delegated _ _ _ _ _ _ none
    | undelegated _ _ _ _ none =>
        rw [none] at started
        cases started
    | kept known staked validators =>
        exact validators ▸ booked.started_within solvent move started known

/-! ## Runs -/

theorem after_spared {steps : List Step} (alone : Hears (Alone id) steps) :
    (after steps).Booked (Errands.after steps) id ∧
      (after steps).Spared (Errands.after steps) id := by
  refine (fun holds => ⟨holds.1, holds.2.2⟩) (after_keeps (P := fun _ h errands =>
    h.Booked errands id ∧ h.books.Solvent ∧ h.Spared errands id)
    ⟨.initial id, .empty, fun _ => nofun⟩ (fun step _ => ?_) alone)
  intro t h cause r errands left _ same ⟨booked, solvent, spared⟩ move leaves _
  have takes := leaves.takes
  rw [same] at takes
  have sound := booked.sound
  exact ⟨booked.move same move leaves fun _ _ alone _ => alone.1,
    move.solvent sound.kept sound.orderly solvent (sound.heard takes),
    spared.move booked solvent same move leaves⟩

/-- In a run without resets, no validator is ever asked by undelegations on their
way for more than it holds, if there never are two of its chain on their way at
once. -/
theorem undelegations_covered (steps : List Step) (id : ChainId) (chain : Chain)
    (unreset : ∀ step ∈ steps, step.resets = false)
    (single : ∀ before, before <+: steps → (after before).unbondings id ≤ 1)
    (known : (after steps).books.chain? id = some chain) :
    ∀ validator ∈ chain.validators,
      (after steps).askedOf id validator.address ≤ validator.delegated := by
  intro validator member
  have fresh {before : List Step} (earlier : before <+: steps) :
      ∀ errand ∈ Errands.after before, errand.givenUp = false :=
    Errands.after_fresh fun step member => unreset step (earlier.subset member)
  have alone : Hears (Alone id) steps := by
    intro before s index outcome errand earlier found
    have earlier := (List.prefix_append before _).trans earlier
    exact ⟨fresh earlier errand (List.mem_of_getElem? found), single before earlier⟩
  obtain ⟨booked, spared⟩ := after_spared alone
  have one := single steps (List.prefix_refl _)
  refine totalWhere_le_of_single one fun op outstanding unbonds => ?_
  rw [← Errands.ops_after] at outstanding
  obtain ⟨errand, listed, rfl⟩ := List.mem_map.mp outstanding
  have unspent := fresh (List.prefix_refl _) errand listed
  obtain ⟨op, givenUp⟩ := errand
  cases op with
  | undelegate target epoch shares =>
      obtain rfl : target = id := by simpa [RemoteOp.unbonds] using unbonds
      have within := spared one _ listed unspent epoch shares rfl chain known
      have matched := booked.matched _ listed unspent rfl shares rfl chain known
      exact within.askedOf_le matched (after_staffed steps known).distinct member
  | _ => cases unbonds

/-- The unbonding of 400 asks alice for 133 of the 333 that she holds. -/
theorem undelegations_covered_sample :
    ∃ chain, (after Step.sampleRun).books.chain? "cosmoshub" = some chain ∧
      (∀ validator ∈ chain.validators,
        (after Step.sampleRun).askedOf "cosmoshub" validator.address ≤ validator.delegated) ∧
      (after Step.sampleRun).askedOf "cosmoshub" "alice" = 133 := by
  obtain ⟨chain, known⟩ : ∃ chain,
      (after Step.sampleRun).books.chain? "cosmoshub" = some chain :=
    Option.isSome_iff_exists.mp (by decide +kernel)
  have listed : ∀ before ∈ Step.sampleRun.inits, (after before).unbondings "cosmoshub" ≤ 1 := by
    decide +kernel
  have single : ∀ before, before <+: Step.sampleRun →
      (after before).unbondings "cosmoshub" ≤ 1 := fun before earlier =>
    listed before ((List.mem_inits _ _).mpr earlier)
  exact ⟨chain, known, undelegations_covered Step.sampleRun "cosmoshub" chain
    (by decide +kernel) single known,
    by decide +kernel⟩

end HubState

/-- Two validators of one weight hold 1 each; two redemptions of 1 are started,
the second before there is word of the first. -/
def Step.sampleOverlap : List Step :=
  [.perform (.sample 0 0)
      (.register { Registration.sample with validators := [("alice", 1), ("bob", 1)] }),
    .perform (.sample 0 0) (.accountOpened "cosmoshub" .delegate "delegator"),
    .perform (.sample 0 0) (.startEpoch .delegation 1),
    .perform (.sample 0 0) (.deposit "cosmoshub" 2 "carol"),
    .perform (.sample 2 2) (.startEpoch .delegation 2),
    .acknowledge (.sample 2 0) 0 (.success []),
    .acknowledge (.sample 2 0) 0 (.success []),
    .perform (.sample 2 0) (.startEpoch .undelegation 1),
    .perform (.sample 2 0) (.redeem "cosmoshub" 1 "carol"),
    .perform (.sample 2 0) (.startEpoch .undelegation 2),
    .perform (.sample 2 0) (.redeem "cosmoshub" 1 "dave"),
    .perform (.sample 2 0) (.startEpoch .undelegation 3)]

/-- Both undelegations ask the same validator for all that it holds. -/
theorem HubState.undelegations_overlap :
    (∀ step ∈ Step.sampleOverlap, step.resets = false) ∧
      ∃ chain validator, (after Step.sampleOverlap).books.chain? "cosmoshub" = some chain ∧
        validator ∈ chain.validators ∧
        validator.delegated < (after Step.sampleOverlap).askedOf "cosmoshub" validator.address := by
  refine ⟨by decide +kernel, ?_⟩
  have held : ((after Step.sampleOverlap).books.chain? "cosmoshub").map Chain.validators =
      some [⟨"alice", 1, 1⟩, ⟨"bob", 1, 1⟩] := by
    decide +kernel
  obtain ⟨chain, known, validators⟩ := Option.map_eq_some_iff.mp held
  exact ⟨chain, ⟨"bob", 1, 1⟩, known, validators ▸ by simp, by decide +kernel⟩

end LiquidStaking
