import LiquidStaking.Proofs.Errands
import LiquidStaking.Proofs.Moves.Acknowledgements
import LiquidStaking.Proofs.Moves.Epochs
import Mathlib.Data.List.Induction
import Mathlib.Data.List.Perm.Basic

/-!
# Runs are made of moves

A step has a course of one or more moves, and what every move preserves holds of
every state of every run, together with the tally and the errands kept beside it.
The rule looks at one move at a time: the books and the outstanding operations it
finds, what it takes from them, and what it adds.  What a run may hear of can be
restricted; without a restriction, and where nothing is said about errands, the
rule is `HubState.after_preserves`.
-/

namespace LiquidStaking

variable {s : Surroundings} {b : Books} {t : Tally} {h : HubState} {cause : Cause}
  {first second r : Response}

/-! ## Putting responses together -/

namespace Response

theorem dispatched_append :
    (first ++ second).dispatched = first.dispatched ++ second.dispatched :=
  List.filterMap_append

theorem ordered_empty (figure : Command → Amount) : Response.empty.ordered figure = 0 := rfl

theorem rewarded_empty (id : ChainId) : Response.empty.rewarded id = 0 := rfl

end Response

theorem HubState.commit_append :
    h.commit (first ++ second) = (h.commit first).commit second := by
  simp [commit, Response.dispatched_append]

theorem HubState.commit_empty : h.commit .empty = h := by
  simp [commit, Response.empty, Response.dispatched]

/-- Nothing is counted once for a whole answer, so parts can be counted one by one. -/
def Cause.Divisible (cause : Cause) : Prop :=
  ∀ id, cause.deposited id = 0 ∧ cause.redeemed id = 0 ∧ cause.returned id = 0 ∧
    cause.withdrawn id = 0

theorem Cause.divisible_startEpoch (kind : EpochKind) (epoch : Epoch) :
    (Cause.asked (.startEpoch kind epoch)).Divisible := fun _ => ⟨rfl, rfl, rfl, rfl⟩

theorem Tally.record_empty (divisible : cause.Divisible) : t.record cause .empty = t := by
  have zero := divisible
  cases t
  simp [record, zero _, Response.ordered_empty, Response.rewarded_empty]

/-- The rest of an answer, given for a second cause, is counted as such. -/
theorem Tally.record_append (later : Cause) (divisible : later.Divisible)
    (sameBurns : ∀ id, (if cause.settles id then second.ordered Command.burnedAny else 0) =
      if later.settles id then second.ordered Command.burnedAny else 0) :
    t.record cause (first ++ second) = (t.record cause first).record later second := by
  have zero := divisible
  simp only [record, zero _, Response.ordered_append, Response.rewarded_append, Nat.add_assoc,
    Nat.add_zero, mk.injEq, true_and]
  refine ⟨funext fun id => ?_, trivial⟩
  rw [← sameBurns id]
  split <;> rfl

def Cause.Sparing (cause : Cause) : Prop := ∀ stage, cause.drops stage = false

theorem Cause.sparing_startEpoch (kind : EpochKind) (epoch : Epoch) :
    (Cause.asked (.startEpoch kind epoch)).Sparing := fun _ => rfl

theorem Cause.Sparing.keeps_errand (sparing : cause.Sparing) (errand : Errand) :
    errand.after cause = errand := by
  have kept : cause.resets errand.op = false := by
    simp [resets, show cause.drops = fun _ => false from funext sparing]
  simp [Errand.after, kept]

theorem Errands.record_sparing (sparing : cause.Sparing) (errands : Errands) :
    errands.record cause r = errands ++ r.dispatched.map Errand.start := by
  simp [record, show Errand.after cause = id from funext sparing.keeps_errand]

theorem Errands.record_append (errands : Errands) (later : Cause) (sparing : cause.Sparing)
    (spared : later.Sparing) :
    errands.record cause (first ++ second) =
      (errands.record cause first).record later second := by
  simp [record_sparing sparing, record_sparing spared, Response.dispatched_append]

/-! ## The course of a step -/

/-- An answer is one move, or a move and the closing of an account after it, or the
passage of an epoch. -/
inductive Course (s : Surroundings) (b : Books) : Cause → Response → Prop
  | single {cause : Cause} {r : Response} (move : Move s b cause r) : Course s b cause r
  | closing {op : RemoteOp} {outcome : Outcome} {account : ControlAccount}
      {first second : Response} (move : Move s b (.heard op outcome) first)
      (closing : Move s (b.applyAll first.commands) (.closed op.chain account) second) :
      Course s b (.heard op outcome) (first ++ second)
  | passing {kind : EpochKind} {epoch : Epoch} {r : Response}
      (passage : Passage s (.asked (.startEpoch kind epoch)) b r) :
      Course s b (.asked (.startEpoch kind epoch)) r

theorem Hub.answer_course (kept : b.WellKept) {request : Request}
    (granted : request.answer b.view s = .ok r) : Course s b (.asked request) r := by
  cases request with
  | register registration => exact .single (register_move granted)
  | accountOpened chain account address => exact .single (accountOpened_move kept granted)
  | updateValidators chain validators => exact .single (updateValidators_move granted)
  | deposit chain amount depositor => exact .single (deposit_move granted)
  | redeem chain amount owner => exact .single (redeem_move kept granted)
  | payClaim owner epoch chain => exact .single (payClaim_move kept granted)
  | redriveDeposit chain epoch => exact .single (redriveDeposit_move kept granted)
  | resetDeposit chain epoch => exact .single (resetDeposit_move granted)
  | resetRedemption chain epoch => exact .single (resetRedemption_move granted)
  | startEpoch kind epoch => exact .passing (startEpoch_passage kept granted)

theorem Hub.resolve_course (kept : b.WellKept) {op : RemoteOp} {outcome : Outcome}
    (granted : resolve b.view s op outcome = .ok r) : Course s b (.heard op outcome) r := by
  rcases resolve_moves kept granted with
    ⟨-, move⟩ | ⟨account, first, second, -, -, rfl, move, closing⟩
  · exact .single move
  · exact .closing move closing

def Step.surroundings : Step → Surroundings
  | .perform s _ => s
  | .acknowledge s _ _ => s

def Cause.Of : Cause → Step → Prop
  | .asked request, step => ∃ s, step = .perform s request
  | _, step => ∃ s index outcome, step = .acknowledge s index outcome

theorem Cause.asked_of {step : Step} {request : Request} (of : cause.Of step)
    (performed : step = .perform s request) : cause = .asked request := by
  subst performed
  cases cause with
  | asked request' =>
      obtain ⟨s', same⟩ := of
      cases same
      rfl
  | heard op outcome =>
      obtain ⟨_, _, _, same⟩ := of
      cases same
  | closed chain account =>
      obtain ⟨_, _, _, same⟩ := of
      cases same

namespace HubState

variable (h) {step : Step}

def left : Step → List RemoteOp
  | .perform .. => h.outstanding
  | .acknowledge _ index _ => h.outstanding.eraseIdx index

theorem occurrence?_performed {request : Request}
    (occurs : h.occurrence? (.perform s request) = some (cause, r)) :
    cause = .asked request ∧ request.answer h.books.view s = .ok r := by
  cases answer : request.answer h.books.view s with
  | error stop => simp [occurrence?, answer] at occurs
  | ok response =>
      simp only [occurrence?, answer, Option.some.injEq, Prod.mk.injEq] at occurs
      obtain ⟨rfl, rfl⟩ := occurs
      exact ⟨rfl, rfl⟩

/-- An operation that is heard of was outstanding; where the hub has no answer, nothing
else happens. -/
theorem occurrence?_acknowledged {index : Nat} {outcome : Outcome}
    (occurs : h.occurrence? (.acknowledge s index outcome) = some (cause, r)) :
    ∃ op, h.outstanding[index]? = some op ∧ cause = .heard op outcome ∧
      (Hub.resolve h.books.view s op outcome = .ok r ∨
        (r = .empty ∧ ∀ response, Hub.resolve h.books.view s op outcome ≠ .ok response)) := by
  simp only [occurrence?, Option.map_eq_some_iff] at occurs
  obtain ⟨op, found, occurs⟩ := occurs
  cases answer : Hub.resolve h.books.view s op outcome with
  | ok response =>
      simp only [answer, Prod.mk.injEq] at occurs
      obtain ⟨rfl, rfl⟩ := occurs
      exact ⟨op, found, rfl, .inl answer⟩
  | error stop =>
      simp only [answer, Prod.mk.injEq] at occurs
      obtain ⟨rfl, rfl⟩ := occurs
      exact ⟨op, found, rfl, .inr ⟨rfl, by simp [answer]⟩⟩

theorem occurrence?_course (kept : h.books.WellKept)
    (occurs : h.occurrence? step = some (cause, r)) :
    Course step.surroundings h.books cause r := by
  cases step with
  | perform s request =>
      obtain ⟨rfl, granted⟩ := h.occurrence?_performed occurs
      exact Hub.answer_course kept granted
  | acknowledge s index outcome =>
      obtain ⟨op, -, rfl, granted | ⟨rfl, failed⟩⟩ := h.occurrence?_acknowledged occurs
      · exact Hub.resolve_course kept granted
      · exact .single (.unanswered failed)

theorem occurrence?_of (occurs : h.occurrence? step = some (cause, r)) : cause.Of step := by
  cases step with
  | perform s request =>
      obtain ⟨rfl, -⟩ := h.occurrence?_performed occurs
      exact ⟨s, rfl⟩
  | acknowledge s index outcome =>
      obtain ⟨op, -, rfl, -⟩ := h.occurrence?_acknowledged occurs
      exact ⟨s, index, outcome, rfl⟩

theorem step_of_none (none : h.occurrence? step = none) : h.step step = h := by
  cases step with
  | perform s request =>
      cases answer : request.answer h.books.view s with
      | error stop => simp [HubState.step, perform, settle, answer]
      | ok response => simp [occurrence?, answer] at none
  | acknowledge s index outcome =>
      simp only [occurrence?, Option.map_eq_none_iff] at none
      simp [HubState.step, acknowledge?, none]

theorem step_of_some (occurs : h.occurrence? step = some (cause, r)) :
    h.step step = commit ⟨h.books, h.left step⟩ r := by
  cases step with
  | perform s request =>
      obtain ⟨-, granted⟩ := h.occurrence?_performed occurs
      simp [HubState.step, perform, settle, granted, left]
  | acknowledge s index outcome =>
      obtain ⟨op, found, -, granted | ⟨rfl, failed⟩⟩ := h.occurrence?_acknowledged occurs
      · simp [HubState.step, acknowledge?, found, resolve, settle, granted, left]
      · cases answer : Hub.resolve h.books.view s op outcome with
        | ok response => exact absurd answer (failed response)
        | error stop =>
            simp [HubState.step, acknowledge?, found, resolve, settle, answer, left, commit_empty]

end HubState

theorem Errands.ops_left {errands : Errands} (same : errands.ops = h.outstanding) (step : Step) :
    (errands.left step).ops = h.left step := by
  cases step with
  | perform s request => exact same
  | acknowledge s index outcome =>
      rw [HubState.left, ← same]
      exact (List.eraseIdx_map _ _ _).symm

/-! ## Single moves of a step -/

/-- What stays outstanding once the hub acts on the cause. -/
def Cause.Takes : Cause → List RemoteOp → List RemoteOp → Prop
  | .heard op _, before, after => before.Perm (op :: after)
  | _, before, after => after = before

def Cause.Leaves (may : Errand → Outcome → Prop) : Cause → Errands → Errands → Prop
  | .heard op outcome, before, after =>
      ∃ givenUp, before.Perm (⟨op, givenUp⟩ :: after) ∧ may ⟨op, givenUp⟩ outcome
  | _, before, after => after = before

theorem Cause.Leaves.takes {may : Errand → Outcome → Prop} {before after : Errands}
    (leaves : cause.Leaves may before after) : cause.Takes before.ops after.ops := by
  cases cause with
  | asked request => exact congrArg Errands.ops leaves
  | heard op outcome =>
      obtain ⟨givenUp, perm, -⟩ := leaves
      exact perm.map Errand.op
  | closed chain account => exact congrArg Errands.ops leaves

theorem Cause.Leaves.subset {may : Errand → Outcome → Prop} {before after : Errands}
    (leaves : cause.Leaves may before after) : ∀ errand ∈ after, errand ∈ before := by
  intro errand member
  cases cause with
  | asked request => exact leaves ▸ member
  | heard op outcome =>
      obtain ⟨givenUp, perm, -⟩ := leaves
      exact perm.symm.subset (List.mem_cons_of_mem _ member)
  | closed chain account => exact leaves ▸ member

/-- What a move in the middle of a step makes of the tally, the state and the
errands, if the step hears only of what may be heard. -/
def Keeps (P : Tally → HubState → Errands → Prop)
    (may : HubState → Errand → Outcome → Prop) (step : Step) : Prop :=
  ∀ {t h cause r errands left}, h.books.WellKept → errands.ops = h.outstanding →
    P t h errands → Move step.surroundings h.books cause r →
    cause.Leaves (may h) errands left → cause.Of step →
    P (t.record cause r) (HubState.commit ⟨h.books, left.ops⟩ r) (left.record cause r)

def Preserves (P : Tally → HubState → Prop) (step : Step) : Prop :=
  ∀ {t h cause r rest}, h.books.WellKept → P t h → Move step.surroundings h.books cause r →
    cause.Takes h.outstanding rest → cause.Of step →
    P (t.record cause r) (HubState.commit ⟨h.books, rest⟩ r)

theorem Preserves.keeps {P : Tally → HubState → Prop} {step : Step} (turn : Preserves P step)
    (may : HubState → Errand → Outcome → Prop) : Keeps (fun t h _ => P t h) may step := by
  intro t h cause r errands left kept same holds move leaves of
  have takes := leaves.takes
  rw [same] at takes
  exact turn kept holds move takes of

section Step

variable {P : Tally → HubState → Errands → Prop}
  {may : HubState → Errand → Outcome → Prop} {step : Step} {errands : Errands}

theorem Passage.keeps (turn : Keeps P may step) {kind : EpochKind} {epoch : Epoch}
    (of : (Cause.asked (.startEpoch kind epoch)).Of step) (kept : h.books.WellKept)
    (same : errands.ops = h.outstanding) (holds : P t h errands)
    (passage : Passage step.surroundings (.asked (.startEpoch kind epoch)) h.books r) :
    P (t.record (.asked (.startEpoch kind epoch)) r) (h.commit r)
      (errands.record (.asked (.startEpoch kind epoch)) r) := by
  have divisible := Cause.divisible_startEpoch kind epoch
  have sparing := Cause.sparing_startEpoch kind epoch
  generalize start : h.books = b at passage
  induction passage generalizing t h errands with
  | done =>
      rw [Tally.record_empty divisible, HubState.commit_empty, Errands.record_sparing sparing]
      simpa [Response.empty, Response.dispatched] using holds
  | next move later ih =>
      subst start
      rw [Tally.record_append _ divisible fun _ => rfl, HubState.commit_append,
        Errands.record_append errands _ sparing sparing]
      have turned := turn kept same holds move rfl of
      rw [same] at turned
      refine ih (kept.applyAll _) ?_ turned rfl
      rw [Errands.ops_record, same]
      rfl

theorem Move.closed_commands {id : ChainId} {account : ControlAccount}
    (move : Move s b (.closed id account) r) : ∃ record, r.commands = [.chain record] := by
  cases move with
  | revised known edge plain =>
      cases edge with
      | closed account => exact ⟨_, rfl⟩
  | rewarded known edge told => cases edge
  | depositMoved found edge plain => cases edge
  | redemptionMoved found edge plain => cases edge

theorem Move.closed_burns {id : ChainId} {account : ControlAccount}
    (move : Move s b (.closed id account) r) : r.ordered Command.burnedAny = 0 := by
  obtain ⟨record, written⟩ := move.closed_commands
  rw [Response.ordered, written]
  rfl

theorem Course.keeps (turn : Keeps P may step) {left : Errands}
    (course : Course step.surroundings h.books cause r) (kept : h.books.WellKept)
    (same : errands.ops = h.outstanding) (holds : P t h errands)
    (leaves : cause.Leaves (may h) errands left) (of : cause.Of step) :
    P (t.record cause r) (HubState.commit ⟨h.books, left.ops⟩ r) (left.record cause r) := by
  cases course with
  | single move => exact turn kept same holds move leaves of
  | @closing op outcome account first second move closing =>
      -- The closing is a move of its own, on the books that the first one leaves.
      have burnless := closing.closed_burns
      rw [Tally.record_append (.closed op.chain account) (fun _ => ⟨rfl, rfl, rfl, rfl⟩)
        (fun _ => by simp [burnless]), HubState.commit_append,
        Errands.record_append _ (.closed op.chain account) (fun _ => rfl) fun _ => rfl]
      have turned := turn (kept.applyAll _) ?_ (turn kept same holds move leaves of) closing rfl of
      · rwa [Errands.ops_record] at turned
      · rw [Errands.ops_record]
        rfl
  | passing passage =>
      obtain rfl : left = errands := leaves
      have passed := passage.keeps turn of kept same holds
      rwa [same]

theorem HubState.occurrence?_leaves (same : errands.ops = h.outstanding)
    (heard : ∀ s index outcome errand, step = .acknowledge s index outcome →
      errands[index]? = some errand → may h errand outcome)
    (occurs : h.occurrence? step = some (cause, r)) :
    cause.Leaves (may h) errands (errands.left step) := by
  cases step with
  | perform s request =>
      obtain ⟨rfl, -⟩ := h.occurrence?_performed occurs
      rfl
  | acknowledge s index outcome =>
      obtain ⟨op, found, rfl, -⟩ := h.occurrence?_acknowledged occurs
      rw [← same, Errands.ops, List.getElem?_map, Option.map_eq_some_iff] at found
      obtain ⟨errand, found, rfl⟩ := found
      refine ⟨errand.givenUp, ?_, heard s index outcome errand rfl found⟩
      obtain ⟨bound, rfl⟩ := List.getElem?_eq_some_iff.mp found
      exact (List.getElem_cons_eraseIdx_perm bound).symm

theorem HubState.step_keeps (turn : Keeps P may step) (kept : h.books.WellKept)
    (same : errands.ops = h.outstanding)
    (heard : ∀ s index outcome errand, step = .acknowledge s index outcome →
      errands[index]? = some errand → may h errand outcome)
    (holds : P t h errands) :
    P (t.observe h step) (h.step step) (errands.observe h step) := by
  cases occurs : h.occurrence? step with
  | none => simpa [Tally.observe, Errands.observe, occurs, h.step_of_none occurs]
  | some occurrence =>
      obtain ⟨cause, r⟩ := occurrence
      have kept' := (h.occurrence?_course kept occurs).keeps turn kept same holds
        (occurrence?_leaves same heard occurs) (h.occurrence?_of occurs)
      rw [Errands.ops_left same] at kept'
      simpa [Tally.observe, Errands.observe, occurs, h.step_of_some occurs] using kept'

end Step

theorem HubState.step_preserves {P : Tally → HubState → Prop} {step : Step}
    (turn : Preserves P step) (kept : h.books.WellKept) (holds : P t h) :
    P (t.observe h step) (h.step step) := by
  have same : Errands.ops (h.outstanding.map Errand.start) = h.outstanding := by
    simp [Errands.ops, Function.comp_def]
  exact step_keeps (P := fun t h _ => P t h) (turn.keeps fun _ _ _ => True) kept same
    (fun _ _ _ _ _ _ => trivial) holds

/-! ## Whole runs -/

theorem HubState.step_wellKept (kept : h.books.WellKept) (step : Step) :
    (h.step step).books.WellKept :=
  step_preserves (P := fun _ h => h.books.WellKept) (t := .zero)
    (fun kept _ _ _ _ => kept.applyAll _) kept kept

theorem HubState.after_wellKept (steps : List Step) : (after steps).books.WellKept := by
  induction steps using List.reverseRecOn with
  | nil => exact Books.WellKept.empty
  | append_singleton steps step ih =>
      rw [after_append]
      exact step_wellKept ih step

theorem HubState.after_preserves {P : Tally → HubState → Prop} (start : P .zero .initial)
    (turn : ∀ step, Preserves P step) (steps : List Step) :
    P (Tally.after steps) (after steps) := by
  induction steps using List.reverseRecOn with
  | nil => exact start
  | append_singleton steps step ih =>
      rw [Tally.after_append, after_append]
      exact step_preserves (turn step) (after_wellKept steps) ih

theorem HubState.after_onward {P : HubState → Prop} (steps later : List Step)
    (turn : ∀ steps step, P (after steps) → P (after (steps ++ [step]))) (holds : P (after steps)) :
    P (after (steps ++ later)) := by
  induction later using List.reverseRecOn with
  | nil => rwa [List.append_nil]
  | append_singleton later step ih =>
      rw [← List.append_assoc]
      exact turn (steps ++ later) step ih

theorem Errands.ops_after (steps : List Step) :
    (after steps).ops = (HubState.after steps).outstanding := by
  induction steps using List.reverseRecOn with
  | nil => rfl
  | append_singleton steps step ih =>
      rw [after_append, HubState.after_append]
      have turn : Keeps (fun _ h errands => errands.ops = h.outstanding) (fun _ _ _ => True)
          step := by
        intro t h cause r errands left _ _ _ _ _ _
        rw [ops_record]
        rfl
      exact HubState.step_keeps (P := fun _ h errands => errands.ops = h.outstanding)
        (t := .zero) @turn (HubState.after_wellKept steps) ih (fun _ _ _ _ _ _ => trivial) ih

def Hears (may : HubState → Errand → Outcome → Prop) (steps : List Step) : Prop :=
  ∀ before s index outcome errand, before ++ [.acknowledge s index outcome] <+: steps →
    (Errands.after before)[index]? = some errand → may (HubState.after before) errand outcome

theorem Hears.anything (steps : List Step) : Hears (fun _ _ _ => True) steps :=
  fun _ _ _ _ _ _ _ => trivial

theorem Hears.before {may : HubState → Errand → Outcome → Prop} {steps : List Step}
    {step : Step} (hears : Hears may (steps ++ [step])) : Hears may steps :=
  fun before s index outcome errand earlier =>
    hears before s index outcome errand (earlier.trans (List.prefix_append _ _))

def hearsOnly (check : HubState → Errand → Outcome → Bool) (steps : List Step) : Bool :=
  (List.range steps.length).all fun count =>
    match steps[count]? with
    | some (.acknowledge _ index outcome) =>
        ((Errands.after (steps.take count))[index]?).all fun errand =>
          check (HubState.after (steps.take count)) errand outcome
    | _ => true

theorem Hears.of_check {may : HubState → Errand → Outcome → Prop}
    [∀ h errand outcome, Decidable (may h errand outcome)] {steps : List Step}
    (checked : hearsOnly (fun h errand outcome => decide (may h errand outcome)) steps = true) :
    Hears may steps := by
  rintro before s index outcome errand ⟨later, rfl⟩ found
  have now := List.all_eq_true.mp checked before.length (by simp)
  have taken : (before ++ [Step.acknowledge s index outcome] ++ later).take before.length =
      before := by simp
  have next : (before ++ [Step.acknowledge s index outcome] ++ later)[before.length]? =
      some (.acknowledge s index outcome) := by simp
  rw [taken, next] at now
  simpa [found] using now

theorem HubState.after_keeps {P : Tally → HubState → Errands → Prop}
    {may : HubState → Errand → Outcome → Prop} {steps : List Step}
    (start : P .zero .initial []) (turn : ∀ step ∈ steps, Keeps P may step)
    (hears : Hears may steps) :
    P (Tally.after steps) (after steps) (Errands.after steps) := by
  induction steps using List.reverseRecOn with
  | nil => exact start
  | append_singleton steps step ih =>
      rw [Tally.after_append, after_append, Errands.after_append]
      have earlier := ih (fun step member => turn step (List.mem_append_left _ member)) hears.before
      refine step_keeps (turn step (by simp)) (after_wellKept steps) (Errands.ops_after steps) ?_
        earlier
      rintro s index outcome errand rfl found
      exact hears steps s index outcome errand (List.prefix_refl _) found

/-! ## A run to look at -/

def Registration.sample : Registration where
  chainId := "cosmoshub"
  connection := "connection-0"
  transferChannel := "channel-0"
  remoteTransferChannel := "channel-1"
  escrow := "escrow"
  nativeDenom := "uatom"
  voucherDenom := "ibc/uatom"
  derivativeDenom := "statom"
  validators := [("alice", 1), ("bob", 2)]
  unbondingPeriod := 1814400

def Surroundings.sample (supply balance : Amount) : Surroundings :=
  ⟨0, fun denom => if denom = "statom" then supply else 0,
    fun denom => if denom = "ibc/uatom" then balance else 0⟩

/-- A deposit of 1000 is delegated, and unbonding of 400 of it has been asked for. -/
def Step.sampleRun : List Step :=
  [.perform (.sample 0 0) (.register .sample),
    .perform (.sample 0 0) (.accountOpened "cosmoshub" .delegate "delegator"),
    .perform (.sample 0 0) (.startEpoch .delegation 1),
    .perform (.sample 0 0) (.deposit "cosmoshub" 1000 "carol"),
    .perform (.sample 1000 1000) (.startEpoch .delegation 2),
    .acknowledge (.sample 1000 0) 0 (.success []),
    .acknowledge (.sample 1000 0) 0 (.success []),
    .perform (.sample 1000 0) (.startEpoch .undelegation 1),
    .perform (.sample 1000 0) (.redeem "cosmoshub" 400 "carol"),
    .perform (.sample 1000 0) (.startEpoch .undelegation 2)]

def Step.sampleUnbonding : List Step :=
  sampleRun ++ [.acknowledge (.sample 1000 0) 0 (.success [])]

end LiquidStaking
