import LiquidStaking.Proofs.Answers

/-!
# One operation for each batch that waits

Without resets, a batch that waits to hear of an operation has exactly one on its
way, and no other batch has any, so all word is acted on and none is waited for
in vain.  A reset leaves an operation behind that was given up; word of it comes
to nothing unless the batch again waits for the same.  Then the hub takes it for
word of the operation that was started since, for it tells acknowledgements apart
by the status of their batch and not by attempts.
-/

namespace LiquidStaking

variable {s : Surroundings} {b : Books} {cause : Cause} {r : Response} {id : ChainId}
  {stage : Stage} {outcome : Outcome} {chain : Chain}

/-! ## As many operations as waits -/

theorem Cause.Leaves.serving {may : Errand → Outcome → Prop} {before after : Errands}
    (leaves : cause.Leaves may before after) (stage : Stage) :
    (cause.answers stage = false ∧ before.serving stage = after.serving stage) ∨
      ∃ op outcome givenUp, cause = .heard op outcome ∧ op.serves stage = true ∧
        may ⟨op, givenUp⟩ outcome ∧
        before.serving stage = after.serving stage + (!givenUp).toNat := by
  cases cause with
  | asked request => exact .inl ⟨rfl, congrArg (Errands.serving · stage) leaves.symm⟩
  | closed chain account => exact .inl ⟨rfl, congrArg (Errands.serving · stage) leaves.symm⟩
  | heard op outcome =>
      obtain ⟨givenUp, perm, heard⟩ := leaves
      have count := perm.countP_eq (Errand.serves stage)
      rw [List.countP_cons] at count
      cases serves : op.serves stage with
      | false => exact .inl ⟨serves, by simpa [Errands.serving, Errand.serves, serves] using count⟩
      | true =>
          refine .inr ⟨op, outcome, givenUp, rfl, serves, heard, ?_⟩
          cases givenUp <;> simpa [Errands.serving, Errand.serves, serves] using count

section Counts

variable {may : Errand → Outcome → Prop} {errands left : Errands} {before after released : Bool}
  {answered : Prop}

/-- As long as word comes only of what was not given up, no stage has more
operations on the way than its batch waits for. -/
theorem Turn.serving_le (leaves : cause.Leaves may errands left)
    (turn : Turn answered before after (r.dispatched.countP (RemoteOp.serves stage))
      (cause.releases stage))
    (fresh : ∀ op outcome givenUp, cause = .heard op outcome → op.serves stage = true →
      may ⟨op, givenUp⟩ outcome → givenUp = false)
    (few : errands.serving stage ≤ before.toNat) :
    (left.record cause r).serving stage ≤ after.toNat := by
  have taken := leaves.serving stage
  have less : left.serving stage ≤ errands.serving stage := by
    rcases taken with ⟨-, same⟩ | ⟨_, _, _, -, -, -, same⟩ <;> omega
  have kept : (if cause.drops stage then 0 else left.serving stage) ≤ left.serving stage := by
    split <;> omega
  rw [Errands.serving_record]
  cases turn with
  | begun idle waiting one kept =>
      subst idle waiting
      simp only [Bool.toNat_false, Bool.toNat_true] at few ⊢
      omega
  | finished waiting idle none freed =>
      subst waiting idle
      rw [none]
      cases drops : cause.drops stage with
      | true => exact Nat.le_refl 0
      | false =>
          rw [Cause.releases, drops, Bool.or_false] at freed
          rcases taken with ⟨unheard, -⟩ | ⟨op, outcome, givenUp, heard, serves, may, same⟩
          · rw [freed] at unheard
            cases unheard
          · obtain rfl := fresh op outcome givenUp heard serves may
            simp only [Bool.not_false, Bool.toNat_true, Bool.false_eq_true, if_false] at *
            omega
  | same unchanged none missed =>
      rw [none, unchanged]
      omega

theorem Turn.le_serving (leaves : cause.Leaves may errands left)
    (turn : Turn answered before after (r.dispatched.countP (RemoteOp.serves stage))
      (cause.releases stage))
    (word : answered) (many : before.toNat ≤ errands.serving stage) :
    after.toNat ≤ (left.record cause r).serving stage := by
  rw [Errands.serving_record]
  cases turn with
  | begun idle waiting one kept =>
      rw [one]
      exact Nat.le_trans (Bool.toNat_le after) (Nat.le_add_left _ _)
  | finished waiting idle none freed =>
      subst idle
      exact Nat.zero_le _
  | same unchanged none missed =>
      subst unchanged
      cases after with
      | false => exact Nat.zero_le _
      | true =>
          have kept : cause.releases stage = false := by
            cases released : cause.releases stage with
            | false => rfl
            | true => rcases missed released with idle | unanswered <;> simp_all
          simp only [Cause.releases, Bool.or_eq_false_iff] at kept
          rcases leaves.serving stage with ⟨-, same⟩ | ⟨op, outcome, _, rfl, serves, -, -⟩
          · simp only [kept.2, Bool.false_eq_true, if_false]
            omega
          · cases serves.symm.trans kept.1

end Counts

/-! ## Runs -/

theorem Cause.sparing_of {step : Step} (unreset : step.resets = false) (of : cause.Of step) :
    cause.Sparing := by
  intro stage
  cases cause with
  | asked request =>
      obtain ⟨s, rfl⟩ := of
      cases request with
      | resetDeposit | resetRedemption => cases unreset
      | _ => rfl
  | heard op outcome => rfl
  | closed chain account => rfl

theorem Errands.after_ungiven {kind : RemoteOp → Bool} {steps : List Step}
    (unreset : ∀ step ∈ steps, ∀ cause : Cause, cause.Of step →
      ∀ op, kind op = true → cause.resets op = false) :
    ∀ errand ∈ Errands.after steps, kind errand.op = true → errand.givenUp = false := by
  refine HubState.after_keeps
    (P := fun _ _ errands => ∀ errand ∈ errands, kind errand.op = true → errand.givenUp = false)
    nofun (fun step inSteps => ?_) (Hears.anything steps)
  intro t h cause r errands left _ _ fresh _ leaves of errand member ofKind
  rcases List.mem_append.mp member with old | started
  · obtain ⟨earlier, listed, rfl⟩ := List.mem_map.mp old
    have kept := unreset step inSteps cause of earlier.op ofKind
    have before := fresh earlier (leaves.subset earlier listed) ofKind
    simp [Errand.after, kept, before]
  · obtain ⟨op, -, rfl⟩ := List.mem_map.mp started
    rfl

theorem Errands.after_fresh {steps : List Step} (unreset : ∀ step ∈ steps, step.resets = false) :
    ∀ errand ∈ Errands.after steps, errand.givenUp = false := by
  have fresh := @Errands.after_ungiven (fun _ => true) steps ?_
  · exact fun errand member => fresh errand member rfl
  · intro step member cause of op _
    have spares := Cause.sparing_of (unreset step member) of
    cases own : op.stage? with
    | none => simp [Cause.resets, own]
    | some stage => simp [Cause.resets, own, spares stage]

theorem Errands.serving_of_fresh {errands : Errands}
    (fresh : ∀ errand ∈ errands, errand.givenUp = false) (stage : Stage) :
    errands.serving stage = errands.ops.countP (RemoteOp.serves stage) := by
  rw [serving, ops, List.countP_map]
  refine List.countP_congr fun errand member => ?_
  simp [Errand.serves, fresh errand member]

theorem HubState.after_attended {steps : List Step} (sized : ∀ step ∈ steps, step.sized = true)
    (stage : Stage) :
    (after steps).books.Rosters Roster.Weighed ∧
      ((after steps).books.awaits stage).toNat ≤ (Errands.after steps).serving stage := by
  refine (after_keeps (P := fun _ h errands => h.Sound ∧ h.books.Rosters Roster.Weighed ∧
    (h.books.awaits stage).toNat ≤ errands.serving stage)
    ⟨.initial, nofun, Books.awaits_empty stage ▸ Nat.le_refl 0⟩ (fun step member => ?_)
    (Hears.anything steps)).2
  intro t h cause r errands left kept same ⟨sound, weighed, many⟩ move leaves of
  have takes := leaves.takes
  rw [same] at takes
  refine ⟨sound.move move takes, move.weighed (sized step member) of weighed, ?_⟩
  refine (move.turn kept sound.orderly stage).le_serving leaves ?_ many
  rintro op outcome rfl serves
  exact Hub.resolve_answers sound.orderly weighed (sound.heard takes rfl) serves outcome

theorem HubState.after_unrivalled {steps : List Step} {stage : Stage}
    (fresh : Hears (fun _ errand _ => errand.op.serves stage = true → errand.givenUp = false)
      steps) :
    (Errands.after steps).serving stage ≤ ((after steps).books.awaits stage).toNat := by
  refine (after_keeps (P := fun _ h errands => h.Sound ∧
    errands.serving stage ≤ (h.books.awaits stage).toNat) ⟨.initial, Nat.zero_le _⟩
    (fun step member => ?_) fresh).2
  intro t h cause r errands left kept same ⟨sound, few⟩ move leaves of
  have takes := leaves.takes
  rw [same] at takes
  exact ⟨sound.move move takes, (move.turn kept sound.orderly stage).serving_le leaves
    (fun op outcome givenUp _ serves heard => heard serves) few⟩

/-! ## What comes of an acknowledgement -/

theorem Move.closed_awaits {account : ControlAccount} (move : Move s b (.closed id account) r)
    (stage : Stage) : (b.applyAll r.commands).awaits stage = b.awaits stage := by
  obtain ⟨record, written⟩ := move.closed_commands
  rw [written]
  exact Books.awaits_congr rfl rfl stage

theorem Hub.resolve_ends (kept : b.WellKept) (orderly : b.Orderly) {op : RemoteOp}
    (serves : op.serves stage = true)
    (answer : resolve b.view s op outcome = .ok r) :
    (b.applyAll r.commands).awaits stage = false := by
  have ended {first : Response} (move : Move s b (.heard op outcome) first) :
      (b.applyAll first.commands).awaits stage = false := by
    refine (move.turn kept orderly stage).ended ?_ ?_
    · simp [Cause.releases, Cause.answers, serves]
    · rintro _ _ ⟨⟩ _
      exact ⟨r, answer⟩
  rcases resolve_moves kept answer with
    ⟨-, move⟩ | ⟨account, first, second, -, -, rfl, move, closing⟩
  · exact ended move
  · rw [Response.commands_append, Books.applyAll_append, closing.closed_awaits]
    exact ended move

/-! ## One operation for each batch that waits -/

/-- In every state of a run without resets, exactly one operation is outstanding
for every stage that a batch waits to hear of, and none for any other stage.  So
whenever word of an operation for a batch comes, the batch waits for it, the hub
answers, and the batch waits no longer. -/
theorem HubState.one_operation_each (steps : List Step)
    (sized : ∀ step ∈ steps, step.sized = true)
    (unreset : ∀ step ∈ steps, step.resets = false) (stage : Stage) :
    (after steps).outstanding.countP (RemoteOp.serves stage) =
        (if (after steps).books.awaits stage then 1 else 0) ∧
      ∀ s index op outcome, (after steps).outstanding[index]? = some op →
        op.serves stage = true → (after steps).books.awaits stage = true ∧
          ∃ r h, (after steps).acknowledge? s index outcome = some (.ok r, h) ∧
            h.books.awaits stage = false := by
  have fresh := Errands.after_fresh unreset
  obtain ⟨weighed, many⟩ := after_attended sized stage
  have few : (Errands.after steps).serving stage ≤ ((after steps).books.awaits stage).toNat := by
    refine after_unrivalled fun before s index outcome errand earlier found _ => ?_
    have unresetBefore : ∀ step ∈ before, step.resets = false := fun step member =>
      unreset step (earlier.subset (List.mem_append_left _ member))
    exact Errands.after_fresh unresetBefore errand (List.mem_of_getElem? found)
  rw [Errands.serving_of_fresh fresh, Errands.ops_after] at many few
  refine ⟨?_, fun s index op outcome found serves => ?_⟩
  · rw [Nat.le_antisymm few many]
    cases (after steps).books.awaits stage <;> rfl
  · have sound := after_sound steps
    have outstanding := List.mem_of_getElem? found
    have some_one := List.countP_pos_iff.mpr ⟨op, outstanding, serves⟩
    have waiting : (after steps).books.awaits stage = true := by
      by_contra idle
      rw [Bool.not_eq_true] at idle
      rw [idle, Bool.toNat_false] at few
      omega
    obtain ⟨r, answer⟩ : ∃ r, Hub.resolve (after steps).books.view s op outcome = .ok r :=
      Hub.resolve_answers sound.orderly weighed (sound.founded op outstanding) serves outcome
    refine ⟨waiting, r,
      HubState.commit ⟨(after steps).books, (after steps).outstanding.eraseIdx index⟩ r, ?_,
      Hub.resolve_ends sound.kept sound.orderly serves answer⟩
    simp only [acknowledge?, found, Option.map_some, resolve, answer, settle]

/-- The unbonding that was asked for is started, and one operation is for it. -/
theorem HubState.one_operation_each_sample :
    (after Step.sampleRun).outstanding.countP
        (RemoteOp.serves ⟨"cosmoshub", 1, .undelegation⟩) = 1 ∧
      ∃ r h, (after Step.sampleRun).acknowledge? (.sample 1000 0) 0 .failure = some (.ok r, h) ∧
        h.books.awaits ⟨"cosmoshub", 1, .undelegation⟩ = false := by
  obtain ⟨count, heard⟩ := one_operation_each Step.sampleRun (by decide +kernel)
    (by decide +kernel) ⟨"cosmoshub", 1, .undelegation⟩
  have waiting : (after Step.sampleRun).books.awaits ⟨"cosmoshub", 1, .undelegation⟩ = true := by
    decide +kernel
  rw [if_pos waiting] at count
  have outstanding : (after Step.sampleRun).outstanding[0]? =
      some (.undelegate "cosmoshub" 1 [⟨"alice", 133⟩, ⟨"bob", 267⟩]) := by
    decide +kernel
  exact ⟨count, (heard (.sample 1000 0) 0 _ .failure outstanding (by decide +kernel)).2⟩

/-! ## Operations that were given up -/

/-- Batches, stake, validators and rewards are the same; an address may not be. -/
structure Books.Unmoved (c b : Books) : Prop where
  deposits : c.deposits = b.deposits
  redemptions : c.redemptions = b.redemptions
  funds : ∀ id,
    (c.chain? id).map (fun chain => (chain.staked, chain.validators, chain.pendingRewards)) =
      (b.chain? id).map fun chain => (chain.staked, chain.validators, chain.pendingRewards)

theorem Hub.resolve_idle (kept : b.WellKept) {op : RemoteOp} (idle : b.awaits stage = false)
    (serves : op.serves stage = true) (known : b.chain? op.chain = some chain)
    (outcome : Outcome) :
    ∃ r, resolve b.view s op outcome = .ok r ∧ r.dispatched = [] ∧
      (b.applyAll r.commands).Unmoved b := by
  rw [resolve, proceed_idle idle serves, Attempt.ok_bind]
  split
  · rename_i account _
    have read : b.view.chain op.chain = .ok chain := Books.view_chain.mpr known
    refine ⟨⟨[.chain (chain.setAddress account none)], [.accountClosed op.chain account]⟩, ?_,
      rfl, rfl, rfl, fun id => ?_⟩
    · simp only [closeAccount, read]
      rfl
    · have key : (chain.setAddress account none).id = op.chain := by
        rw [← kept.chainKey known]
        cases account <;> rfl
      have closed : ((b.putChain (chain.setAddress account none)).chain? id).map
          (fun chain => (chain.staked, chain.validators, chain.pendingRewards)) =
            (b.chain? id).map fun chain =>
              (chain.staked, chain.validators, chain.pendingRewards) := by
        rw [Books.chain?_putChain, key]
        split
        · rename_i same
          rw [same, known]
          cases account <;> rfl
        · rfl
      exact closed
  · exact ⟨.empty, rfl, rfl, rfl, rfl, fun _ => rfl⟩

/-- Word of an operation that was given up moves nothing and starts nothing,
unless the batch again waits for the same and another operation for it, started
since the reset, is on its way: the hub cannot tell the one from the other. -/
theorem HubState.given_up_ignored (steps : List Step)
    (sized : ∀ step ∈ steps, step.sized = true) {index : Nat} {errand : Errand} {stage : Stage}
    (found : (Errands.after steps)[index]? = some errand)
    (serves : errand.op.serves stage = true) (givenUp : errand.givenUp = true)
    (s : Surroundings) (outcome : Outcome) :
    ((after steps).books.awaits stage = true ∧
        ∃ other ∈ (Errands.after steps).eraseIdx index, other.serves stage = true) ∨
      ∃ r h, (after steps).acknowledge? s index outcome = some (.ok r, h) ∧
        r.dispatched = [] ∧ h.books.Unmoved (after steps).books := by
  have sound := after_sound steps
  have outstanding : (after steps).outstanding[index]? = some errand.op := by
    simp [← Errands.ops_after, Errands.ops, found]
  cases waits : (after steps).books.awaits stage with
  | true =>
      have many := (after_attended sized stage).2
      obtain ⟨bound, rfl⟩ := List.getElem?_eq_some_iff.mp found
      have others := (List.getElem_cons_eraseIdx_perm bound).countP_eq (Errand.serves stage)
      have stays : (Errands.after steps)[index].serves stage = false := by
        simp [Errand.serves, givenUp]
      rw [List.countP_cons, stays] at others
      rw [waits, Errands.serving, ← others] at many
      exact .inl ⟨rfl, List.countP_pos_iff.mp many⟩
  | false =>
      obtain ⟨⟨chain, known⟩, -⟩ := sound.founded errand.op (List.mem_of_getElem? outstanding)
      obtain ⟨r, answer, nothing, unmoved⟩ : ∃ r,
          Hub.resolve (after steps).books.view s errand.op outcome = .ok r ∧ r.dispatched = [] ∧
            ((after steps).books.applyAll r.commands).Unmoved (after steps).books :=
        Hub.resolve_idle sound.kept waits serves known outcome
      refine .inr ⟨r,
        HubState.commit ⟨(after steps).books, (after steps).outstanding.eraseIdx index⟩ r, ?_,
        nothing, unmoved⟩
      simp only [acknowledge?, outstanding, Option.map_some, resolve, answer, settle]

def Step.sampleReset : List Step :=
  Step.sampleRun.take 6 ++ [.perform (.sample 1000 0) (.resetDeposit "cosmoshub" 1)]

/-- It is driven again, and its first attempt is still outstanding. -/
def Step.sampleRedriven : List Step :=
  Step.sampleReset ++ [.perform (.sample 1000 0) (.redriveDeposit "cosmoshub" 1)]

/-- Late word of the delegation settles nothing. -/
theorem HubState.given_up_ignored_sample :
    ∃ r h, (after Step.sampleReset).acknowledge? (.sample 1000 0) 0 (.success []) =
        some (.ok r, h) ∧ r.dispatched = [] ∧ h.books.Unmoved (after Step.sampleReset).books := by
  have found : (Errands.after Step.sampleReset)[0]? =
      some ⟨.delegate "cosmoshub" 1 [⟨"alice", 333⟩, ⟨"bob", 667⟩], true⟩ := by
    decide +kernel
  have idle : (after Step.sampleReset).books.awaits ⟨"cosmoshub", 1, .delegation⟩ ≠ true := by
    decide +kernel
  have serves : RemoteOp.serves ⟨"cosmoshub", 1, .delegation⟩
      (.delegate "cosmoshub" 1 [⟨"alice", 333⟩, ⟨"bob", 667⟩]) = true := by
    decide +kernel
  rcases given_up_ignored Step.sampleReset (by decide +kernel) found serves rfl (.sample 1000 0)
    (.success []) with ⟨waits, -⟩ | ignored
  · exact absurd waits idle
  · exact ignored

/-- Late word of the first attempt decides about the second. -/
theorem HubState.given_up_taken :
    ∃ errand, (Errands.after Step.sampleRedriven)[0]? = some errand ∧
      errand.op.serves ⟨"cosmoshub", 1, .delegation⟩ = true ∧ errand.givenUp = true ∧
      ((after Step.sampleRedriven).step
          (.acknowledge (.sample 1000 0) 0 .failure)).books.deposit? "cosmoshub" 1 ≠
        (after Step.sampleRedriven).books.deposit? "cosmoshub" 1 := by
  refine ⟨⟨.delegate "cosmoshub" 1 [⟨"alice", 333⟩, ⟨"bob", 667⟩], true⟩, ?_⟩
  decide +kernel

end LiquidStaking
