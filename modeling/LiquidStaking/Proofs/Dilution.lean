import LiquidStaking.Proofs.Backing

/-!
# Nothing dilutes the holders

As long as no deposit batch fails and the ledger reports what was issued less
what was burned, the rate of a chain never falls, in whatever order deposits,
redemptions, settlements and rewards arrive, and what is staked and in flight is
worth the whole supply at that rate.
-/

namespace LiquidStaking

variable {s : Surroundings} {b : Books} {cause : Cause} {r : Response} {id : ChainId}
  {denom : Denom} {h : HubState} {t : Tally}

/-! ## Failed batches stay failed until they are redriven -/

theorem Books.NoneFailed.of_putDeposit (kept : b.WellKept) {record : DepositBatch}
    (after : (b.putDeposit record).NoneFailed id)
    (replaced : id = record.chain → ∀ batch, b.deposit? record.chain record.epoch = some batch →
      batch.status ≠ .failed) : b.NoneFailed id := by
  intro batch member
  by_cases own : id = record.chain ∧ batch.epoch = record.epoch
  · obtain ⟨same, epoch⟩ := own
    refine replaced same batch ?_
    rw [← same, ← epoch]
    exact kept.deposit?_mem member
  · have stored : (b.putDeposit record).deposit? id batch.epoch = some batch := by
      rw [deposit?_putDeposit, if_neg own]
      exact kept.deposit?_mem member
    exact after batch (mem_deposits stored).1

theorem DepositEdge.redrives {batch : DepositBatch} {next : DepositStatus} {op : Option RemoteOp}
    (edge : DepositEdge b id batch cause next op) (failed : batch.status = .failed) :
    cause = .asked (.redriveDeposit id batch.epoch) := by
  cases edge with
  | redriven failed known isOpen shared => rfl
  | emptied current earlier due nothing => simp [failed, DepositStatus.awaitsEpoch] at due
  | sent current earlier due known isOpen held => simp [failed, DepositStatus.awaitsEpoch] at due
  | divided current earlier due known isOpen something gone shared =>
      simp [failed, DepositStatus.awaitsEpoch] at due
  | transferReset awaited => cases failed.symm.trans awaited
  | delegationReset awaited => cases failed.symm.trans awaited
  | returned awaited refused => cases failed.symm.trans awaited
  | stranded awaited known isClosed => cases failed.symm.trans awaited
  | arrived awaited known isOpen shared => cases failed.symm.trans awaited
  | refused awaited refused => cases failed.symm.trans awaited

theorem Move.noneFailed_before (kept : b.WellKept) (orderly : b.Orderly) (move : Move s b cause r)
    (after : (b.applyAll r.commands).NoneFailed id)
    (redriven : ∀ epoch, cause = .asked (.redriveDeposit id epoch) → b.NoneFailed id) :
    b.NoneFailed id := by
  cases move with
  | @deposited id' chain batch amount issued depositor known current found positive priced
      worthwhile fits =>
      obtain ⟨rfl, -, pending, -⟩ :=
        orderly.collecting_deposit kept current (by rw [found, Option.getD_some])
      refine .of_putDeposit kept after fun _ old stored => ?_
      cases found.symm.trans stored
      rw [pending]
      nofun
  | @depositOpened id' chain epoch known current absent =>
      refine .of_putDeposit kept after fun _ old stored => ?_
      cases absent.symm.trans stored
  | @depositMoved id' batch cause next op notices found edge plain =>
      obtain rfl := kept.depositKey (Books.mem_deposits found).1
      rw [Books.applyAll_deposit] at after
      by_cases own : id = batch.chain ∧ batch.status = .failed
      · obtain ⟨rfl, failed⟩ := own
        exact redriven batch.epoch (edge.redrives failed)
      · refine .of_putDeposit kept after fun same old stored failed => ?_
        cases found.symm.trans stored
        exact own ⟨same, failed⟩
  | @delegated id' chain batch shares total receipts notices found awaited known summed told =>
      obtain rfl := kept.depositKey (Books.mem_deposits found).1
      have before := Books.NoneFailed.of_putDeposit (kept.putChain _) after
        fun _ old stored failed => by
          have stored' : b.deposit? batch.chain batch.epoch = some old := stored
          cases found.symm.trans stored'
          cases awaited.symm.trans failed
      exact before
  | @reinvested id' epoch batch amount receipts notices current found plain =>
      obtain ⟨rfl, rfl, pending, -, stored⟩ := orderly.collecting_deposit kept current found
      refine .of_putDeposit kept after fun _ old held failed => ?_
      rcases stored with known | ⟨absent, -⟩
      · cases known.symm.trans held
        cases pending.symm.trans failed
      · cases absent.symm.trans held
  | revised known edge plain =>
      rw [Books.applyAll_chain] at after
      exact after
  | rewarded known edge told =>
      rw [Books.applyAll_chain] at after
      exact after
  | redemptionMoved found edge plain =>
      rw [Books.applyAll_redemption] at after
      exact after
  | released found awaited plain =>
      rw [Books.applyAll_released] at after
      simpa [Books.NoneFailed] using after
  | registered | requested | repriced | epochStarted | redeemed | unbonded | paid | quiet
  | stale | unanswered => exact after

theorem Move.not_redriven (noneFailed : b.NoneFailed id) {epoch : Epoch}
    (move : Move s b (.asked (.redriveDeposit id epoch)) r) : False := by
  cases move with
  | revised known edge plain => cases edge
  | rewarded known edge told => cases edge
  | depositMoved found edge plain =>
      cases edge with
      | redriven failed known isOpen shared =>
          exact noneFailed _ (Books.mem_deposits found).1 failed
  | redemptionMoved found edge plain => cases edge

theorem Move.tokenless_startEpoch {kind : EpochKind} {epoch : Epoch}
    (move : Move s b (.asked (.startEpoch kind epoch)) r) : r.Tokenless := by
  cases move with
  | revised known edge plain => exact .chain _ _ _
  | rewarded known edge told => exact .chain _ _ _
  | requested known kind => exact .of_all rfl
  | repriced known covered priced => exact .of_all rfl
  | epochStarted later => exact .of_all rfl
  | depositOpened known current absent => exact .of_all rfl
  | depositMoved found edge plain => exact .deposit _ _ _
  | redemptionMoved found edge plain => exact .redemption _ _ _
  | quiet plain => exact .of_all rfl

/-! ## One step -/

theorem HubState.step_follows (sound : h.Sound) (step : Step) :
    (h.step step).books.Follows h.books :=
  (step_preserves (P := fun _ h' => h'.Sound ∧ h'.books.Follows h.books) (t := .zero)
    (fun _ holds move takes _ => ⟨holds.1.move move takes,
      (move.follows holds.1.kept holds.1.orderly).trans holds.2⟩)
    sound.kept ⟨sound, .refl _⟩).2

theorem Tally.paidIn_le_observe (t : Tally) (h : HubState) (step : Step) (id : ChainId) :
    t.paidIn id ≤ (t.observe h step).paidIn id := by
  unfold observe
  split
  · exact t.paidIn_le_record _ _ id
  · exact Nat.le_refl _

/-- What holds in the middle of a step, as far as no batch has failed. -/
structure HubState.Steady (t : Tally) (h : HubState) (id : ChainId) (denom : Denom)
    (step : Step) (start : Books) : Prop where
  sound : h.Sound
  solvent : h.books.Solvent
  funded : h.Funded t id
  unfailed : ∀ s epoch, step = .perform s (.redriveDeposit id epoch) → h.books.NoneFailed id
  supplied : ∀ s kind epoch, step = .perform s (.startEpoch kind epoch) →
    s.supply denom + t.burned denom = t.minted denom
  covers : t.paidIn id < Width.limit 128 → h.books.Issues id denom → h.books.NoneFailed id →
    h.books.Balanced id ∧ h.books.Backed id (t.minted denom) (t.burned denom) ∧
      ∀ chain, start.chain? id = some chain → ∃ chain', h.books.chain? id = some chain' ∧
        chain.rate.value.raw ≤ chain'.rate.value.raw

theorem HubState.Steady.preserves (id : ChainId) (denom : Denom) (step : Step) (start : Books) :
    Preserves (fun t h => h.Steady t id denom step start) step := by
  intro t h cause r rest _ steady move takes of
  have ⟨sound, solvent, funded, unfailed, supplied, covers⟩ := steady
  have noneFailed_before (after : (h.books.applyAll r.commands).NoneFailed id) :
      h.books.NoneFailed id := by
    refine move.noneFailed_before sound.kept sound.orderly after fun epoch asked => ?_
    subst asked
    obtain ⟨s, performed⟩ := of
    exact unfailed s epoch performed
  have supplied_move : ∀ kind epoch, cause = .asked (.startEpoch kind epoch) →
      step.surroundings.supply denom + t.burned denom = t.minted denom := by
    rintro kind epoch rfl
    obtain ⟨s, rfl⟩ := of
    exact supplied s kind epoch rfl
  refine ⟨sound.move move takes,
    move.solvent sound.kept sound.orderly solvent (sound.heard takes),
    funded.move sound move takes, ?_, ?_, ?_⟩
  · intro s epoch performed
    obtain rfl := Cause.asked_of of performed
    exact (move.not_redriven (unfailed s epoch performed)).elim
  · intro s kind epoch performed
    obtain rfl := Cause.asked_of of performed
    have tokenless := move.tokenless_startEpoch
    simp only [Tally.record, tokenless.ordered Command.minted_eq_zero,
      tokenless.ordered Command.burned_eq_zero]
    exact supplied s kind epoch performed
  · intro below issues after
    have below' := Nat.lt_of_le_of_lt (t.paidIn_le_record cause r id) below
    have issues' := issues.before (move.follows sound.kept sound.orderly)
    have before := noneFailed_before after
    obtain ⟨balanced, backed, risen⟩ := covers below' issues' before
    have fits : h.books.collected id < Width.limit 128 := by
      simp only [HubState.Funded] at funded
      omega
    refine ⟨move.balanced sound.kept sound.orderly solvent fits balanced (sound.heard takes),
      move.backed sound.kept sound.orderly solvent balanced fits issues' before after
        supplied_move backed (sound.heard takes), fun chain known => ?_⟩
    obtain ⟨chain', known', higher⟩ := risen chain known
    obtain ⟨chain'', known'', higher'⟩ :=
      move.rate_rises sound.kept balanced fits issues' supplied_move backed known'
    exact ⟨chain'', known'', Nat.le_trans higher higher'⟩

/-! ## Runs -/

/-- A run in which no deposit batch of the chain fails, and in which the ledger
reports the supply of a derivative that no other chain issues. -/
structure Undisturbed (steps : List Step) (id : ChainId) (denom : Denom) : Prop where
  unfailed : ∀ before, before <+: steps → (HubState.after before).books.NoneFailed id
  reported : ∀ before step, before ++ [step] <+: steps →
    step.surroundings.supply denom = (Tally.after before).supply denom
  below : (Tally.after steps).paidIn id < Width.limit 128
  issues : (HubState.after steps).books.Issues id denom

theorem Undisturbed.before {steps : List Step} {step : Step}
    (calm : Undisturbed (steps ++ [step]) id denom) : Undisturbed steps id denom where
  unfailed before earlier := calm.unfailed before (earlier.trans (List.prefix_append _ _))
  reported before next earlier :=
    calm.reported before next (earlier.trans (List.prefix_append _ _))
  below := by
    have bound := calm.below
    rw [Tally.after_append] at bound
    exact Nat.lt_of_le_of_lt ((Tally.after steps).paidIn_le_observe _ step id) bound
  issues := by
    have issues := calm.issues
    rw [HubState.after_append] at issues
    exact issues.before (HubState.step_follows (HubState.after_sound steps) step)

theorem Undisturbed.earlier {before steps : List Step} (earlier : before <+: steps)
    (calm : Undisturbed steps id denom) : Undisturbed before id denom := by
  obtain ⟨later, rfl⟩ := earlier
  induction later using List.reverseRecOn with
  | nil => simpa using calm
  | append_singleton later step ih =>
      rw [← List.append_assoc] at calm
      exact ih calm.before

theorem HubState.step_covered {steps : List Step} {step : Step}
    (calm : Undisturbed (steps ++ [step]) id denom)
    (balanced : (after steps).books.Balanced id)
    (backed : (after steps).books.Backed id ((Tally.after steps).minted denom)
      ((Tally.after steps).burned denom)) :
    (after (steps ++ [step])).books.Balanced id ∧
      (after (steps ++ [step])).books.Backed id ((Tally.after (steps ++ [step])).minted denom)
        ((Tally.after (steps ++ [step])).burned denom) ∧
      ∀ chain, (after steps).books.chain? id = some chain →
        ∃ chain', (after (steps ++ [step])).books.chain? id = some chain' ∧
          chain.rate.value.raw ≤ chain'.rate.value.raw := by
  have sound := after_sound steps
  have unfailed := calm.unfailed steps (List.prefix_append _ _)
  have reported := calm.reported steps step (List.prefix_refl _)
  have start : (after steps).Steady (Tally.after steps) id denom step (after steps).books := by
    refine ⟨sound, after_solvent steps, after_funded steps id, fun _ _ _ => unfailed, ?_, ?_⟩
    · rintro s kind epoch rfl
      simp only [Tally.supply, Step.surroundings] at reported
      lia
    · exact fun _ _ _ => ⟨balanced, backed, fun chain known => ⟨chain, known, Nat.le_refl _⟩⟩
  have steady := step_preserves
    (P := fun t h => h.Steady t id denom step (after steps).books)
    (Steady.preserves id denom step _) sound.kept start
  rw [← Tally.after_append, ← after_append] at steady
  exact steady.covers calm.below calm.issues (calm.unfailed _ (List.prefix_refl _))

theorem HubState.after_backed {steps : List Step} (calm : Undisturbed steps id denom) :
    (after steps).books.Balanced id ∧
      (after steps).books.Backed id ((Tally.after steps).minted denom)
        ((Tally.after steps).burned denom) := by
  induction steps using List.reverseRecOn with
  | nil =>
      have balanced : Books.empty.Balanced id := nofun
      have backed : Books.empty.Backed id 0 0 := ⟨fun _ => ⟨rfl, rfl⟩, nofun, nofun⟩
      exact ⟨balanced, backed⟩
  | append_singleton steps step ih =>
      obtain ⟨balanced, backed⟩ := ih calm.before
      obtain ⟨balanced', backed', -⟩ := step_covered calm balanced backed
      exact ⟨balanced', backed'⟩

/-- As long as no deposit batch of a chain fails, its rate never falls, and after
every step what is staked and in flight is worth the supply at that rate. -/
theorem HubState.holders_undiluted (steps : List Step) (id : ChainId) (denom : Denom)
    (calm : Undisturbed steps id denom) :
    (∀ before step, before ++ [step] <+: steps →
      ∀ chain, (after before).books.chain? id = some chain →
        ∃ chain', (after (before ++ [step])).books.chain? id = some chain' ∧
          chain.rate.value.raw ≤ chain'.rate.value.raw) ∧
      ∀ before, before <+: steps → ∀ chain, (after before).books.chain? id = some chain →
        chain.rate.value.raw * (Tally.after before).supply denom ≤
          (chain.staked + (after before).books.inFlight id) * Decimal.scale := by
  refine ⟨fun before step earlier => ?_, fun before earlier chain known => ?_⟩
  · have calm' := calm.earlier earlier
    obtain ⟨balanced, backed⟩ := after_backed calm'.before
    exact (step_covered calm' balanced backed).2.2
  · obtain ⟨-, backed⟩ := after_backed (calm.earlier earlier)
    have covered := backed.covered chain known
    rw [Tally.supply, Int.mul_sub]
    generalize Decimal.scale = unit at covered ⊢
    lia

/-- The rewards of an epoch are reinvested, and the rate rises. -/
def Step.sampleRewards : List Step :=
  sampleUnbonding ++
    [.perform (.sample 600 0) (.accountOpened "cosmoshub" .unbond "unbonder"),
      .acknowledge (.sample 600 0) 0 (.success []),
      .perform (.sample 600 0) (.startEpoch .delegation 3),
      .acknowledge (.sample 600 0) 0 (.success [.rewards 60]),
      .acknowledge (.sample 600 0) 0 (.success []),
      .perform (.sample 600 0) (.startEpoch .delegation 4)]

theorem Step.sampleRewards_undisturbed :
    Undisturbed sampleRewards "cosmoshub" "statom" where
  unfailed before earlier := by
    have all : ∀ n < sampleRewards.length + 1,
        ∀ batch ∈ (HubState.after (sampleRewards.take n)).books.deposits "cosmoshub",
          batch.status ≠ .failed := by decide +kernel
    have unfailed := all before.length (Nat.lt_succ_of_le earlier.length_le)
    rw [← List.prefix_iff_eq_take.mp earlier] at unfailed
    exact unfailed
  reported before step earlier := by
    have all : ∀ n < sampleRewards.length, (sampleRewards[n]?).all (fun step =>
        (step.surroundings.supply "statom" : Int) =
          (Tally.after (sampleRewards.take n)).supply "statom") = true := by decide +kernel
    obtain ⟨later, equal⟩ := earlier
    have reported := all before.length (by simp [← equal])
    rw [← equal] at reported
    simpa using reported
  below := by decide +kernel
  issues :=
    (HubState.after_wellKept sampleRewards).issues_only (by decide +kernel) (by decide +kernel)

theorem HubState.holders_undiluted_sample :
    ∃ chain, (after Step.sampleRewards).books.chain? "cosmoshub" = some chain ∧
      Decimal.scale < chain.rate.value.raw ∧
      chain.rate.value.raw * (Tally.after Step.sampleRewards).supply "statom" ≤
        (chain.staked + (after Step.sampleRewards).books.inFlight "cosmoshub") * Decimal.scale := by
  obtain ⟨chain, known⟩ : ∃ chain,
      (after Step.sampleRewards).books.chain? "cosmoshub" = some chain :=
    Option.isSome_iff_exists.mp (by decide +kernel)
  have higher : ((after Step.sampleRewards).books.chain? "cosmoshub").any
      (fun chain => Decimal.scale < chain.rate.value.raw) = true := by decide +kernel
  rw [known] at higher
  have covered := (holders_undiluted Step.sampleRewards "cosmoshub" "statom"
    Step.sampleRewards_undisturbed).2 _ (List.prefix_refl _) chain known
  exact ⟨chain, known, by simpa using higher, covered⟩

end LiquidStaking
