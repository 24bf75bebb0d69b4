import LiquidStaking.Proofs.Orderly

/-!
# Claims and their batches

Every claim stands under its own name and belongs to one batch, of its chain and
its epoch; the members of a batch are the claims that make up what it redeems.
Until the batch is done, none of them can be claimed.
-/

namespace LiquidStaking

variable {s : Surroundings} {b c : Books} {cause : Cause} {r : Response} {id : ChainId}

def Claim.isClaimable (claim : Claim) : Bool := claim.status == .claimable

def RedemptionBatch.overMembers (figure : String → Nat) (batch : RedemptionBatch) : Nat :=
  totalWhere (fun _ => true) figure batch.members

theorem RedemptionBatch.overMembers_congr {figure figure' : String → Nat}
    {batch : RedemptionBatch} (same : ∀ key ∈ batch.members, figure' key = figure key) :
    batch.overMembers figure' = batch.overMembers figure :=
  totalWhere_congr fun key member => by simp only [part, same key member]

theorem RedemptionBatch.overMembers_joining (figure : String → Nat) (batch : RedemptionBatch)
    (amount owed : Amount) (member : String) :
    (batch.joining amount owed member).overMembers figure =
      batch.overMembers figure + figure member := by
  simp only [overMembers, joining]
  rw [totalWhere_append, totalWhere_cons]
  simp [part]

namespace Books

def claimed (b : Books) (key : String) : Nat := (b.claim? key).elim 0 Claim.amount

def due (b : Books) (key : String) : Nat :=
  (b.claim? key).elim 0 (part Claim.isClaimable Claim.amount)

structure Joined (b : Books) (claim : Claim) : Prop where
  named : claim.id = claimId claim.chain claim.epoch claim.owner
  denom : ∃ chain, b.chain? claim.chain = some chain ∧ claim.denom = chain.voucherDenom
  batch : ∃ batch, b.redemption? claim.chain claim.epoch = some batch ∧
    claim.id ∈ batch.members ∧ (batch.status ≠ .done → claim.status = .pending)

/-- The members of the batch are claims of its chain and epoch, each once, and
together they make up what the batch redeems. -/
structure Enrolled (b : Books) (batch : RedemptionBatch) : Prop where
  member : ∀ key ∈ batch.members, ∃ claim, b.claim? key = some claim ∧
    claim.chain = batch.chain ∧ claim.epoch = batch.epoch
  once : batch.members.Nodup
  sums : batch.overMembers b.claimed = batch.redeemable

structure Recorded (b : Books) : Prop where
  joined : ∀ {key claim}, b.claim? key = some claim → b.Joined claim
  enrolled : ∀ {id batch}, batch ∈ b.redemptions id → b.Enrolled batch

/-! ## Releasing members -/

theorem WellKept.claim?_release (kept : b.WellKept) (members : List String) (key : String) :
    (b.release members).claim? key =
      if key ∈ members then (b.claim? key).map fun claim => { claim with status := .claimable }
      else b.claim? key := by
  -- The books that are written change along the way, those that are read do not.
  have written (c : Books) : (c.applyAll ((members.filterMap b.claim?).map fun claim =>
        .claim { claim with status := .claimable })).claim? key =
      if key ∈ members ∧ (b.claim? key).isSome then
        (b.claim? key).map fun claim => { claim with status := .claimable }
      else c.claim? key := by
    induction members generalizing c with
    | nil => simp
    | cons first rest ih =>
        cases found : b.claim? first with
        | none =>
            rw [List.filterMap_cons_none found, ih]
            by_cases same : key = first
            · subst same
              simp [found]
            · simp [same]
        | some claim =>
            rw [List.filterMap_cons_some found, List.map_cons, applyAll_cons, ih, apply_claim,
              claim?_putClaim]
            have name := kept.claimKey found
            by_cases same : key = first
            · subst same
              simp [found, name]
            · simp [same, name]
  rw [Books.release, written]
  by_cases member : key ∈ members
  · cases found : b.claim? key <;> simp [member]
  · simp [member]

theorem Enrolled.of_claims {batch : RedemptionBatch} (enrolled : b.Enrolled batch)
    (claims : ∀ key ∈ batch.members, ∀ claim, b.claim? key = some claim →
      ∃ claim', c.claim? key = some claim' ∧ claim'.chain = claim.chain ∧
        claim'.epoch = claim.epoch ∧ claim'.amount = claim.amount) : c.Enrolled batch where
  member key listed := by
    obtain ⟨claim, found, chain, epoch⟩ := enrolled.member key listed
    obtain ⟨claim', found', chain', epoch', -⟩ := claims key listed claim found
    exact ⟨claim', found', chain'.trans chain, epoch'.trans epoch⟩
  once := enrolled.once
  sums := by
    rw [← enrolled.sums]
    refine RedemptionBatch.overMembers_congr fun key listed => ?_
    obtain ⟨claim, found, -, -⟩ := enrolled.member key listed
    obtain ⟨claim', found', -, -, amount⟩ := claims key listed claim found
    rw [claimed, found', claimed, found]
    exact amount

namespace Recorded

theorem empty : Recorded .empty where
  joined := nofun
  enrolled := nofun

theorem congr (recorded : b.Recorded) (follows : c.Follows b) (claims : c.claim? = b.claim?)
    (redemptions : c.redemptions = b.redemptions) : c.Recorded where
  joined {key claim} read := by
    rw [claims] at read
    obtain ⟨named, ⟨chain, known, denom⟩, batch, stored, listed, waiting⟩ := recorded.joined read
    obtain ⟨chain', known', voucher, -⟩ := follows.chain known
    refine ⟨named, ⟨chain', known', denom.trans voucher.symm⟩, batch, ?_, listed, waiting⟩
    simpa [redemption?, redemptions] using stored
  enrolled {id batch} inBatches := by
    rw [redemptions] at inBatches
    refine (recorded.enrolled inBatches).of_claims fun key _ claim found => ?_
    exact ⟨claim, claims ▸ found, rfl, rfl, rfl⟩

theorem restatus (kept : b.WellKept) (recorded : b.Recorded) {batch : RedemptionBatch}
    (found : b.redemption? id batch.epoch = some batch) (before : batch.status ≠ .done)
    (completion : Option Seconds) (next : RedemptionStatus) :
    (b.putRedemption { batch with completion, status := next }).Recorded where
  joined {key claim} read := by
    obtain ⟨named, denom, batch', stored, listed, waiting⟩ := recorded.joined read
    refine ⟨named, denom, ?_⟩
    rw [redemption?_putRedemption]
    split
    · rename_i own
      have key := kept.redemptionKey (mem_redemptions found).1
      rw [own.1, own.2, key] at stored
      cases found.symm.trans stored
      exact ⟨_, rfl, listed, fun _ => waiting before⟩
    · exact ⟨batch', stored, listed, waiting⟩
  enrolled {id batch'} inBatches := by
    rcases mem_putRedemption inBatches with ⟨rfl, -⟩ | old
    · obtain ⟨member, once, sums⟩ := recorded.enrolled (mem_redemptions found).1
      exact ⟨member, once, sums⟩
    · obtain ⟨member, once, sums⟩ := recorded.enrolled old
      exact ⟨member, once, sums⟩

theorem redeemed (recorded : b.Recorded) {batch : RedemptionBatch} {chain : Chain} {owner : Address}
    (amount owed : Amount) (known : b.chain? batch.chain = some chain)
    (pending : batch.status = .pending)
    (fresh : b.claim? (claimId batch.chain batch.epoch owner) = none)
    (stored : b.redemption? batch.chain batch.epoch = some batch ∨
      (b.redemption? batch.chain batch.epoch = none ∧ batch = .empty batch.chain batch.epoch)) :
    ((b.putRedemption (batch.joining amount owed
      (claimId batch.chain batch.epoch owner))).putClaim
        ⟨claimId batch.chain batch.epoch owner, batch.chain, batch.epoch, owner, owed,
          chain.voucherDenom, .pending⟩).Recorded := by
  have enrolled : b.Enrolled batch := by
    rcases stored with found | ⟨-, opened⟩
    · exact recorded.enrolled (mem_redemptions found).1
    · rw [opened]
      exact ⟨nofun, List.nodup_nil, rfl⟩
  generalize name : claimId batch.chain batch.epoch owner = new at fresh ⊢
  -- Claims that exist already are not the new one.
  have apart {key : String} {claim : Claim} (found : b.claim? key = some claim) : key ≠ new := by
    rintro rfl
    cases fresh.symm.trans found
  have before {batch' : RedemptionBatch} (enrolled' : b.Enrolled batch') :
      ((b.putRedemption (batch.joining amount owed new)).putClaim
        ⟨new, batch.chain, batch.epoch, owner, owed, chain.voucherDenom, .pending⟩).Enrolled
          batch' := by
    refine enrolled'.of_claims fun key _ claim found => ⟨claim, ?_, rfl, rfl, rfl⟩
    rw [claim?_putClaim, if_neg (apart found)]
    exact found
  refine ⟨fun {key claim} read => ?_, fun {id batch'} inBatches => ?_⟩
  · rw [claim?_putClaim] at read
    split at read
    · cases read
      refine ⟨name.symm, ⟨chain, known, rfl⟩, batch.joining amount owed new, ?_, ?_, fun _ => rfl⟩
      · have own : (b.putRedemption (batch.joining amount owed new)).redemption? batch.chain
            batch.epoch = some (batch.joining amount owed new) := by
          simp [redemption?_putRedemption, RedemptionBatch.joining]
        exact own
      · exact List.mem_append_right _ (List.mem_singleton_self new)
    · obtain ⟨named, denom, batch', stored', listed, waiting⟩ := recorded.joined read
      refine ⟨named, denom, ?_⟩
      have put : ((b.putRedemption (batch.joining amount owed new)).putClaim
          ⟨new, batch.chain, batch.epoch, owner, owed, chain.voucherDenom, .pending⟩).redemption?
            claim.chain claim.epoch =
          if claim.chain = batch.chain ∧ claim.epoch = batch.epoch then
            some (batch.joining amount owed new)
          else b.redemption? claim.chain claim.epoch := b.redemption?_putRedemption _ _ _
      rw [put]
      split
      · rename_i own
        rw [own.1, own.2] at stored'
        rcases stored with found | ⟨absent, -⟩
        · cases found.symm.trans stored'
          refine ⟨_, rfl, List.mem_append_left _ listed, fun _ => waiting ?_⟩
          rw [pending]
          nofun
        · cases absent.symm.trans stored'
      · exact ⟨batch', stored', listed, waiting⟩
  · rcases mem_putRedemption inBatches with ⟨rfl, -⟩ | old
    · obtain ⟨member, once, sums⟩ := before enrolled
      refine ⟨fun key listed => ?_, ?_, ?_⟩
      · rcases List.mem_append.mp listed with old | last
        · exact member key old
        · obtain rfl := List.mem_singleton.mp last
          exact ⟨_, by rw [claim?_putClaim, if_pos rfl], rfl, rfl⟩
      · refine List.nodup_append.mpr ⟨once, List.pairwise_singleton _ _, ?_⟩
        rintro key listed _ last rfl
        obtain ⟨claim, found, -, -⟩ := enrolled.member key listed
        exact apart found (List.mem_singleton.mp last)
      · rw [RedemptionBatch.overMembers_joining, sums, claimed, claim?_putClaim, if_pos rfl]
        rfl
    · exact before (recorded.enrolled old)

theorem released (kept : b.WellKept) (recorded : b.Recorded) {batch : RedemptionBatch}
    (found : b.redemption? id batch.epoch = some batch) :
    ((b.release batch.members).putRedemption { batch with status := .done }).Recorded := by
  obtain rfl := kept.redemptionKey (mem_redemptions found).1
  have after {batch' : RedemptionBatch} (enrolled : b.Enrolled batch') :
      ((b.release batch.members).putRedemption { batch with status := .done }).Enrolled
        batch' := by
    refine enrolled.of_claims fun key _ claim found => ?_
    rw [claim?_putRedemption, kept.claim?_release, found]
    split
    · exact ⟨_, rfl, rfl, rfl, rfl⟩
    · exact ⟨_, rfl, rfl, rfl, rfl⟩
  have stored (chain : ChainId) (epoch : Epoch) :
      ((b.release batch.members).putRedemption { batch with status := .done }).redemption?
        chain epoch =
      if chain = batch.chain ∧ epoch = batch.epoch then some { batch with status := .done }
      else b.redemption? chain epoch := by
    rw [redemption?_putRedemption]
    simp [redemption?]
  refine ⟨fun {key claim} read => ?_, fun {id batch'} inBatches => ?_⟩
  · rw [claim?_putRedemption, kept.claim?_release] at read
    split at read
    · rename_i listed
      obtain ⟨old, found', rfl⟩ := Option.map_eq_some_iff.mp read
      obtain ⟨named, ⟨chain, known, denom⟩, -⟩ := recorded.joined found'
      obtain ⟨same, found'', own⟩ :=
        (recorded.enrolled (mem_redemptions found).1).member key listed
      cases found'.symm.trans found''
      refine ⟨named, ⟨chain, by simpa using known, denom⟩, { batch with status := .done }, ?_, ?_,
        fun notDone => absurd rfl notDone⟩
      · exact (stored _ _).trans (if_pos own)
      · exact (kept.claimKey found').symm ▸ listed
    · rename_i unlisted
      obtain ⟨named, ⟨chain, known, denom⟩, batch', stored', listed, waiting⟩ :=
        recorded.joined read
      refine ⟨named, ⟨chain, by simpa using known, denom⟩, batch', ?_, listed, waiting⟩
      refine (stored _ _).trans ((if_neg fun own => ?_).trans stored')
      rw [own.1, own.2] at stored'
      cases found.symm.trans stored'
      exact unlisted (kept.claimKey read ▸ listed)
  · rcases mem_putRedemption inBatches with ⟨rfl, -⟩ | old
    · obtain ⟨member, once, sums⟩ := after (recorded.enrolled (mem_redemptions found).1)
      exact ⟨member, once, sums⟩
    · rw [redemptions_release] at old
      exact after (recorded.enrolled old)

theorem paid (kept : b.WellKept) (recorded : b.Recorded) {key : String} {claim : Claim}
    (found : b.claim? key = some claim) (claimable : claim.status = .claimable) :
    (b.putClaim { claim with status := .complete }).Recorded where
  joined {key' claim'} read := by
    rw [claim?_putClaim] at read
    split at read
    · cases read
      obtain ⟨named, denom, batch, stored, listed, waiting⟩ := recorded.joined found
      refine ⟨named, denom, batch, stored, listed, fun notDone => ?_⟩
      cases claimable.symm.trans (waiting notDone)
    · obtain ⟨named, denom, batch⟩ := recorded.joined read
      exact ⟨named, denom, batch⟩
  enrolled {id batch} inBatches := by
    refine (recorded.enrolled inBatches).of_claims fun key' _ claim' found' => ?_
    rw [claim?_putClaim]
    split
    · rename_i same
      have name := kept.claimKey found
      simp only [name] at same
      subst same
      cases found.symm.trans found'
      exact ⟨_, rfl, rfl, rfl, rfl⟩
    · exact ⟨claim', found', rfl, rfl, rfl⟩

theorem member_waits (recorded : b.Recorded) {batch : RedemptionBatch}
    (found : b.redemption? batch.chain batch.epoch = some batch) (unfinished : batch.status ≠ .done)
    {key : String} (listed : key ∈ batch.members) :
    ∃ claim, b.claim? key = some claim ∧ claim.status = .pending := by
  obtain ⟨claim, held, chain, epoch⟩ :=
    (recorded.enrolled (mem_redemptions found).1).member key listed
  obtain ⟨-, -, batch', stored, -, waiting⟩ := recorded.joined held
  rw [chain, epoch, found] at stored
  cases stored
  exact ⟨claim, held, waiting unfinished⟩

theorem one_batch (kept : b.WellKept) (recorded : b.Recorded) {id' : ChainId}
    {batch other : RedemptionBatch} {key : String} (inBatches : batch ∈ b.redemptions id)
    (inOther : other ∈ b.redemptions id') (listed : key ∈ batch.members)
    (listed' : key ∈ other.members) : id' = id ∧ other = batch := by
  obtain ⟨claim, found, chain, epoch⟩ := (recorded.enrolled inBatches).member key listed
  obtain ⟨claim', found', chain', epoch'⟩ := (recorded.enrolled inOther).member key listed'
  cases found.symm.trans found'
  have same : id' = id := by
    rw [← kept.redemptionKey inOther, ← kept.redemptionKey inBatches, ← chain, ← chain']
  subst same
  have stored := kept.redemption?_mem inBatches
  have stored' := kept.redemption?_mem inOther
  rw [← epoch', epoch, stored] at stored'
  cases stored'
  exact ⟨rfl, rfl⟩

end Recorded

end Books

theorem RedemptionEdge.not_done {batch : RedemptionBatch} {next : RedemptionStatus}
    {op : Option RemoteOp} (edge : RedemptionEdge s b id batch cause next op) :
    batch.status ≠ .done := by
  intro done
  cases edge with
  | started current earlier due known isOpen shared => simp [done] at due
  | withdrawn current earlier due known isOpen => simp [done] at due
  | startReset awaited => cases done.symm.trans awaited
  | withdrawalReset awaited => cases done.symm.trans awaited
  | refused awaited failed => cases done.symm.trans awaited
  | stayed awaited failed => cases done.symm.trans awaited

theorem Move.recorded (kept : b.WellKept) (orderly : b.Orderly) (recorded : b.Recorded)
    (move : Move s b cause r) : (b.applyAll r.commands).Recorded := by
  have follows := move.follows kept orderly
  cases move with
  | revised known edge plain =>
      rw [Books.applyAll_chain] at follows ⊢
      exact recorded.congr follows rfl rfl
  | rewarded known edge told =>
      rw [Books.applyAll_chain] at follows ⊢
      exact recorded.congr follows rfl rfl
  | depositMoved found edge plain =>
      rw [Books.applyAll_deposit] at follows ⊢
      exact recorded.congr follows rfl rfl
  | @redeemed id' chain epoch batch amount owed owner known current fresh positive priced
      worthwhile covered found burnedFits redeemableFits =>
      obtain ⟨rfl, rfl, pending, stored⟩ := orderly.collecting_redemption kept current found
      exact recorded.redeemed amount owed known pending fresh stored
  | redemptionMoved found edge plain =>
      rw [Books.applyAll_redemption]
      exact recorded.restatus kept found edge.not_done _ _
  | @unbonded id' chain batch shares total completion receipts notices found awaited known summed
      due told =>
      have revised : (b.putChain (chain.undelegating receipts shares total)).Recorded := by
        refine recorded.congr (.putChain fun other stored => ?_) rfl rfl
        rw [Chain.id_undelegating, kept.chainKey known] at stored
        cases known.symm.trans stored
        exact ⟨by simp, by simp⟩
      exact revised.restatus (kept.putChain _) found (by rw [awaited]; nofun) (some completion)
        .waiting
  | released found awaited plain =>
      rw [Books.applyAll_released]
      exact recorded.released kept found
  | paid known found claimable covered => exact recorded.paid kept found claimable
  | registered | requested | repriced | epochStarted | deposited | depositOpened | delegated
  | reinvested | quiet | stale | unanswered => exact recorded.congr follows rfl rfl

end LiquidStaking
