import LiquidStaking.Proofs.Keys
import LiquidStaking.Proofs.PaidOnce

/-!
# What belongs to whom

Every record and every operation is of one chain, and every claim is of one owner.  As
long as no owner has a slash in its name, the name of a claim tells both.  So what is
asked of the hub about a chain, or reported of an operation of it, writes records of that
chain only, and of claims those that were its own or are new.
-/

namespace LiquidStaking

variable {s : Surroundings} {b c : Books} {cause : Cause} {r : Response} {id : ChainId}
  {h : HubState}

/-! ## Names of claims -/

theorem toList_claimId (chain : ChainId) (epoch : Epoch) (owner : Address) :
    (claimId chain epoch owner).toList =
      (chain.toList ++ '/' :: Digits.render epoch) ++ '/' :: owner.toList := by
  simp [claimId, batchId, Digits.ofNat]

theorem claimId_injective {chain chain' : ChainId} {epoch epoch' : Epoch} {owner owner' : Address}
    (plain : '/' ∉ owner.toList) (plain' : '/' ∉ owner'.toList)
    (same : claimId chain epoch owner = claimId chain' epoch' owner') :
    chain = chain' ∧ epoch = epoch' ∧ owner = owner' := by
  have texts := congrArg String.toList same
  rw [toList_claimId, toList_claimId] at texts
  -- The owner is what follows the last slash, and the epoch what follows the one before.
  obtain ⟨batches, owners⟩ := Key.split_at_last plain plain' texts
  have noSlash (n : Nat) : '/' ∉ Digits.render n := Key.notMem_render (by decide) n
  obtain ⟨chains, epochs⟩ := Key.split_at_last (noSlash epoch) (noSlash epoch') batches
  exact ⟨String.toList_injective chains, Digits.ofNat_injective (congrArg String.ofList epochs),
    String.toList_injective owners⟩

/-! ## Chains and owners of what is asked and done -/

def Request.chain? : Request → Option ChainId
  | .register registration => some registration.chainId
  | .accountOpened chain _ _ => some chain
  | .updateValidators chain _ => some chain
  | .deposit chain _ _ => some chain
  | .redeem chain _ _ => some chain
  | .payClaim _ _ chain => some chain
  | .redriveDeposit chain _ => some chain
  | .resetDeposit chain _ => some chain
  | .resetRedemption chain _ => some chain
  | .startEpoch .. => none

def Request.delegator? : Request → Option Address
  | .deposit _ _ depositor => some depositor
  | .redeem _ _ owner => some owner
  | .payClaim owner _ _ => some owner
  | _ => none

/-- No delegator has a slash in its name. -/
def Request.Plain (request : Request) : Prop :=
  ∀ delegator, request.delegator? = some delegator → '/' ∉ delegator.toList

instance (request : Request) : Decidable request.Plain :=
  inferInstanceAs (Decidable (∀ delegator ∈ request.delegator?, '/' ∉ delegator.toList))

def Step.Plain : Step → Prop
  | .perform _ request => request.Plain
  | .acknowledge .. => True

instance : (step : Step) → Decidable step.Plain
  | .perform _ request => inferInstanceAs (Decidable request.Plain)
  | .acknowledge .. => inferInstanceAs (Decidable True)

def Cause.chain? : Cause → Option ChainId
  | .asked request => request.chain?
  | .heard op _ => some op.chain
  | .closed chain _ => some chain

def Cause.Plain : Cause → Prop
  | .asked request => request.Plain
  | _ => True

theorem Cause.plain_of {step : Step} (of : cause.Of step) (plain : step.Plain) : cause.Plain := by
  cases cause with
  | asked request =>
      obtain ⟨s, rfl⟩ := of
      exact plain
  | heard | closed => trivial

def Command.chain? : Command → Option ChainId
  | .chain record => some record.id
  | .epoch .. => none
  | .deposit record => some record.chain
  | .redemption record => some record.chain
  | .claim record => some record.chain
  | .token _ => none
  | .dispatch op => some op.chain

def Command.isClaim : Command → Bool
  | .claim _ => true
  | _ => false

/-! ## Claims a move writes -/

/-- The claims that are written, and for what: a redemption makes one, one is paid, or
those of a batch can be claimed. -/
inductive ClaimEdge (b : Books) : Cause → Claim → Prop
  | made {id : ChainId} {amount : Amount} {owner : Address} {claim : Claim}
      (fresh : b.claim? claim.id = none) (chain : claim.chain = id) (own : claim.owner = owner) :
      ClaimEdge b (.asked (.redeem id amount owner)) claim
  | paid {id : ChainId} {epoch : Epoch} {owner : Address} {claim : Claim}
      (found : b.claim? (claimId id epoch owner) = some claim) :
      ClaimEdge b (.asked (.payClaim owner epoch id)) { claim with status := .complete }
  | released {id : ChainId} {batch : RedemptionBatch} {amount : Amount} {receipts : List Receipt}
      {key : String} {claim : Claim} (stored : b.redemption? id batch.epoch = some batch)
      (member : key ∈ batch.members) (found : b.claim? key = some claim) :
      ClaimEdge b (.heard (.withdrawUnbonded id batch.epoch amount) (.success receipts))
        { claim with status := .claimable }

theorem Move.claim_edge (move : Move s b cause r) {claim : Claim}
    (written : .claim claim ∈ r.commands) : ClaimEdge b cause claim := by
  cases move with
  | redeemed known current fresh =>
      simp only [List.mem_cons, List.not_mem_nil, or_false, reduceCtorEq, false_or,
        Command.claim.injEq] at written
      subst written
      refine .made ?_ rfl rfl
      exact fresh
  | released stored awaited plain =>
      rcases List.mem_append.mp written with released | last
      · obtain ⟨old, listed, same⟩ := List.mem_map.mp released
        obtain ⟨key, member, found⟩ := List.mem_filterMap.mp listed
        cases same
        exact .released stored member found
      · cases List.mem_singleton.mp last
  | paid known found claimable covered =>
      simp only [List.mem_cons, List.not_mem_nil, or_false, reduceCtorEq,
        Command.claim.injEq] at written
      subst written
      exact .paid found
  | registered | revised | rewarded | requested | repriced | epochStarted | deposited
  | depositOpened | depositMoved | delegated | reinvested | redemptionMoved | unbonded | quiet
  | stale | unanswered => simp [Response.empty] at written

/-! ## Owners -/

def Books.PlainOwners (b : Books) : Prop :=
  ∀ key claim, b.claim? key = some claim → '/' ∉ claim.owner.toList

theorem Books.claim?_applyAll (b : Books) (commands : List Command) (key : String) :
    (b.applyAll commands).claim? key = b.claim? key ∨
      ∃ claim, .claim claim ∈ commands ∧ claim.id = key ∧
        (b.applyAll commands).claim? key = some claim := by
  induction commands using List.reverseRecOn with
  | nil => exact .inl rfl
  | append_singleton commands command ih =>
      have earlier (same : (b.applyAll (commands ++ [command])).claim? key =
          (b.applyAll commands).claim? key) :
          (b.applyAll (commands ++ [command])).claim? key = b.claim? key ∨
            ∃ claim, .claim claim ∈ commands ++ [command] ∧ claim.id = key ∧
              (b.applyAll (commands ++ [command])).claim? key = some claim := by
        rw [same]
        exact ih.imp_right fun ⟨claim, written, named, read⟩ =>
          ⟨claim, List.mem_append_left _ written, named, read⟩
      cases command with
      | claim record =>
          by_cases own : record.id = key
          · subst own
            exact .inr ⟨record, by simp, rfl, by simp [apply, claim?_putClaim]⟩
          · exact earlier (by simp [apply, claim?_putClaim, Ne.symm own])
      | _ => exact earlier (by simp [apply])

theorem Books.claim?_applyAll_iff {commands : List Command} {P : Claim → Prop}
    (own : ∀ claim, .claim claim ∈ commands → P claim ∧
      ∀ old, b.claim? claim.id = some old → P old) (key : String) {claim : Claim}
    (foreign : ¬P claim) :
    (b.applyAll commands).claim? key = some claim ↔ b.claim? key = some claim := by
  rcases b.claim?_applyAll commands key with same | ⟨written, member, rfl, now⟩
  · rw [same]
  · obtain ⟨mine, replaced⟩ := own written member
    constructor
    · intro read
      cases now.symm.trans read
      exact absurd mine foreign
    · exact fun found => absurd (replaced claim found) foreign

theorem Move.plainOwners (plain : cause.Plain) (owners : b.PlainOwners)
    (move : Move s b cause r) : (b.applyAll r.commands).PlainOwners := by
  intro key claim read
  rcases b.claim?_applyAll r.commands key with same | ⟨written, member, -, now⟩
  · exact owners key claim (same.symm.trans read)
  · cases now.symm.trans read
    cases move.claim_edge member with
    | made fresh chain own => exact own ▸ plain _ rfl
    | paid found | released stored member found =>
        have plainOwner := owners _ _ found
        exact plainOwner

namespace HubState

theorem step_plainOwners {step : Step} (plain : step.Plain) (kept : h.books.WellKept)
    (owners : h.books.PlainOwners) : (h.step step).books.PlainOwners :=
  step_preserves (P := fun _ h => h.books.PlainOwners) (t := .zero)
    (fun _ owners move _ of => move.plainOwners (Cause.plain_of of plain) owners) kept owners

theorem after_plainOwners {steps : List Step} (plain : ∀ step ∈ steps, step.Plain) :
    (after steps).books.PlainOwners := by
  induction steps using List.reverseRecOn with
  | nil => exact nofun
  | append_singleton steps step ih =>
      rw [after_append]
      exact step_plainOwners (plain step (by simp)) (after_wellKept steps)
        (ih fun earlier member => plain earlier (List.mem_append_left _ member))

end HubState

/-- Claims and batches know of each other, and every claim tells its owner. -/
structure Books.Attributed (b : Books) : Prop where
  kept : b.WellKept
  recorded : b.Recorded
  owners : b.PlainOwners

theorem HubState.after_attributed {steps : List Step} (plain : ∀ step ∈ steps, step.Plain) :
    (after steps).books.Attributed where
  kept := after_wellKept steps
  recorded := (after_reconciled steps).recorded
  owners := after_plainOwners plain

theorem Books.Attributed.of_claimId (attributed : b.Attributed) {epoch : Epoch} {owner : Address}
    (plain : '/' ∉ owner.toList) {claim : Claim}
    (found : b.claim? (claimId id epoch owner) = some claim) :
    claim.chain = id ∧ claim.epoch = epoch ∧ claim.owner = owner := by
  refine claimId_injective (attributed.owners _ _ found) plain ?_
  rw [← (attributed.recorded.joined found).named]
  exact attributed.kept.claimKey found

/-! ## What a move writes -/

section Edges

variable {chain chain' : Chain} {ops : List RemoteOp}

theorem ChainEdge.about (edge : ChainEdge b id chain cause chain' ops) :
    cause.chain? = some id ∧ ∀ op ∈ ops, op.chain = id := by
  cases edge with
  | opened account address =>
      refine ⟨rfl, fun op started => ?_⟩
      split at started
      · rw [List.mem_singleton.mp started]
        rfl
      · cases started
  | restaffed | withdrawAddressSet | closed => exact ⟨rfl, nofun⟩

theorem RewardEdge.about {reported : Amount}
    (edge : RewardEdge b id chain cause chain' ops reported) {owner : ChainId}
    (about : cause.chain? = some owner) : owner = id ∧ ∀ op ∈ ops, op.chain = id := by
  cases edge with
  | collected held bothOpen => cases about
  | forwarded bothOpen held =>
      cases about
      refine ⟨rfl, fun op started => ?_⟩
      rw [List.mem_singleton.mp started]
      rfl
  | kept held | bounced unable =>
      cases about
      exact ⟨rfl, nofun⟩

theorem DepositEdge.about {batch : DepositBatch} {next : DepositStatus} {op : Option RemoteOp}
    (edge : DepositEdge b id batch cause next op) {owner : ChainId}
    (about : cause.chain? = some owner) : owner = id ∧ ∀ op' ∈ op, op'.chain = id := by
  cases edge <;> cases about <;> simp [RemoteOp.chain]

theorem RedemptionEdge.about {batch : RedemptionBatch} {next : RedemptionStatus}
    {op : Option RemoteOp} (edge : RedemptionEdge s b id batch cause next op) {owner : ChainId}
    (about : cause.chain? = some owner) : owner = id ∧ ∀ op' ∈ op, op'.chain = id := by
  cases edge <;> cases about <;> simp [RemoteOp.chain]

end Edges

def Command.StaysWith (id : ChainId) (command : Command) : Prop :=
  command.chain? = some id ∨ command.isClaim = true ∨ command.isToken = true

theorem Command.staysWith_cons {first : Command} {rest : List Command} (own : first.StaysWith id)
    (others : ∀ command ∈ rest, command.StaysWith id) :
    ∀ command ∈ first :: rest, command.StaysWith id := by
  intro command member
  rcases List.mem_cons.mp member with rfl | later
  · exact own
  · exact others command later

theorem Command.staysWith_dispatches {ops : List RemoteOp} (own : ∀ op ∈ ops, op.chain = id) :
    ∀ command ∈ ops.map Command.dispatch, command.StaysWith id := by
  intro command member
  obtain ⟨op, started, rfl⟩ := List.mem_map.mp member
  exact .inl (congrArg some (own op started))

theorem Command.staysWith_dispatch? {op : Option RemoteOp} (own : ∀ op' ∈ op, op'.chain = id) :
    ∀ command ∈ (op.map Command.dispatch).toList, command.StaysWith id := by
  intro command member
  obtain ⟨op, started, rfl⟩ := Option.map_eq_some_iff.mp (Option.mem_toList.mp member)
  exact .inl (congrArg some (own op started))

/-- Whatever a move is made for, it stays with the chain of that, its claims apart. -/
theorem Move.stays (kept : b.WellKept) (about : cause.chain? = some id) (move : Move s b cause r) :
    ∀ command ∈ r.commands, command.StaysWith id := by
  have nothing : ∀ command ∈ ([] : List Command), command.StaysWith id := nofun
  cases move with
  | registered sound fresh => exact Command.staysWith_cons (.inl about) nothing
  | revised known edge plain =>
      obtain ⟨own, started⟩ := edge.about
      cases own.symm.trans about
      have key := edge.revises.id.trans (kept.chainKey known)
      exact Command.staysWith_cons (.inl (congrArg some key)) (Command.staysWith_dispatches started)
  | rewarded known edge told =>
      obtain ⟨rfl, started⟩ := edge.about about
      have key := edge.revises.id.trans (kept.chainKey known)
      exact Command.staysWith_cons (.inl (congrArg some key)) (Command.staysWith_dispatches started)
  | deposited known current found =>
      cases about
      have key := kept.depositKey (Books.mem_deposits found).1
      exact Command.staysWith_cons (.inl (congrArg some key))
        (Command.staysWith_cons (.inr (.inr rfl)) nothing)
  | depositMoved found edge plain =>
      obtain ⟨rfl, started⟩ := edge.about about
      have key := kept.depositKey (Books.mem_deposits found).1
      exact Command.staysWith_cons (.inl (congrArg some key)) (Command.staysWith_dispatch? started)
  | @delegated id chain batch shares total receipts notices found awaited known summed told =>
      cases about
      have revised := (chain.id_delegating receipts shares total).trans (kept.chainKey known)
      have key := kept.depositKey (Books.mem_deposits found).1
      exact Command.staysWith_cons (.inl (congrArg some revised))
        (Command.staysWith_cons (.inl (congrArg some key)) nothing)
  | @reinvested id epoch batch amount receipts notices current found plain =>
      cases about
      have key : batch.chain = id := by
        rw [found]
        cases stored : b.deposit? id epoch with
        | none => rfl
        | some batch => exact kept.depositKey (Books.mem_deposits stored).1
      exact Command.staysWith_cons (.inl (congrArg some key)) nothing
  | @redeemed id chain epoch batch amount owed owner known current fresh positive priced worthwhile
      covered found =>
      cases about
      have key : batch.chain = id := by
        rw [found]
        cases stored : b.redemption? id epoch with
        | none => rfl
        | some batch => exact kept.redemptionKey (Books.mem_redemptions stored).1
      exact Command.staysWith_cons (.inl (congrArg some key))
        (Command.staysWith_cons (.inr (.inl rfl)) nothing)
  | redemptionMoved found edge plain =>
      obtain ⟨rfl, started⟩ := edge.about about
      have key := kept.redemptionKey (Books.mem_redemptions found).1
      exact Command.staysWith_cons (.inl (congrArg some key)) (Command.staysWith_dispatch? started)
  | @unbonded id chain batch shares total completion receipts notices found awaited known summed
      due told =>
      cases about
      have revised := (chain.id_undelegating receipts shares total).trans (kept.chainKey known)
      have key := kept.redemptionKey (Books.mem_redemptions found).1
      exact Command.staysWith_cons (.inl (congrArg some revised))
        (Command.staysWith_cons (.inl (congrArg some key))
          (Command.staysWith_cons (.inr (.inr rfl)) nothing))
  | released found awaited plain =>
      cases about
      have key := kept.redemptionKey (Books.mem_redemptions found).1
      intro command member
      rcases List.mem_append.mp member with claimed | last
      · obtain ⟨claim, -, rfl⟩ := List.mem_map.mp claimed
        exact .inr (.inl rfl)
      · rw [List.mem_singleton.mp last]
        exact .inl (congrArg some key)
  | paid known found claimable covered =>
      exact Command.staysWith_cons (.inr (.inl rfl))
        (Command.staysWith_cons (.inr (.inr rfl)) nothing)
  | requested | repriced | epochStarted | depositOpened | quiet => cases about
  | stale | unanswered => exact nothing

theorem ClaimEdge.replaces (kept : b.WellKept) {claim : Claim} (edge : ClaimEdge b cause claim)
    {old : Claim} (stands : b.claim? claim.id = some old) :
    old.chain = claim.chain ∧ old.owner = claim.owner := by
  cases edge with
  | made fresh chain own => cases fresh.symm.trans stands
  | @paid _ _ _ claim found | @released _ _ _ _ _ claim stored member found =>
      have same : b.claim? claim.id = some claim := (kept.claimKey found).symm ▸ found
      cases same.symm.trans stands
      exact ⟨rfl, rfl⟩

theorem ClaimEdge.chain_eq (attributed : b.Attributed) (plain : cause.Plain)
    (about : cause.chain? = some id) {claim : Claim} (edge : ClaimEdge b cause claim) :
    claim.chain = id := by
  cases edge with
  | made fresh chain =>
      cases about
      exact chain
  | @paid id epoch owner claim found =>
      cases about
      exact (attributed.of_claimId (plain owner rfl) found).1
  | @released id batch amount receipts key claim stored member found =>
      cases about
      have inBatches := (Books.mem_redemptions stored).1
      obtain ⟨claim', found', own, -⟩ := (attributed.recorded.enrolled inBatches).member key member
      cases found.symm.trans found'
      exact own.trans (attributed.kept.redemptionKey inBatches)

theorem ClaimEdge.owner_eq (attributed : b.Attributed) {request : Request} {owner : Address}
    (plain : '/' ∉ owner.toList) (asks : request.delegator? = some owner) {claim : Claim}
    (edge : ClaimEdge b (.asked request) claim) : claim.owner = owner := by
  cases edge with
  | made fresh chain own =>
      cases asks
      exact own
  | paid found =>
      cases asks
      exact (attributed.of_claimId plain found).2.2

/-! ## Responses that stay with a chain -/

structure Response.StaysWith (r : Response) (b : Books) (id : ChainId) : Prop where
  own : ∀ command ∈ r.commands, command.chain? = some id ∨ command.isToken = true
  replaces : ∀ claim, .claim claim ∈ r.commands → ∀ old, b.claim? claim.id = some old →
    old.chain = id

theorem Course.stays (attributed : b.Attributed) (plain : cause.Plain)
    (about : cause.chain? = some id) (course : Course s b cause r) : r.StaysWith b id := by
  have single {r : Response} (move : Move s b cause r) : r.StaysWith b id := by
    have claims {claim : Claim} (written : .claim claim ∈ r.commands) : claim.chain = id :=
      (move.claim_edge written).chain_eq attributed plain about
    refine ⟨fun command member => ?_, fun claim written old stands =>
      ((move.claim_edge written).replaces attributed.kept stands).1.trans (claims written)⟩
    rcases move.stays attributed.kept about command member with own | claim | tokens
    · exact .inl own
    · cases command with
      | claim record => exact .inl (congrArg some (claims member))
      | _ => cases claim
    · exact .inr tokens
  cases course with
  | single move => exact single move
  | @closing op outcome account first second move closing =>
      -- The account is closed last, and all that this writes is the chain.
      obtain ⟨record, last⟩ := closing.closed_commands
      have ofAccount : (Cause.closed op.chain account).chain? = some id := about
      have closes := closing.stays (attributed.kept.applyAll _) ofAccount
      rw [last] at closes
      have only : record.id = id := by
        rcases closes _ List.mem_cons_self with own | claims | tokens
        · exact Option.some.inj own
        · cases claims
        · cases tokens
      refine ⟨fun command member => ?_, fun claim written => ?_⟩
      · rcases List.mem_append.mp member with before | after
        · exact (single move).own command before
        · rw [last, List.mem_singleton] at after
          exact .inl (after ▸ congrArg some only)
      · rcases List.mem_append.mp written with before | after
        · exact (single move).replaces claim before
        · rw [last, List.mem_singleton] at after
          cases after
  | passing passage => cases about

theorem Request.answer_stays (attributed : b.Attributed) {request : Request}
    (plain : request.Plain) (about : request.chain? = some id)
    (granted : request.answer b.view s = .ok r) : r.StaysWith b id := by
  have plain : (Cause.asked request).Plain := plain
  exact (Hub.answer_course attributed.kept granted).stays attributed plain about

theorem Hub.resolve_stays (attributed : b.Attributed) {op : RemoteOp} {outcome : Outcome}
    (granted : resolve b.view s op outcome = .ok r) : r.StaysWith b op.chain := by
  have plain : (Cause.heard op outcome).Plain := trivial
  exact (resolve_course attributed.kept granted).stays attributed plain rfl

structure Books.DiffersAt (b c : Books) (id : ChainId) : Prop where
  epochs : c.epoch? = b.epoch?
  others : ∀ other, other ≠ id → b.Agree c other
  claims : ∀ key claim, claim.chain ≠ id → (c.claim? key = some claim ↔ b.claim? key = some claim)

theorem Response.StaysWith.differs (stays : r.StaysWith b id) :
    b.DiffersAt (b.applyAll r.commands) id := by
  have concerns : ∀ command ∈ r.commands, command.Concerns id := by
    intro command member
    have own := stays.own command member
    cases command with
    | chain record | deposit record | redemption record =>
        exact own.elim (fun own => Option.some.inj own) fun token => Bool.noConfusion token
    | epoch kind number => rcases own with own | token <;> contradiction
    | claim | token | dispatch => trivial
  refine ⟨Books.applyAll_epoch? concerns, fun other differ => Books.applyAll_agree concerns differ,
    fun key claim foreign => ?_⟩
  refine Books.claim?_applyAll_iff (P := fun claim => claim.chain = id) (fun claim written =>
    ⟨?_, stays.replaces claim written⟩) key foreign
  exact (stays.own _ written).elim (fun own => Option.some.inj own) fun token =>
    Bool.noConfusion token

end LiquidStaking
