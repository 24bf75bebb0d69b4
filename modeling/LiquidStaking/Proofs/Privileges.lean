import LiquidStaking.Proofs.Attribution
import LiquidStaking.Proofs.Settings

/-!
# Privileges

Whoever is not the admin can deposit, redeem and claim, take over the role if nominated,
and start epochs as the keeper; nothing else is granted.  A deposit, a redemption or a
claim starts nothing on any other chain, leaves the chains, the epochs and all settings
alone, and concerns no claim of another owner.
-/

namespace LiquidStaking

open Contract (Caller Call)

variable {host : Host} {store store' : Store} {caller : Caller} {sender : Address}
  {ended : Answer × Store} {seats : Seats}

/-! ## Attempts that fail -/

namespace Attempt

variable {ε δ α β : Type} {abort : Prop} {attempt : Attempt ε α}

/-- The attempt fails, and aborts for one reason only. -/
def Fails (attempt : Attempt ε α) (abort : Prop) : Prop :=
  ∃ stop, attempt = .error stop ∧ (stop = .aborted → abort)

theorem fails_refuse (cause : ε) (abort : Prop) : (refuse cause : Attempt ε α).Fails abort :=
  ⟨_, rfl, nofun⟩

theorem Fails.bind {next : α → Attempt ε β} (aborts : attempt = .error .aborted → abort)
    (later : ∀ value, attempt = .ok value → (next value).Fails abort) :
    (attempt >>= next).Fails abort := by
  cases attempt with
  | error stop => exact ⟨stop, rfl, fun same => aborts (congrArg _ same)⟩
  | ok value => exact later value rfl

theorem orRefuse_ne_aborted {found : Option α} {cause : ε} :
    orRefuse found cause ≠ .error .aborted := by
  cases found <;> simp [orRefuse, refuse]

theorem require_ne_aborted {condition : Prop} [Decidable condition] {cause : ε} :
    require condition cause ≠ .error .aborted := by
  by_cases h : condition <;> simp [require, h, refuse]

theorem mapCause_eq_aborted {f : ε → δ} :
    mapCause f attempt = .error .aborted ↔ attempt = .error .aborted := by
  cases attempt with
  | ok value => simp [mapCause]
  | error stop => cases stop <;> simp [mapCause, refuse, Attempt.abort]

end Attempt

/-! ## What is open to whom -/

/-- What a sender may ask for without being the admin. -/
inductive Permitted (store : Store) (sender : Address) : Execution → Prop
  | user {request : UserRequest} : Permitted store sender (.user request)
  | nominee (nominated : store.pendingAdmin? = some (some sender)) :
      Permitted store sender (.role .claimAdmin)
  | keeper {identifier : String} {epoch : Epoch}
      (appointed : store.keeper? = some (some sender)) :
      Permitted store sender (.startEpoch identifier epoch)

section Strangers

variable (seated : store.seats? = some seats) (stranger : sender ≠ seats.admin)

include seated stranger

theorem Roles.authorizeAdmin_refuses :
    Roles.authorizeAdmin store sender = Attempt.refuse .unauthorized := by
  obtain ⟨admin, -, -⟩ := Store.seats?_eq_some.mp seated
  simp [Roles.authorizeAdmin, admin, Attempt.promised, Attempt.require, Attempt.ok_bind, stranger]

theorem Roles.authorizeKeeper_refuses (other : seats.keeper ≠ some sender) :
    Roles.authorizeKeeper store sender = Attempt.refuse .unauthorized := by
  obtain ⟨-, -, keeper⟩ := Store.seats?_eq_some.mp seated
  simp only [Roles.authorizeKeeper, keeper, Attempt.promised, Attempt.ok_bind, if_neg other,
    authorizeAdmin_refuses seated stranger]

omit stranger in
theorem Roles.claimAdmin_refuses (other : seats.pending ≠ some sender) :
    Roles.claimAdmin store sender = Attempt.refuse .unauthorized := by
  obtain ⟨-, pending, -⟩ := Store.seats?_eq_some.mp seated
  simp only [Roles.claimAdmin, pending, Attempt.promised, Attempt.ok_bind]
  cases waits : seats.pending with
  | none => rfl
  | some nominee =>
      have differ : sender ≠ nominee := fun same => other (same ▸ waits)
      simp only [Attempt.orRefuse, Attempt.ok_bind, Attempt.require, if_neg differ]
      rfl

end Strangers

namespace Contract

def RegistrationOverflows (host : Host) : Prop :=
  ∃ fee, accountFee host = .ok fee ∧ registrationDeposit host fee = .error .aborted

theorem accountFee_ne_aborted : accountFee host ≠ .error .aborted := by
  unfold accountFee
  cases host.registerFee with
  | none => exact nofun
  | some fees => exact Attempt.orRefuse_ne_aborted

theorem requiredPayment_ne_aborted {funds : List Coin} {denom : Denom} :
    ofPayment (requiredPayment funds denom) ≠ .error .aborted := by
  refine mt Attempt.mapCause_eq_aborted.mp ?_
  unfold requiredPayment
  repeat' split
  all_goals simp [Attempt.refuse]

section Strangers

variable (settled : store.Settled) (seated : store.seats? = some seats)
  (stranger : caller.sender ≠ seats.admin)

include seated stranger

theorem authorize_refuses :
    ofRoles (Roles.authorizeAdmin store caller.sender) = Attempt.refuse (.role .unauthorized) := by
  rw [Roles.authorizeAdmin_refuses seated stranger]
  rfl

theorem changeRoles_refuses {request : RoleRequest}
    (closed : ¬Permitted store caller.sender (.role request)) :
    changeRoles host caller store request = Attempt.refuse (.role .unauthorized) := by
  have refuses := Roles.authorizeAdmin_refuses seated stranger
  cases request with
  | nominateAdmin | cancelNomination | setKeeper =>
      simp only [changeRoles, roleCommands, Roles.nominate, Roles.cancelNomination,
        Roles.setKeeper, refuses]
      rfl
  | claimAdmin =>
      have other : seats.pending ≠ some caller.sender := fun nominated =>
        closed (.nominee (nominated ▸ (Store.seats?_eq_some.mp seated).2.1))
      simp only [changeRoles, roleCommands, Roles.claimAdmin_refuses seated other]
      rfl

include settled in
theorem startEpoch_fails {identifier : String} {epoch : Epoch} {abort : Prop}
    (closed : ¬Permitted store caller.sender (.startEpoch identifier epoch)) :
    (startEpoch host caller store identifier epoch).Fails abort := by
  have other : seats.keeper ≠ some caller.sender := fun appointed =>
    closed (.keeper (appointed ▸ (Store.seats?_eq_some.mp seated).2.2))
  obtain ⟨kind, named⟩ := settled.epochKind? identifier
  refine Attempt.Fails.bind (fun aborts => ?_) fun kind _ => ?_
  · rw [requireEpochKind, named] at aborts
    exact absurd aborts Attempt.orRefuse_ne_aborted
  · rw [Roles.authorizeKeeper_refuses seated stranger other]
    exact Attempt.fails_refuse _ _

theorem registerChain_fails (request : ChainRequest) :
    (registerChain host caller store request).Fails (RegistrationOverflows host) := by
  unfold registerChain
  split
  · exact Attempt.fails_refuse _ _
  refine .bind (fun aborts => absurd aborts Attempt.require_ne_aborted) fun _ _ => ?_
  refine .bind (fun aborts => absurd aborts accountFee_ne_aborted) fun fee asked => ?_
  refine .bind (fun aborts => ⟨fee, asked, aborts⟩) fun required _ => ?_
  refine .bind (fun aborts => absurd aborts requiredPayment_ne_aborted) fun paid _ => ?_
  refine .bind (fun aborts => absurd aborts Attempt.require_ne_aborted) fun _ _ => ?_
  rw [authorize_refuses seated stranger]
  exact Attempt.fails_refuse _ _

include settled in
theorem execute_fails {request : Execution} (closed : ¬Permitted store caller.sender request) :
    (execute host caller store request).Fails
      (RegistrationOverflows host ∧ ∃ chain, request = .registerChain chain) := by
  have authorize := authorize_refuses seated stranger
  cases request with
  | user request => exact absurd .user closed
  | role request =>
      rw [execute, changeRoles_refuses seated stranger closed]
      exact Attempt.fails_refuse _ _
  | admin | restoreAccount | updateConfig =>
      simp only [execute, administer, restoreAccount, updateConfig, authorize]
      exact Attempt.fails_refuse _ _
  | startEpoch identifier epoch => exact startEpoch_fails settled seated stranger closed
  | registerChain request =>
      obtain ⟨stop, fails, aborts⟩ : (execute host caller store (.registerChain request)).Fails
          (RegistrationOverflows host) := registerChain_fails seated stranger request
      exact ⟨stop, fails, fun aborted => ⟨aborts aborted, request, rfl⟩⟩

end Strangers

/-! ## States of the contract -/

def Call.Plain : Call → Prop
  | .execute caller _ => '/' ∉ caller.sender.toList
  | _ => True

instance : (call : Call) → Decidable call.Plain
  | .execute caller _ => inferInstanceAs (Decidable ('/' ∉ caller.sender.toList))
  | .replyIssued .. | .replyRejected .. | .notify .. => .isTrue trivial

/-- The contract is set up, and then these calls succeed. -/
inductive Instantiated : List Call → Store → Prop
  | setUp {host : Host} {sender : Address} {setup : Setup} {ended : Answer × Store}
      (done : Contract.setUp host sender .empty setup = .ok ended) : Instantiated [] ended.2
  | call {calls : List Call} {store : Store} {host : Host} {call : Call} {ended : Answer × Store}
      (earlier : Instantiated calls store) (typed : call.fits = true)
      (done : call.answer host store = .ok ended) : Instantiated (calls ++ [call]) ended.2

theorem Call.Asks.plain {call : Call} {request : Request} (asks : call.Asks host store request)
    (plain : call.Plain) : request.Plain := by
  cases asks with
  | @administered caller request => cases request <;> exact nofun
  | epochStarted | registered | opened => exact nofun
  | deposited | redeemed | claimed =>
      rintro _ ⟨⟩
      exact plain

theorem Call.Does.plainOwners {call : Call} {answer : Answer} {h h' : HubState}
    (does : call.Does host store h answer h') (plain : call.Plain) (kept : h.books.WellKept)
    (owners : h.books.PlainOwners) : h'.books.PlainOwners := by
  cases does with
  | nothing | restores => exact owners
  | @asks call request answer r asks answered =>
      have step : (Step.perform host.surroundings request).Plain := asks.plain plain
      rw [HubState.commit_asked answered]
      exact HubState.step_plainOwners step kept owners
  | @tells call op outcome answer r silent waited answered =>
      rw [HubState.commit_heard waited answered]
      have step (index : Nat) : (Step.acknowledge host.surroundings index outcome).Plain := trivial
      exact HubState.step_plainOwners (step _) kept owners

namespace Instantiated

variable {calls : List Call}

theorem settled (instantiated : Instantiated calls store) : store.Settled := by
  induction instantiated with
  | setUp done => exact setUp_settled done
  | call earlier typed done ih => exact Call.settled ih done

theorem timed (instantiated : Instantiated calls store) : store.Timed := by
  induction instantiated with
  | setUp done => exact setUp_timed done
  | call earlier typed done ih => exact Call.timed ih done

/-- Storage keeps up with a hub whose claims are of plain owners, if only such have called. -/
theorem keepsUp (instantiated : Instantiated calls store) :
    ∃ h, store.KeepsUp h ∧ ((∀ call ∈ calls, call.Plain) → h.books.PlainOwners) := by
  induction instantiated with
  | setUp done =>
      exact ⟨.initial, ⟨Store.Mirrors.empty.of_same (setUp_same done), .initial⟩, fun _ => nofun⟩
  | call earlier typed done ih =>
      obtain ⟨h, upTo, owners⟩ := ih
      obtain ⟨h', does, upTo'⟩ := Call.does upTo typed done
      refine ⟨h', upTo', fun plain => ?_⟩
      obtain ⟨before, last⟩ := List.forall_mem_append.mp plain
      exact does.plainOwners (List.forall_mem_singleton.mp last) upTo.reached.wellKept
        (owners before)

end Instantiated

end Contract

/-! ## What depositors do -/

section Depositors

variable {s : Surroundings} {b : Books} {r : Response} {request : Request}

theorem Request.startsNothing_of_delegator (asks : request.delegator?.isSome = true) :
    request.startsNothing = true := by
  cases request <;> first | rfl | cases asks

theorem Move.keeps_profiles (move : Move s b (.asked request) r)
    (asks : request.delegator?.isSome = true) :
    (b.applyAll r.commands).chainIds = b.chainIds ∧
      (b.applyAll r.commands).chain? = b.chain? ∧ (b.applyAll r.commands).epoch? = b.epoch? := by
  cases move with
  | deposited | redeemed | paid => exact ⟨rfl, rfl, rfl⟩
  | revised known edge plain => cases edge <;> cases asks
  | rewarded known edge told => cases edge; cases asks
  | depositMoved found edge plain => cases edge <;> cases asks
  | redemptionMoved found edge plain => cases edge <;> cases asks
  | registered | requested | repriced | epochStarted | depositOpened | quiet => cases asks

theorem Move.spares (attributed : b.Attributed) {owner : Address}
    (plain : '/' ∉ owner.toList) (asks : request.delegator? = some owner)
    (move : Move s b (.asked request) r) (key : String) {claim : Claim}
    (other : claim.owner ≠ owner) :
    (b.applyAll r.commands).claim? key = some claim ↔ b.claim? key = some claim := by
  refine Books.claim?_applyAll_iff (P := fun claim => claim.owner = owner) (fun claim written => ?_)
    key other
  have edge := move.claim_edge written
  have own := edge.owner_eq attributed plain asks
  exact ⟨own, fun old stands => (edge.replaces attributed.kept stands).2.trans own⟩

end Depositors

/-! ## What users are granted -/

/-- What a call has done besides moving tokens: it has sent nothing to another chain and
asked for no account there; chains and epochs are as they were, and so are roles, the
configuration and the operations under way. -/
structure Store.Calm (store : Store) (ended : Answer × Store) : Prop where
  relayed : ended.1.relayed = 0
  accounts : ended.1.accounts = []
  chainIds : ended.2.chainIds = store.chainIds
  chains : ∀ id, ended.2.chain? id = store.chain? id
  epochs : ∀ kind, ended.2.epoch? kind = store.epoch? kind
  beside : store.SameBeside ended.2

def Store.Spares (store : Store) (owner : Address) (store' : Store) : Prop :=
  ∀ (key : String) (claim : Claim), claim.owner ≠ owner →
    (store'.claim? key = some (some claim) ↔ store.claim? key = some (some claim))

theorem HubState.Reached.recorded {h : HubState} (reached : h.Reached) : h.books.Recorded := by
  obtain ⟨steps, -, rfl⟩ := reached
  exact (after_reconciled steps).recorded

namespace Contract

variable {h : HubState} {r : Response} {begun answer : Answer}

theorem carryOut_beside (mirrors : store.Mirrors h) (written : ∀ command ∈ r.commands, command.Fits)
    (idle : r.dispatched = [])
    (carried : carryOut host store r.commands begun = .ok (answer, store')) :
    store.SameBeside store' := by
  obtain ⟨recorded, fee, submissions, holds, beside, issued, -⟩ :=
    carryOut_recorded mirrors.holds written carried
  rw [idle] at issued
  cases issued
  exact beside

theorem Call.Asks.delegator {request : UserRequest} {asked : Request}
    (asks : (Call.execute caller (.user request)).Asks host store asked) :
    asked.delegator? = some caller.sender := by
  cases asks <;> rfl

theorem serve_moves (upTo : store.KeepsUp h) {request : UserRequest}
    (typed : (Call.execute caller (.user request)).fits = true)
    (done : execute host caller store (.user request) = .ok (answer, store')) :
    ∃ asked r, asked.delegator? = some caller.sender ∧
      Move host.surroundings h.books (.asked asked) r ∧
      store'.Holds (h.books.applyAll r.commands) ∧ store.SameBeside store' ∧
      answer.relayed = 0 ∧ answer.accounts = [] := by
  simp only [execute, serve, Attempt.bind_eq_ok, ofHub, Attempt.mapCause_eq_ok] at done
  obtain ⟨⟨asked, attributes⟩, named, r, answered, carried⟩ := done
  have asks : (Call.execute caller (.user request)).Asks host store asked :=
    userRequest_asks typed named
  have answered := requested_view upTo answered
  obtain ⟨written, started, -⟩ := upTo.reached.asked (asks.fits typed) answered
  have user : asked.delegator?.isSome = true := by rw [asks.delegator, Option.isSome_some]
  have move : Move host.surroundings h.books (.asked asked) r := by
    cases Hub.answer_course upTo.reached.wellKept answered with
    | single move => exact move
    | passing passage => cases user
  have idle := move.starts_nothing (Request.startsNothing_of_delegator user)
  obtain ⟨mirrors, relayed, accounts⟩ := carryOut_mirrors upTo.mirrors written started carried
  rw [idle] at relayed
  exact ⟨asked, r, asks.delegator, move, mirrors.holds,
    carryOut_beside upTo.mirrors written idle carried, relayed, accounts⟩

/-- A sender who is not the admin is granted nothing but deposits, redemptions and payouts,
the role of the admin if nominated, and starts of epochs if appointed their keeper.
All else fails, and aborts only for a registration with fees beyond all bounds.  What
depositors are granted is calm, and spares the claims of others, as long as no sender has
a slash in its name. -/
theorem strangers_confined {calls : List Call} (instantiated : Instantiated calls store)
    (host : Host) (caller : Caller) (stranger : store.currentAdmin? ≠ some caller.sender) :
    (∀ request ended, execute host caller store request = .ok ended →
      Permitted store caller.sender request) ∧
    (∀ request, ¬Permitted store caller.sender request →
      (execute host caller store request).Fails
        (RegistrationOverflows host ∧ ∃ chain, request = .registerChain chain)) ∧
    ∀ request ended, (Call.execute caller (.user request)).fits = true →
      execute host caller store (.user request) = .ok ended →
      store.Calm ended ∧ ((∀ call ∈ calls, call.Plain) → '/' ∉ caller.sender.toList →
        store.Spares caller.sender ended.2) := by
  obtain ⟨seats, seated⟩ := instantiated.settled.seats
  have other : caller.sender ≠ seats.admin := fun same =>
    stranger (same ▸ (Store.seats?_eq_some.mp seated).1)
  have fails (request : Execution) (closed : ¬Permitted store caller.sender request) :
      (execute host caller store request).Fails
        (RegistrationOverflows host ∧ ∃ chain, request = .registerChain chain) :=
    execute_fails instantiated.settled seated other closed
  refine ⟨fun request ended done => ?_, fails, fun request ended typed done => ?_⟩
  · by_contra closed
    obtain ⟨stop, failed, -⟩ := fails request closed
    cases failed.symm.trans done
  · obtain ⟨answer, store'⟩ := ended
    obtain ⟨h, upTo, owners⟩ := instantiated.keepsUp
    obtain ⟨asked, r, asks, move, holds, beside, relayed, accounts⟩ := serve_moves upTo typed done
    have before := upTo.mirrors.holds
    obtain ⟨chainIds, chains, epochs⟩ := move.keeps_profiles (by rw [asks, Option.isSome_some])
    refine ⟨⟨relayed, accounts, ?_, fun id => ?_, fun kind => ?_, beside⟩,
      fun plain named key claim foreign => ?_⟩
    · rw [holds.chainIds, chainIds, before.chainIds]
    · rw [holds.chain?, chains, before.chain?]
    · rw [holds.epoch?, epochs, before.epoch?]
    · have attributed : h.books.Attributed :=
        ⟨upTo.reached.wellKept, upTo.reached.recorded, owners plain⟩
      rw [holds.claim?, before.claim?, Option.some.injEq, Option.some.injEq]
      exact move.spares attributed named asks key foreign

/-! ## A run to look at -/

open Till (sampleHost sampleSetup sampleRequest)

def sampleCalls : List Call :=
  [.execute ⟨"creator", [⟨"untrn", 202000⟩]⟩ (.registerChain sampleRequest),
    .execute ⟨"creator", []⟩ (.startEpoch "day" 1)]

def sampleRequests : List Step :=
  [.perform sampleHost.surroundings (.register (registration sampleHost sampleRequest)),
    .perform sampleHost.surroundings (.startEpoch .delegation 1)]

theorem sample_begins : ∃ store, Instantiated sampleCalls store ∧
    store.KeepsUp (HubState.after sampleRequests) ∧ store.Able sampleHost "creator" 1 ∧
      store.epochKind? "day" = some (some .delegation) := by
  obtain ⟨answer, store, done, able⟩ := Till.sample_setUp
  have upTo : store.KeepsUp .initial :=
    ⟨Store.Mirrors.empty.of_same (setUp_same done), .initial⟩
  obtain ⟨r, granted, nothing⟩ := Till.granted_of_dispatched
    (by decide +kernel : ((Request.register (registration sampleHost sampleRequest)).answer
      HubState.initial.books.view sampleHost.surroundings).toOption.map Response.dispatched =
        some [])
  have deposit : registrationDeposit sampleHost ⟨"untrn", 100000⟩ = .ok 202000 := by
    decide +kernel
  have registers := registerChain_succeeds upTo able
    (by decide +kernel : accountFee sampleHost = .ok ⟨"untrn", 100000⟩) sampleRequest
    (by decide +kernel) (by decide) deposit (by decide) granted (by decide +kernel) (by decide)
    Till.sample_prices.1
  rw [HubState.commit_asked granted] at registers
  obtain ⟨answer, store', registered, -, -, upTo, able⟩ := registers
  have upTo : store'.KeepsUp (HubState.after (sampleRequests.take 1)) := upTo
  have instantiated : Instantiated (sampleCalls.take 1) store' :=
    (Instantiated.setUp done).call (by decide +kernel) registered
  have named : store'.epochKind? "day" = some (some .delegation) := by
    have told : (setUp sampleHost "creator" .empty sampleSetup).toOption.map (fun ended =>
        ended.2.epochKind? "day") = some (some (some .delegation)) := by decide +kernel
    rw [done] at told
    rw [(Call.settings rfl registered).names.epochKind?]
    exact Option.some.inj told
  obtain ⟨seats, seated⟩ := instantiated.settled.seats
  obtain ⟨r, granted, nothing⟩ := Till.granted_of_dispatched
    (by decide +kernel : ((Request.startEpoch .delegation 1).answer
      (HubState.after (sampleRequests.take 1)).books.view sampleHost.surroundings).toOption.map
        Response.dispatched = some [])
  have starts := startEpoch_succeeds upTo able named (Store.seats?_eq_some.mp seated).2.2
    (by decide) granted (by rw [Response.transactions_of_none nothing]; rfl)
    (rfl : allowedPayment [] feeDenom = .ok 0) (by rw [nothing]; decide)
    (by rw [nothing]; exact Till.sample_prices.1)
  rw [HubState.commit_asked granted] at starts
  obtain ⟨answer, store'', started, -, -, upTo, able⟩ := starts
  rw [nothing] at able
  refine ⟨store'', instantiated.call (by decide) started, upTo, able, ?_⟩
  rw [(Call.settings rfl started).names.epochKind?, named]

theorem sample_instantiated : ∃ store, Instantiated sampleCalls store ∧
    store.KeepsUp (HubState.after sampleRequests) ∧ store.Able sampleHost "creator" 1 := by
  obtain ⟨store, instantiated, upTo, able, -⟩ := sample_begins
  exact ⟨store, instantiated, upTo, able⟩

def carol : Caller := ⟨"carol", [⟨voucherDenom "channel-0" "uatom", 1000⟩]⟩

theorem carol_served {next : Nat} (upTo : store.KeepsUp h)
    (able : store.Able sampleHost "creator" next) (room : next < Width.limit 64)
    (grants : ((Request.deposit "cosmoshub" 1000 "carol").answer h.books.view
      sampleHost.surroundings).toOption.map Response.dispatched = some [])
    (priced : (h.books.chain? "cosmoshub").map Chain.voucherDenom =
      some (voucherDenom "channel-0" "uatom")) :
    (Call.execute carol (.user (.deposit "cosmoshub"))).Succeeds sampleHost store 0 []
      (h.step (.perform sampleHost.surroundings (.deposit "cosmoshub" 1000 "carol")))
      "creator" next := by
  obtain ⟨r, granted, nothing⟩ := Till.granted_of_dispatched grants
  obtain ⟨chain, known, voucher⟩ := Option.map_eq_some_iff.mp priced
  have named : userRequest carol store (.deposit "cosmoshub") =
      .ok (.deposit "cosmoshub" 1000 "carol",
        [("chain_id", "cosmoshub"), ("amount", Digits.ofNat 1000)]) := by
    simp only [userRequest, carol, payment, upTo.mirrors.holds.chain?, known, voucher,
      Attempt.promised, Attempt.orRefuse, Attempt.ok_bind, ofHub, ofPayment, Attempt.mapCause,
      requiredPayment_single _ (by decide : (1000 : Amount) ≠ 0)]
    rfl
  have served := serve_succeeds upTo able (by decide) named granted
    (by rwa [nothing]) (by rw [nothing]; exact Till.sample_prices.1)
  rwa [nothing, HubState.commit_asked granted] at served

theorem carol_deposits (upTo : store.KeepsUp (HubState.after sampleRequests))
    (able : store.Able sampleHost "creator" 1) :
    ∃ ended, execute sampleHost carol store (.user (.deposit "cosmoshub")) = .ok ended := by
  obtain ⟨answer, after, done, -⟩ :=
    carol_served upTo able (by decide) (by decide +kernel) (by decide +kernel)
  exact ⟨(answer, after), done⟩

/-- Carol deposits, and has no say in the configuration. -/
theorem strangers_confined_sample : ∃ store, Instantiated sampleCalls store ∧
    (∃ ended, execute sampleHost carol store (.user (.deposit "cosmoshub")) = .ok ended ∧
      store.Calm ended ∧ store.Spares "carol" ended.2) ∧
    (execute sampleHost carol store (.updateConfig (some 1) none)).Fails False := by
  obtain ⟨store, instantiated, upTo, able⟩ := sample_instantiated
  have stranger : store.currentAdmin? ≠ some carol.sender := by
    rw [able.admin]
    decide
  obtain ⟨-, fails, serves⟩ := strangers_confined instantiated sampleHost carol stranger
  refine ⟨store, instantiated, ?_, ?_⟩
  · obtain ⟨ended, done⟩ := carol_deposits upTo able
    obtain ⟨calm, spares⟩ := serves _ _ (by decide) done
    exact ⟨ended, done, calm, spares (by decide) (by decide)⟩
  · have closed : ¬Permitted store carol.sender (.updateConfig (some 1) none) := by
      intro permitted
      cases permitted
    obtain ⟨stop, failed, aborts⟩ := fails _ closed
    refine ⟨stop, failed, fun aborted => ?_⟩
    obtain ⟨-, chain, same⟩ := aborts aborted
    cases same

end Contract

end LiquidStaking
