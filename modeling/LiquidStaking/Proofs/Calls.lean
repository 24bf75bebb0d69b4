import LiquidStaking.Contract.Execute
import LiquidStaking.Contract.SetUp
import LiquidStaking.Proofs.Effects

/-!
# Calls of the contract

Whatever is asked of the contract, replied to it or reported to it, it does one of few
things to the hub: it asks something of it, tells it how an outstanding operation ended,
or leaves it alone.  Its storage mirrors the hub throughout.
-/

namespace LiquidStaking

variable {host : Host} {store store' : Store} {h : HubState} {ended : Answer × Store}

def Execution.fits : Execution → Bool
  | .admin request => request.request.fits
  | .user (.payClaim _ epoch) => decide (epoch < Width.limit 64)
  | .registerChain request =>
      Roster.sized request.validators && decide (request.unbondingPeriod < Width.limit 64)
  | .startEpoch _ epoch => decide (epoch < Width.limit 64)
  | _ => true

/-! ## Settings -/

namespace Store

theorem applyRole?_same {command : RoleCommand} (applied : store.applyRole? command = some store') :
    store.SameRecords store' := by
  cases command with
  | setAdmin admin => exact .setText? .admin rfl applied
  | setPendingAdmin nominee =>
      cases nominee with
      | none =>
          cases applied
          exact .remove .pendingAdmin rfl store
      | some nominee => exact .setText? .pendingAdmin rfl applied
  | setKeeper keeper => exact .setText? .keeper rfl applied

theorem applyRoles?_same {commands : List RoleCommand}
    (applied : store.applyRoles? commands = some store') : store.SameRecords store' := by
  induction commands generalizing store with
  | nil =>
      cases applied
      exact .refl _
  | cons command commands ih =>
      simp only [applyRoles?, List.foldlM_cons, Option.bind_eq_bind, Option.bind_eq_some_iff]
        at applied
      obtain ⟨next, first, rest⟩ := applied
      exact (applyRole?_same first).trans (ih rest)

end Store

namespace Contract

variable {caller : Caller}

theorem setUp_same {sender : Address} {setup : Setup}
    (done : setUp host sender store setup = .ok ended) : store.SameRecords ended.2 := by
  simp only [setUp, Attempt.bind_eq_ok, Attempt.promised_eq_ok] at done
  obtain ⟨-, -, created, creator, kept, keeper, configured, config, done⟩ := done
  obtain rfl := Attempt.pure_eq_ok.mp done
  refine (Store.SameRecords.setText? .creator rfl creator).trans ?_
  have keeps : created.SameRecords kept := by
    cases given : setup.keeper with
    | none =>
        rw [given] at keeper
        cases keeper
        exact .refl _
    | some address =>
        rw [given] at keeper
        simp only [recordKeeper, Attempt.bind_eq_ok, Attempt.promised_eq_ok] at keeper
        obtain ⟨-, -, applied⟩ := keeper
        exact Store.applyRole?_same applied
  refine keeps.trans ?_
  simp only [recordConfig?, Option.bind_eq_bind, Option.bind_eq_some_iff, Option.pure_def,
    Option.some.injEq] at config
  obtain ⟨first, delegation, second, undelegation, rfl⟩ := config
  exact (Store.SameRecords.setText? .delegationEpoch rfl delegation).trans <|
    (Store.SameRecords.setText? .undelegationEpoch rfl undelegation).trans <|
    (Store.SameRecords.put .accountTimeout rfl second _).trans <|
    .put .transferTimeout rfl _ _

theorem changeRoles_same {request : RoleRequest}
    (done : changeRoles host caller store request = .ok ended) :
    store.SameRecords ended.2 ∧ ended.1.submissions = [] := by
  simp only [changeRoles, Attempt.bind_eq_ok, Attempt.promised_eq_ok] at done
  obtain ⟨commands, -, next, applied, done⟩ := done
  obtain rfl := Attempt.pure_eq_ok.mp done
  exact ⟨Store.applyRoles?_same applied, rfl⟩

theorem updateConfig_same {accountTimeout transferTimeout : Option Seconds}
    (done : updateConfig caller store accountTimeout transferTimeout = .ok ended) :
    store.SameRecords ended.2 ∧ ended.1.submissions = [] := by
  simp only [updateConfig, Attempt.bind_eq_ok] at done
  obtain ⟨-, -, -, -, -, -, done⟩ := done
  obtain rfl := Attempt.pure_eq_ok.mp done
  refine ⟨?_, rfl⟩
  have account : store.SameRecords (accountTimeout.elim store store.setAccountTimeout) := by
    cases accountTimeout with
    | none => exact .refl store
    | some seconds => exact .put .accountTimeout rfl store _
  refine account.trans ?_
  cases transferTimeout with
  | none => exact .refl _
  | some seconds => exact .put .transferTimeout rfl _ _

/-! ## Calls -/

inductive Call where
  | execute (caller : Caller) (request : Execution)
  | replyIssued (id : Nat) (data : Option String)
  | replyRejected (id : Nat) (error : String)
  | notify (notification : Notification)

def Caller.fits (caller : Caller) : Bool :=
  caller.funds.all fun coin => decide (coin.amount < Width.limit 128)

namespace Call

def answer (host : Host) (store : Store) : Call → Attempt ContractError (Answer × Store)
  | .execute caller request => Contract.execute host caller store request
  | .replyIssued id data => Contract.replyIssued store id data
  | .replyRejected id error => Contract.replyRejected host store id error
  | .notify notification => Contract.notify host store notification

def fits : Call → Bool
  | .execute caller request => caller.fits && request.fits
  | _ => true

def isSetting : Call → Bool
  | .execute _ (.role _) => true
  | .execute _ (.updateConfig ..) => true
  | _ => false

def handing? : Call → Option RegistryCall
  | .replyRejected id _ => some (.unstash id)
  | .notify notification =>
      match notification.packet? with
      | some ⟨some sequence, some port, some channel⟩ => some (.take channel port sequence)
      | _ => none
  | _ => none

def opens? : Call → Option String
  | .notify (.channelOpened port _) => some port
  | _ => none

def registers : Call → List String
  | .execute _ (.registerChain request) =>
      ControlAccount.all.map (ControlPort.accountId request.chain)
  | _ => []

inductive Asks (host : Host) (store : Store) : Call → Request → Prop
  | administered {caller : Caller} {request : AdminRequest} :
      Asks host store (.execute caller (.admin request)) request.request
  | epochStarted {caller : Caller} {identifier : String} {epoch : Epoch} {kind : EpochKind}
      (named : store.epochKind? identifier = some (some kind)) :
      Asks host store (.execute caller (.startEpoch identifier epoch)) (.startEpoch kind epoch)
  | deposited {caller : Caller} {chain : ChainId} {amount : Amount}
      (small : amount < Width.limit 128) :
      Asks host store (.execute caller (.user (.deposit chain)))
        (.deposit chain amount caller.sender)
  | redeemed {caller : Caller} {chain : ChainId} {amount : Amount}
      (small : amount < Width.limit 128) :
      Asks host store (.execute caller (.user (.redeem chain)))
        (.redeem chain amount caller.sender)
  | claimed {caller : Caller} {chain : ChainId} {epoch : Epoch} :
      Asks host store (.execute caller (.user (.payClaim chain epoch)))
        (.payClaim caller.sender epoch chain)
  | registered {caller : Caller} {request : ChainRequest} (plain : '.' ∉ request.chain.toList) :
      Asks host store (.execute caller (.registerChain request))
        (.register (Contract.registration host request))
  | opened {port version : String} {id : ChainId} {account : ControlAccount} {address : Address}
      (parsed : ControlPort.parse? port = some (id, account)) :
      Asks host store (.notify (.channelOpened port version)) (.accountOpened id account address)

variable {call : Call} {request : Request} {answer : Answer} {r : Response}

theorem Asks.fits (asks : call.Asks host store request) (typed : call.fits = true) :
    request.fits = true := by
  cases asks with
  | administered | epochStarted | claimed | registered =>
      exact (Bool.and_eq_true_iff.mp typed).2
  | deposited small | redeemed small => exact decide_eq_true small
  | opened => rfl

/-- What a call that is answered does in the state of the hub. -/
inductive Does (host : Host) (store : Store) (h : HubState) : Call → Answer → HubState → Prop
  | nothing {call : Call} {answer : Answer} (silent : call.opens? = none)
      (calm : answer.relayed = 0) (none : answer.accounts = []) : Does host store h call answer h
  | restores {caller : Caller} {id : ChainId} {name : String} {account : ControlAccount}
      {answer : Answer} (known : (h.books.chain? id).isSome = true) (calm : answer.relayed = 0)
      (one : answer.accounts = [ControlPort.accountId id account]) :
      Does host store h (.execute caller (.restoreAccount id name)) answer h
  | asks {call : Call} {request : Request} {answer : Answer} {r : Response}
      (asks : call.Asks host store request)
      (answered : request.answer h.books.view host.surroundings = .ok r)
      (relayed : answer.relayed = r.dispatched.length)
      (accounts : answer.accounts = call.registers) :
      Does host store h call answer (h.commit r)
  | tells {call : Call} {op : RemoteOp} {outcome : Outcome} {answer : Answer} {r : Response}
      (silent : call.opens? = none) (waited : op ∈ h.outstanding)
      (answered : Hub.resolve h.books.view host.surroundings op outcome = .ok r)
      (relayed : answer.relayed = r.dispatched.length) (none : answer.accounts = []) :
      Does host store h call answer (HubState.commit ⟨h.books, h.outstanding.erase op⟩ r)

end Call

end Contract

/-! ## What calls do -/

/-- Storage mirrors a state that the hub can be in. -/
structure Store.KeepsUp (store : Store) (h : HubState) : Prop where
  mirrors : store.Mirrors h
  reached : h.Reached

namespace Contract

variable {caller : Caller}

theorem payment_small {id : ChainId} {denom : Chain → Denom} {amount : Amount}
    (typed : caller.fits = true) (paid : payment caller store id denom = .ok amount) :
    amount < Width.limit 128 := by
  simp only [payment, Attempt.bind_eq_ok, ofPayment, Attempt.mapCause_eq_ok] at paid
  obtain ⟨-, -, chain, -, paid⟩ := paid
  unfold requiredPayment at paid
  split at paid
  · cases paid
  · rename_i coin funds
    rw [Caller.fits, funds] at typed
    split at paid
    · cases paid
    · split at paid
      · cases paid
        simpa using typed
      · cases paid
  · cases paid

theorem userRequest_asks {request : UserRequest} {asked : Request} {attributes : List Attribute}
    (typed : (Call.execute caller (.user request)).fits = true)
    (named : userRequest caller store request = .ok (asked, attributes)) :
    (Call.execute caller (.user request)).Asks host store asked := by
  cases request with
  | payClaim chain epoch =>
      obtain ⟨rfl, -⟩ := Prod.mk.inj (Attempt.pure_eq_ok.mp named)
      exact .claimed
  | deposit chain =>
      simp only [userRequest, Attempt.bind_eq_ok] at named
      obtain ⟨amount, paid, named⟩ := named
      obtain ⟨rfl, -⟩ := Prod.mk.inj (Attempt.pure_eq_ok.mp named)
      exact .deposited (payment_small (Bool.and_eq_true_iff.mp typed).1 paid)
  | redeem chain =>
      simp only [userRequest, Attempt.bind_eq_ok] at named
      obtain ⟨amount, paid, named⟩ := named
      obtain ⟨rfl, -⟩ := Prod.mk.inj (Attempt.pure_eq_ok.mp named)
      exact .redeemed (payment_small (Bool.and_eq_true_iff.mp typed).1 paid)

theorem plain_of_named {id : ChainId} (named : ControlPort.chainIdError? id = none) :
    '.' ∉ id.toList := by
  unfold ControlPort.chainIdError? at named
  split at named
  · cases named
  · assumption

theorem Notification.fits_of_tells {notification : Notification} {outcome : Outcome}
    (tells : notification.Tells outcome) : outcome.fits = true := by
  cases notification with
  | acknowledged packet data => exact tells.2
  | failed packet | timedOut packet =>
      cases tells
      rfl
  | channelOpened port version | queryResult => exact tells.elim

theorem notify_complete {notification : Notification} {packet : Packet}
    (about : notification.packet? = some packet)
    (notified : notify host store notification = .ok ended) :
    (∃ channel port sequence, packet = ⟨some sequence, some port, some channel⟩) ∨
      (ended.2 = store ∧ ended.1.submissions = []) := by
  have resolved {outcome? : Store → String → RemoteOp → Readable (Outcome × List Attribute)}
      (resolved : resolvePacket host store packet outcome? = .ok ended) :
      (∃ channel port sequence, packet = ⟨some sequence, some port, some channel⟩) ∨
        (ended.2 = store ∧ ended.1.submissions = []) := by
    obtain ⟨sequence, port, channel⟩ := packet
    unfold resolvePacket at resolved
    split at resolved
    · rename_i channel port sequence channelGiven portGiven sequenceGiven
      cases channelGiven
      cases portGiven
      cases sequenceGiven
      exact .inl ⟨channel, port, sequence, rfl⟩
    · cases resolved
      exact .inr ⟨rfl, rfl⟩
  cases notification with
  | acknowledged packet data | failed packet | timedOut packet =>
      cases about
      rw [notify] at notified
      exact resolved notified
  | channelOpened port version | queryResult => cases about

variable {request : Request} {begun answer : Answer} {r : Response}

/-! ## Ways of a call -/

structure Begins (begun : Answer) (accounts : List String) : Prop where
  calm : ∀ submission ∈ begun.submissions, submission.Local
  accounts : begun.accounts = accounts

theorem Begins.report (attributes : List Attribute) (notices : List Notice) :
    Begins (Answer.report attributes notices) [] := ⟨Answer.local_report attributes notices, rfl⟩

namespace Call

inductive Way (host : Host) (store : Store) : Call → Answer → Store → Prop
  | sets {call : Call} {answer : Answer} {store' : Store} (setting : call.isSetting = true)
      (same : store.SameRecords store') (quiet : answer.submissions = []) :
      Way host store call answer store'
  | restores {caller : Caller} {id : ChainId} {name : String} {account : ControlAccount}
      {chain : Chain} {fee : Coin} {answer : Answer}
      (known : store.chain? id = some (some chain))
      (one : answer.submissions = [⟨requestAccount id chain.connection fee account, none⟩]) :
      Way host store (.execute caller (.restoreAccount id name)) answer store
  | asks {call : Call} {request : Request} {r : Response} {begun answer : Answer} {store' : Store}
      (asks : call.fits = true → call.Asks host store request)
      (answered : request.answer store.view host.surroundings = .ok r)
      (begins : Begins begun call.registers)
      (carried : carryOut host store r.commands begun = .ok (answer, store')) :
      Way host store call answer store'
  | pays {caller : Caller} {execution : Execution} {request : Request} {r : Response}
      {begun answer : Answer} {store' : Store}
      (asks : (Call.execute caller execution).fits = true →
        (Call.execute caller execution).Asks host store request)
      (answered : request.answer store.view host.surroundings = .ok r)
      (begins : Begins begun (Call.execute caller execution).registers)
      (carried : carryOutPaid host caller store r begun = .ok (answer, store')) :
      Way host store (.execute caller execution) answer store'
  | ignored {notification : Notification} {answer : Answer}
      (silent : (Call.notify notification).opens? = none)
      (takesNothing : (Call.notify notification).handing? = none)
      (quiet : answer.submissions = []) :
      Way host store (.notify notification) answer store
  | registers {id sequence : Nat} {data : Option String} {channel : String}
      {found : Option RemoteOp} {answer : Answer} {store' : Store}
      (called : store.call? (.register id channel sequence) = some (.found found, store'))
      (quiet : answer.submissions = []) :
      Way host store (.replyIssued id data) answer store'
  | tells {call : Call} {handing : RegistryCall} {found : Option RemoteOp} {next : Store}
      {tells : Outcome → Prop} {answer : Answer} {store' : Store}
      (takes : call.handing? = some handing)
      (fits : ∀ outcome, tells outcome → outcome.fits = true)
      (called : store.call? handing = some (.found found, next))
      (resolves : Resolves host next tells (answer, store') found) :
      Way host store call answer store'

variable {call : Call}

theorem silent_of_setting (setting : call.isSetting = true) :
    call.handing? = none ∧ call.opens? = none := by
  cases call with
  | execute caller request => exact ⟨rfl, rfl⟩
  | replyIssued id data | replyRejected id error | notify notification => cases setting

theorem handsOut_of_handing {handing : RegistryCall} (takes : call.handing? = some handing) :
    handing.handsOut = true ∧ call.opens? = none := by
  cases call with
  | execute caller request | replyIssued id data => cases takes
  | replyRejected id error =>
      cases takes
      exact ⟨rfl, rfl⟩
  | notify notification =>
      simp only [handing?] at takes
      split at takes
      · rename_i about
        cases takes
        refine ⟨rfl, ?_⟩
        cases notification <;> first | rfl | cases about
      · cases takes

end Call

theorem execute_way {execution : Execution}
    (done : execute host caller store execution = .ok (answer, store')) :
    (Call.execute caller execution).Way host store answer store' := by
  cases execution with
  | role request =>
      obtain ⟨same, quiet⟩ := changeRoles_same done
      exact .sets rfl same quiet
  | updateConfig accountTimeout transferTimeout =>
      obtain ⟨same, quiet⟩ := updateConfig_same done
      exact .sets rfl same quiet
  | admin request =>
      simp only [execute, administer, Attempt.bind_eq_ok, ofHub, Attempt.mapCause_eq_ok] at done
      obtain ⟨-, -, response, answered, carried⟩ := done
      exact .pays (fun _ => .administered) answered (.report _ _) carried
  | startEpoch identifier epoch =>
      simp only [execute, startEpoch, requireEpochKind, Attempt.bind_eq_ok, Attempt.promised_eq_ok,
        Attempt.orRefuse_eq_ok, ofHub, Attempt.mapCause_eq_ok] at done
      obtain ⟨kind, ⟨_, named, rfl⟩, -, -, response, answered, carried⟩ := done
      have asked : (Request.startEpoch kind epoch).answer store.view host.surroundings =
        .ok response := answered
      exact .pays (fun _ => .epochStarted named) asked (.report _ _) carried
  | user request =>
      simp only [execute, serve, Attempt.bind_eq_ok, ofHub, Attempt.mapCause_eq_ok] at done
      obtain ⟨⟨asked, attributes⟩, named, response, answered, carried⟩ := done
      exact .asks (fun typed => userRequest_asks typed named) answered (.report _ _) carried
  | registerChain request =>
      simp only [execute, registerChain] at done
      split at done
      · exact absurd done Attempt.refuse_ne_ok
      rename_i named
      simp only [Attempt.bind_eq_ok, ofHub, Attempt.mapCause_eq_ok] at done
      obtain ⟨-, -, fee, -, required, -, paid, -, -, -, -, -, response, answered, carried⟩ := done
      have asked : (Request.register (registration host request)).answer store.view
        host.surroundings = .ok response := answered
      refine .asks (fun _ => .registered (plain_of_named named)) asked ⟨?_, rfl⟩ carried
      refine Answer.local_addMessages (Answer.local_report _ _) ?_
      exact List.forall_mem_cons.mpr ⟨rfl, List.forall_mem_map.mpr fun _ _ => rfl⟩
  | restoreAccount id name =>
      simp only [execute, restoreAccount, Attempt.bind_eq_ok, Attempt.promised_eq_ok,
        Attempt.orRefuse_eq_ok] at done
      obtain ⟨-, -, account, -, found, read, chain, rfl, fee, -, paid, -, -, -, done⟩ := done
      obtain ⟨rfl, rfl⟩ := Prod.mk.inj (Attempt.pure_eq_ok.mp done)
      exact .restores read rfl

theorem notify_way {notification : Notification}
    (done : notify host store notification = .ok (answer, store')) :
    (Call.notify notification).Way host store answer store' := by
  have reported {packet : Packet} (about : notification.packet? = some packet) :
      (Call.notify notification).Way host store answer store' := by
    by_cases complete : ∃ channel port sequence,
        packet = ⟨some sequence, some port, some channel⟩
    · obtain ⟨channel, port, sequence, rfl⟩ := complete
      obtain ⟨found, next, called, resolves⟩ := notify_takes about done
      have takes : (Call.notify notification).handing? = some (.take channel port sequence) := by
        rw [Call.handing?, about]
      exact .tells takes (fun _ => Notification.fits_of_tells) called resolves
    · obtain ⟨rfl, quiet⟩ := (notify_complete about done).resolve_left complete
      have takesNothing : (Call.notify notification).handing? = none := by
        rw [Call.handing?, about]
        split
        · rename_i same
          exact absurd ⟨_, _, _, Option.some.inj same⟩ complete
        · rfl
      have silent : (Call.notify notification).opens? = none := by
        cases notification <;> first | rfl | cases about
      exact .ignored silent takesNothing quiet
  cases notification with
  | acknowledged packet data | failed packet | timedOut packet => exact reported rfl
  | queryResult =>
      cases done
      exact .ignored rfl rfl rfl
  | channelOpened port version =>
      simp only [notify, accountOpened, Attempt.bind_eq_ok, Attempt.orRefuse_eq_ok, ofHub,
        Attempt.mapCause_eq_ok] at done
      obtain ⟨⟨id, account⟩, parsed, address, -, response, answered, carried⟩ := done
      have asked : (Request.accountOpened id account address).answer store.view
        host.surroundings = .ok response := answered
      exact .asks (fun _ => .opened parsed) asked (.report _ _) carried

theorem Call.way {call : Call} (done : call.answer host store = .ok (answer, store')) :
    call.Way host store answer store' := by
  cases call with
  | execute caller execution => exact execute_way done
  | replyIssued id data =>
      obtain ⟨sequence, channel, found, -, called, quiet⟩ := replyIssued_registers done
      exact .registers called quiet
  | replyRejected id error =>
      obtain ⟨found, next, called, resolves⟩ := replyRejected_withdraws done
      exact .tells rfl (by rintro _ rfl; rfl) called resolves
  | notify notification => exact notify_way done

/-! ## Asking and telling -/

section Carrying

variable (upTo : store.KeepsUp h)

include upTo

theorem requested_view {s : Surroundings} (answered : request.answer store.view s = .ok r) :
    request.answer h.books.view s = .ok r := upTo.mirrors.holds.view ▸ answered

theorem Call.does_asked {call : Call} (asks : call.Asks host store request)
    (typed : call.fits = true)
    (answered : request.answer store.view host.surroundings = .ok r)
    (begins : Begins begun call.registers)
    (carries : (∀ command ∈ r.commands, command.Fits) → (∀ op ∈ r.dispatched, op.Fits) →
      CarriesOut h r begun answer store') :
    ∃ h', call.Does host store h answer h' ∧ store'.KeepsUp h' := by
  have answered := requested_view upTo answered
  obtain ⟨written, started, reached⟩ := upTo.reached.asked (asks.fits typed) answered
  obtain ⟨mirrors, relayed, accounts⟩ := carries written started
  refine ⟨_, .asks asks answered ?_ (accounts.trans begins.accounts), mirrors, reached⟩
  rw [relayed, Answer.relayed_of_local begins.calm, Nat.zero_add]

theorem Call.does_tell {call : Call} {handing : RegistryCall} {found : Option RemoteOp}
    {next : Store} {tells : Outcome → Prop} (silent : call.opens? = none)
    (fits : ∀ outcome, tells outcome → outcome.fits = true) (hands : handing.handsOut = true)
    (called : store.call? handing = some (.found found, next))
    (resolves : Resolves host next tells (answer, store') found) :
    ∃ h', call.Does host store h answer h' ∧ store'.KeepsUp h' := by
  rcases upTo.mirrors.handOut hands called with ⟨rfl, rfl⟩ | ⟨op, rfl, waited, mirrors⟩
  · obtain ⟨rfl, none⟩ := resolves
    exact ⟨h, .nothing silent (Answer.relayed_of_none none) (Answer.accounts_of_none none), upTo⟩
  · obtain ⟨outcome, response, attributes, told, answered, carried⟩ := resolves
    rw [mirrors.holds.view] at answered
    obtain ⟨written, started, reached⟩ := upTo.reached.heard waited (fits outcome told) answered
    obtain ⟨mirrors, relayed, accounts⟩ := carryOut_mirrors mirrors written started carried
    exact ⟨_, .tells silent waited answered (relayed.trans (Nat.zero_add _)) accounts, mirrors,
      reached⟩

/-- What a call is answered, it did in the hub; storage keeps up. -/
theorem Call.does {call : Call} (typed : call.fits = true)
    (done : call.answer host store = .ok (answer, store')) :
    ∃ h', call.Does host store h answer h' ∧ store'.KeepsUp h' := by
  cases Call.way done with
  | sets setting same quiet =>
      exact ⟨h, .nothing (Call.silent_of_setting setting).2 (Answer.relayed_of_none quiet)
        (Answer.accounts_of_none quiet), upTo.mirrors.of_same same, upTo.reached⟩
  | @restores _ id _ account _ _ _ known one =>
      have known : some (h.books.chain? id) = some (some _) :=
        (upTo.mirrors.holds.chain? id).symm.trans known
      have calm : answer.relayed = 0 := by
        rw [Answer.relayed, one]
        rfl
      have accounts : answer.accounts = [ControlPort.accountId id account] := by
        rw [Answer.accounts, one]
        rfl
      exact ⟨h, .restores (by rw [Option.some.inj known]; rfl) calm accounts, upTo⟩
  | asks asks answered begins carried =>
      exact Call.does_asked upTo (asks typed) typed answered begins fun written started =>
        carryOut_mirrors upTo.mirrors written started carried
  | pays asks answered begins carried =>
      exact Call.does_asked upTo (asks typed) typed answered begins fun written started =>
        carryOutPaid_mirrors upTo.mirrors written started carried
  | ignored silent takesNothing quiet =>
      exact ⟨h, .nothing silent (Answer.relayed_of_none quiet) (Answer.accounts_of_none quiet),
        upTo⟩
  | registers called quiet =>
      exact ⟨h, .nothing rfl (Answer.relayed_of_none quiet) (Answer.accounts_of_none quiet),
        upTo.mirrors.register upTo.reached.outstanding_fits called, upTo.reached⟩
  | tells takes fits called resolves =>
      obtain ⟨hands, silent⟩ := Call.handsOut_of_handing takes
      exact Call.does_tell upTo silent fits hands called resolves

end Carrying

end Contract

end LiquidStaking
