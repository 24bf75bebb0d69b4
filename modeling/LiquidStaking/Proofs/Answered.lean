import LiquidStaking.Proofs.Calls

/-!
# What the hub grants is carried out

Where the hub grants what a call asks of it or tells it, the call succeeds: its messages can
be written, as the accounts they name are open, and issued, as long as there are timeouts,
reply ids and fees.  The admin stays who it is.
-/

namespace LiquidStaking

variable {host : Host} {store store' : Store} {h : HubState} {r : Response} {admin : Address}
  {next : Nat}

/-! ## Settings -/

namespace Store

def SameSettings (store store' : Store) : Prop :=
  ∀ key : Key, key.isSetting = true → store'.get? key.render = store.get? key.render

namespace SameSettings

theorem of_beside (beside : store.SameBeside store') : store.SameSettings store' :=
  fun key setting => beside key (Key.apart_of_setting setting).1

theorem of_called {call : RegistryCall} {answer : RegistryAnswer}
    (called : store.call? call = some (answer, store')) : store.SameSettings store' :=
  fun _ setting => call?_beside called (Key.apart_of_setting setting).2

end SameSettings

structure Able (store : Store) (host : Host) (admin : Address) (next : Nat) : Prop where
  admin : store.currentAdmin? = some admin
  timeouts : ∃ execution transfer, store.accountTimeout? = some execution ∧
    store.transferTimeout? = some transfer ∧ (host.later? (execution + transfer)).isSome = true
  replyId : ∃ found, store.number? Key.nextReplyId.render = some found ∧ found.getD 1 = next

namespace Able

variable (able : store.Able host admin next)

include able

theorem can {count : Nat} (room : next + count < Width.limit 64) : store.CanIssue host count where
  timeouts := able.timeouts
  replyIds := by
    obtain ⟨found, read, rfl⟩ := able.replyId
    exact ⟨found, read, room⟩

theorem of_same (same : store.SameSettings store') {after : Nat}
    (replyId : ∃ found, store'.number? Key.nextReplyId.render = some found ∧
      found.getD 1 = after) : store'.Able host admin after where
  admin := by
    have current := able.admin
    simpa only [currentAdmin?, text?, read?, same .admin rfl, same .creator rfl] using current
  timeouts := by
    simpa only [accountTimeout?, transferTimeout?, number?_of_get? (same .accountTimeout rfl),
      number?_of_get? (same .transferTimeout rfl)] using able.timeouts
  replyId := replyId

theorem beside (beside : store.SameBeside store') : store'.Able host admin next := by
  refine able.of_same (.of_beside beside) ?_
  rw [number?_of_get? (beside .nextReplyId rfl)]
  exact able.replyId

section Calls

variable {answer : RegistryAnswer} {port channel : String} {sequence : Nat} {op : RemoteOp}

theorem stash (room : next + 1 < Width.limit 64)
    (called : store.call? (.stash port op) = some (answer, store')) :
    store' = store.restash next port op ∧ store'.Able host admin (next + 1) := by
  have same := SameSettings.of_called called
  obtain ⟨found, read, rfl⟩ := able.replyId
  rw [call?_stash read, if_pos room] at called
  cases called
  exact ⟨rfl, able.of_same same ⟨_, number?_restash room, rfl⟩⟩

theorem exit {exit : Exit} {id : Nat}
    (called : store.call? (exit.call id) = some (answer, store')) :
    store'.Able host admin next := by
  refine able.of_same (.of_called called) ?_
  obtain ⟨found, -, -, rfl⟩ := exit_called exit called
  cases found with
  | none => exact able.replyId
  | some stashed =>
      rw [Option.elim_some, number?_leave]
      exact able.replyId

theorem take (called : store.call? (.take channel port sequence) = some (answer, store')) :
    store'.Able host admin next := by
  refine able.of_same (.of_called called) ?_
  obtain ⟨found, -, -, rfl⟩ := take_called called
  cases found with
  | none => exact able.replyId
  | some op =>
      rw [Option.elim_some, number?_remove_registered]
      exact able.replyId

end Calls

end Able

end Store

/-! ## Carrying out -/

namespace Contract

variable {begun answer : Answer} {b : Books} {op : RemoteOp} {ops : List RemoteOp}

def Prices (host : Host) (count : Nat) : Prop :=
  ∃ fee cost, host.minFee = some fee ∧ relayerCost host count = .ok cost

theorem issueAll?_able (holds : store.Holds b) (able : store.Able host admin next)
    (room : next + ops.length < Width.limit 64) (fee : RelayerFee)
    (equipped : ∀ op ∈ ops, op.Equipped b) :
    ∃ submissions store', issueAll? host fee store ops = some (submissions, store') ∧
      store'.Able host admin (next + ops.length) := by
  induction ops generalizing store next with
  | nil => exact ⟨[], store, rfl, able⟩
  | cons op ops ih =>
      rw [List.length_cons, Nat.add_comm ops.length, ← Nat.add_assoc] at room ⊢
      have first : next + 1 < Width.limit 64 := Nat.lt_of_le_of_lt (Nat.le_add_right _ _) room
      obtain ⟨submission, left, issued, holds, -⟩ :=
        issue?_spec holds (able.can first) fee (equipped op List.mem_cons_self)
      obtain ⟨_, _, _, -, -, -, called⟩ := issue?_stashes issued
      obtain ⟨submissions, last, rest, able⟩ := ih holds (able.stash first called).2 room
        fun other later => equipped other (List.mem_cons_of_mem _ later)
      refine ⟨submission :: submissions, last, ?_, able⟩
      simp only [issueAll?, issued, rest, Option.bind_eq_bind, Option.bind_some, Option.pure_def]

section Responses

variable (mirrors : store.Mirrors h) (able : store.Able host admin next)
  (written : ∀ command ∈ r.commands, command.Fits)

include mirrors able written

theorem carryOut_priced (room : next + r.dispatched.length < Width.limit 64)
    (equipped : ∀ op ∈ r.dispatched, op.Equipped (h.books.applyAll r.commands))
    (prices : r.dispatched ≠ [] → Prices host r.dispatched.length) (begun : Answer) :
    ∃ ended, carryOut host store r.commands begun = .ok ended ∧
      ended.2.Able host admin (next + r.dispatched.length) := by
  obtain ⟨recorded, applied, holds, beside⟩ := mirrors.holds.applyAll written
  simp only [carryOut, applied, Attempt.promised, Attempt.ok_bind]
  rw [operations_effects r.commands r.notices, issueOperations]
  split
  case isTrue none =>
    rw [none]
    exact ⟨_, rfl, able.beside beside⟩
  case isFalse some =>
    obtain ⟨fee, cost, asked, priced⟩ := prices some
    obtain ⟨submissions, last, issued, able⟩ :=
      issueAll?_able holds (able.beside beside) room fee equipped
    simp only [relayerFee, asked, Attempt.orRefuse, Attempt.ok_bind, priced, issued,
      Attempt.promised]
    exact ⟨_, rfl, able⟩

theorem carryOut_able (room : next + r.dispatched.length < Width.limit 64)
    (equipped : ∀ op ∈ r.dispatched, op.Equipped (h.books.applyAll r.commands))
    (prices : Prices host r.dispatched.length) (begun : Answer) :
    ∃ ended, carryOut host store r.commands begun = .ok ended ∧
      ended.2.Able host admin (next + r.dispatched.length) :=
  carryOut_priced mirrors able written room equipped (fun _ => prices) begun

theorem carryOut_stashes (one : r.dispatched = [op]) (room : next + 1 < Width.limit 64)
    (fits : op.Fits) (carried : carryOut host store r.commands begun = .ok (answer, store')) :
    ∃ chain message port, (h.books.applyAll r.commands).chain? op.chain = some chain ∧
      chain.Issues host.contract op message port ∧
      store'.document? (Key.stashed next).render = some (some (Stashed.mk port op)) := by
  obtain ⟨recorded, fee, submissions, holds, beside, issued, -⟩ :=
    carryOut_recorded mirrors.holds written carried
  simp only [one, issueAll?, Option.bind_eq_bind, Option.bind_eq_some_iff, Option.pure_def,
    Option.some.injEq, Prod.mk.injEq] at issued
  obtain ⟨⟨submission, _⟩, sent, _, rfl, -, rfl⟩ := issued
  obtain ⟨chain, port, _, known, issues, -, called⟩ := issue?_stashes sent
  obtain ⟨rfl, -⟩ := (able.beside beside).stash room called
  rw [holds.chain?, Option.some.injEq] at known
  exact ⟨chain, submission.message, port, known, issues, Store.stashed_restash fits⟩

end Responses

/-! ## Calls -/

/-- The call succeeds: its answer holds so many messages that relayers carry and asks for
these accounts, and storage keeps up with the hub. -/
def Call.Succeeds (call : Call) (host : Host) (store : Store) (relayed : Nat)
    (accounts : List String) (h' : HubState) (admin : Address) (next : Nat) : Prop :=
  ∃ answer store', call.answer host store = .ok (answer, store') ∧ answer.relayed = relayed ∧
    answer.accounts = accounts ∧ store'.KeepsUp h' ∧ store'.Able host admin next

section Succeeding

variable (upTo : store.KeepsUp h) (able : store.Able host admin next)

include upTo able

theorem carryOut_asked {request : Request} (typed : request.fits = true)
    (answered : request.answer h.books.view host.surroundings = .ok r)
    (room : next + r.dispatched.length < Width.limit 64)
    (prices : Prices host r.dispatched.length) (begun : Answer) :
    ∃ answer store', carryOut host store r.commands begun = .ok (answer, store') ∧
      answer.relayed = begun.relayed + r.dispatched.length ∧ answer.accounts = begun.accounts ∧
      store'.KeepsUp (h.commit r) ∧ store'.Able host admin (next + r.dispatched.length) := by
  obtain ⟨written, started, reached⟩ := upTo.reached.asked typed answered
  obtain ⟨⟨answer, store'⟩, carried, able⟩ := carryOut_able upTo.mirrors able written room
    (fun op => Hub.answer_equipped upTo.reached.wellKept answered) prices begun
  obtain ⟨mirrors, relayed, accounts⟩ := carryOut_mirrors upTo.mirrors written started carried
  exact ⟨answer, store', carried, relayed, accounts, ⟨mirrors, reached⟩, able⟩

section Opening

variable {port version : String} {id : ChainId} {account : ControlAccount} {address : Address}
  (parsed : ControlPort.parse? port = some (id, account))
  (read : openedAddress? version = some address)
  (answered : (Request.accountOpened id account address).answer h.books.view
    host.surroundings = .ok r)

include parsed read answered

theorem channelOpened_succeeds (room : next + r.dispatched.length < Width.limit 64)
    (prices : Prices host r.dispatched.length) :
    (Call.notify (.channelOpened port version)).Succeeds host store r.dispatched.length []
      (h.commit r) admin (next + r.dispatched.length) := by
  obtain ⟨answer, store', carried, relayed, accounts, kept, able⟩ :=
    carryOut_asked upTo able rfl answered room prices (Answer.report
      [("kind", "control_account_opened"), ("chain_id", id), ("control_account", account.name),
        ("address", address)] r.notices)
  refine ⟨answer, store', ?_, relayed.trans (Nat.zero_add _), accounts, kept, able⟩
  have answered : Hub.accountOpened store.view id account address = .ok r :=
    upTo.mirrors.holds.view ▸ answered
  simpa only [Call.answer, notify, accountOpened, parsed, read, answered, Attempt.orRefuse,
    Attempt.ok_bind, ofHub, Attempt.mapCause] using carried

theorem channelOpened_stashes (one : r.dispatched = [op]) (room : next + 1 < Width.limit 64)
    (done : notify host store (.channelOpened port version) = .ok (answer, store')) :
    ∃ chain message port, (h.commit r).books.chain? op.chain = some chain ∧
      chain.Issues host.contract op message port ∧
      store'.document? (Key.stashed next).render = some (some (Stashed.mk port op)) := by
  obtain ⟨written, started, -⟩ := upTo.reached.asked rfl answered
  have fits : op.Fits := started op (one ▸ List.mem_cons_self)
  have answered : Hub.accountOpened store.view id account address = .ok r :=
    upTo.mirrors.holds.view ▸ answered
  simp only [notify, accountOpened, parsed, read, answered, Attempt.orRefuse, Attempt.ok_bind,
    ofHub, Attempt.mapCause] at done
  exact carryOut_stashes upTo.mirrors able written one room fits done

end Opening

omit upTo able in
theorem authorizeAdmin_of (current : store.currentAdmin? = some admin) :
    Roles.authorizeAdmin store admin = .ok () := by
  simp [Roles.authorizeAdmin, current, Attempt.promised, Attempt.require, Attempt.ok_bind]

omit upTo able in
theorem authorizeKeeper_of {keeper : Option Address} {sender : Address}
    (appointed : store.keeper? = some keeper)
    (entitled : store.currentAdmin? = some sender ∨ keeper = some sender) :
    Roles.authorizeKeeper store sender = .ok () := by
  simp only [Roles.authorizeKeeper, appointed, Attempt.promised, Attempt.ok_bind]
  rcases entitled with current | rfl
  · rw [authorizeAdmin_of current]
    split <;> rfl
  · rw [if_pos rfl]
    rfl

omit upTo able in
theorem requiredPayment_single (denom : Denom) {amount : Amount} (positive : amount ≠ 0) :
    requiredPayment [⟨denom, amount⟩] denom = .ok amount := by
  simp [requiredPayment, positive]

theorem serve_succeeds {caller : Caller} {request : UserRequest} {asked : Request}
    {attributes : List Attribute} (typed : (Call.execute caller (.user request)).fits = true)
    (named : userRequest caller store request = .ok (asked, attributes))
    (answered : asked.answer h.books.view host.surroundings = .ok r)
    (room : next + r.dispatched.length < Width.limit 64)
    (prices : Prices host r.dispatched.length) :
    (Call.execute caller (.user request)).Succeeds host store r.dispatched.length [] (h.commit r)
      admin (next + r.dispatched.length) := by
  have asks : (Call.execute caller (.user request)).Asks host store asked :=
    userRequest_asks typed named
  obtain ⟨answer, store', carried, relayed, accounts, kept, able'⟩ :=
    carryOut_asked upTo able (asks.fits typed) answered room prices (Answer.report
      (("kind", request.name) :: ("account", caller.sender) :: attributes) r.notices)
  refine ⟨answer, store', ?_, relayed.trans (Nat.zero_add _), accounts, kept, able'⟩
  have answered : asked.answer store.view host.surroundings = .ok r :=
    upTo.mirrors.holds.view ▸ answered
  simpa only [Call.answer, execute, serve, named, answered, Attempt.ok_bind, ofHub,
    Attempt.mapCause] using carried

omit upTo able in
theorem carryOutPaid_exact (caller : Caller) {cost : Amount}
    (priced : relayerCost host r.transactions = .ok cost)
    (paid : allowedPayment caller.funds feeDenom = .ok cost) (begun : Answer) :
    carryOutPaid host caller store r begun = carryOut host store r.commands begun := by
  simp only [carryOutPaid, priced, paid, ofPayment, Attempt.mapCause, Attempt.ok_bind,
    Attempt.require, Nat.le_refl, if_true, Nat.lt_irrefl, if_false]
  cases carryOut host store r.commands begun <;> rfl

theorem startEpoch_succeeds {identifier : String} {epoch : Epoch} {kind : EpochKind}
    {keeper : Option Address} {funds : List Coin} {cost : Amount}
    (named : store.epochKind? identifier = some (some kind))
    (appointed : store.keeper? = some keeper) (small : epoch < Width.limit 64)
    (answered : Hub.startEpoch h.books.view host.surroundings kind epoch = .ok r)
    (priced : relayerCost host r.transactions = .ok cost)
    (paid : allowedPayment funds feeDenom = .ok cost)
    (room : next + r.dispatched.length < Width.limit 64)
    (prices : Prices host r.dispatched.length) :
    (Call.execute ⟨admin, funds⟩ (.startEpoch identifier epoch)).Succeeds host store
      r.dispatched.length [] (h.commit r) admin (next + r.dispatched.length) := by
  have typed : (Request.startEpoch kind epoch).fits = true := decide_eq_true small
  have asks : (Request.startEpoch kind epoch).answer h.books.view host.surroundings = .ok r :=
    answered
  obtain ⟨answer, store', carried, relayed, accounts, kept, able'⟩ :=
    carryOut_asked upTo able typed asks room prices (Answer.report
      [("kind", "before_epoch_start"), ("epoch_kind", kind.name), ("epoch", Digits.ofNat epoch)]
      r.notices)
  refine ⟨answer, store', ?_, relayed.trans (Nat.zero_add _), accounts, kept, able'⟩
  have authorized : Roles.authorizeKeeper store admin = .ok () :=
    authorizeKeeper_of appointed (.inl able.admin)
  have answered : Hub.startEpoch store.view host.surroundings kind epoch = .ok r :=
    upTo.mirrors.holds.view ▸ answered
  simpa only [Call.answer, execute, startEpoch, requireEpochKind, named, authorized, answered,
    Attempt.promised, Attempt.orRefuse, Attempt.ok_bind, ofHub, ofRoles, Attempt.mapCause,
    carryOutPaid_exact ⟨admin, funds⟩ priced paid] using carried

variable {fee : Coin} (asked : accountFee host = .ok fee)

include asked

theorem registerChain_succeeds (request : ChainRequest) {required : Amount}
    (named : ControlPort.chainIdError? request.chain = none) (called : request.subdenom ≠ "")
    (deposit : registrationDeposit host fee = .ok required) (positive : required ≠ 0)
    (answered : Hub.register h.books.view (registration host request) = .ok r)
    (typed : (Request.register (registration host request)).fits = true)
    (room : next < Width.limit 64) (prices : Prices host 0) :
    (Call.execute ⟨admin, [⟨fee.denom, required⟩]⟩ (.registerChain request)).Succeeds host store 0
      (ControlAccount.all.map (ControlPort.accountId request.chain)) (h.commit r) admin next := by
  have asks : (Request.register (registration host request)).answer h.books.view
      host.surroundings = .ok r := answered
  have none : r.dispatched.length = 0 := by
    cases Hub.answer_course upTo.reached.wellKept asks with
    | single move => rw [move.starts_nothing rfl, List.length_nil]
  obtain ⟨answer, store', carried, relayed, accounts, kept, able'⟩ :=
    carryOut_asked upTo able typed asks (by rwa [none]) (by rwa [none])
      ((Answer.report [("kind", "register_chain"), ("chain_id", request.chain),
        ("derivative_denom", (registration host request).derivativeDenom)] r.notices).addMessages
        (Message.createDenom request.subdenom ::
          ControlAccount.all.map (requestAccount request.chain request.connection fee)))
  rw [none] at relayed able'
  refine ⟨answer, store', ?_, relayed, accounts, kept, able'⟩
  have answered : Hub.register store.view (registration host request) = .ok r :=
    upTo.mirrors.holds.view ▸ answered
  simpa only [Call.answer, execute, registerChain, named, Attempt.require, called, ne_eq,
    not_false_eq_true, if_true, asked, deposit, requiredPayment_single fee.denom positive, answered,
    authorizeAdmin_of able.admin, Attempt.ok_bind, ofHub, ofRoles, ofPayment,
    Attempt.mapCause] using carried

theorem restoreAccount_succeeds {id : ChainId} {name : String} {account : ControlAccount}
    {chain : Chain} (named : ControlAccount.ofName? name = some account)
    (known : h.books.chain? id = some chain) (positive : fee.amount ≠ 0) :
    (Call.execute ⟨admin, [fee]⟩ (.restoreAccount id name)).Succeeds host store 0
      [ControlPort.accountId id account] h admin next := by
  have read : store.chain? id = some (some chain) := by
    rw [upTo.mirrors.holds.chain? id, known]
  refine ⟨(Answer.ofAttributes [("kind", "restore_control_account"), ("chain_id", id),
    ("control_account", account.name)]).addMessages
      [requestAccount id chain.connection fee account], store, ?_, rfl, rfl, upTo, able⟩
  simp only [Call.answer, execute, restoreAccount, authorizeAdmin_of able.admin, named, read, asked,
    requiredPayment_single fee.denom positive, Attempt.require, if_true, Attempt.promised,
    Attempt.orRefuse, Attempt.ok_bind, ofRoles, ofPayment, Attempt.mapCause]
  rfl

omit asked

theorem replyIssued_succeeds {id sequence : Nat} {data : Option String} {channel : String}
    {stashed : Stashed}
    (found : store.document? (Key.stashed id).render = some (some stashed))
    (told : data.bind issued? = some (sequence, channel)) :
    ∃ answer store', (Call.replyIssued id data).answer host store = .ok (answer, store') ∧
      answer.relayed = 0 ∧ answer.accounts = [] ∧ store'.KeepsUp h ∧ store'.Able host admin next ∧
      store'.registered? channel stashed.port sequence = some (some stashed.op) := by
  have called := Store.call?_exit found (.registered channel sequence)
  obtain ⟨answer, replied, nothing⟩ : ∃ answer, replyIssued store id data =
      .ok (answer, store.leave id stashed (.registered channel sequence)) ∧
      answer.submissions = [] := by
    have registers : store.register id channel sequence = some (some stashed.op,
        store.leave id stashed (.registered channel sequence)) := by
      simp only [Store.register, found, Option.bind_eq_bind, Option.bind_some]
      rfl
    simp only [replyIssued, told, registers, Attempt.promised, Attempt.ok_bind]
    exact ⟨_, rfl, rfl⟩
  have fits : stashed.op.Fits :=
    upTo.reached.outstanding_fits _ (upTo.mirrors.carries.leave found).1
  exact ⟨answer, _, replied, Answer.relayed_of_none nothing, Answer.accounts_of_none nothing,
    ⟨upTo.mirrors.register upTo.reached.outstanding_fits called, upTo.reached⟩, able.exit called,
    Store.registered?_leave stashed fits⟩

theorem resolvePacket_succeeds {channel port : String} {sequence : Nat} {outcome : Outcome}
    {remarks : List Attribute}
    {outcome? : Store → String → RemoteOp → Readable (Outcome × List Attribute)}
    (found : store.registered? channel port sequence = some (some op))
    (told : ∀ left, outcome? left port op = some (outcome, remarks)) (typed : outcome.fits = true)
    (answered : Hub.resolve h.books.view host.surroundings op outcome = .ok r)
    (room : next + r.dispatched.length < Width.limit 64)
    (prices : Prices host r.dispatched.length) :
    ∃ answer store', resolvePacket host store ⟨some sequence, some port, some channel⟩ outcome? =
        .ok (answer, store') ∧ answer.relayed = r.dispatched.length ∧ answer.accounts = [] ∧
      store'.KeepsUp (HubState.commit ⟨h.books, h.outstanding.erase op⟩ r) ∧
      store'.Able host admin (next + r.dispatched.length) := by
  let left := store.remove (Key.registered channel port sequence).render
  have takes : store.take channel port sequence = some (some op, left) := by
    simp only [Store.take, found, Option.bind_eq_bind, Option.bind_some]
    rfl
  have called : store.call? (.take channel port sequence) = some (.found (some op), left) :=
    Store.call?_take found
  obtain ⟨same, -⟩ | ⟨_, same, waited, mirrors⟩ := upTo.mirrors.handOut rfl called
  · cases same
  obtain rfl := Option.some.inj same
  obtain ⟨written, started, reached⟩ := upTo.reached.heard waited typed answered
  obtain ⟨⟨answer, store'⟩, carried, able⟩ := carryOut_able mirrors (able.take called) written room
    (fun op => Hub.resolve_equipped upTo.reached.wellKept answered) prices
    (Answer.report ([("channel", channel), ("port", port), ("sequence", Digits.ofNat sequence)] ++
      packetAttributes op outcome ++ remarks) r.notices)
  obtain ⟨mirrors', relayed, accounts⟩ := carryOut_mirrors mirrors written started carried
  refine ⟨answer, store', ?_, relayed.trans (Nat.zero_add _), accounts, ⟨mirrors', reached⟩, able⟩
  have answered : Hub.resolve left.view host.surroundings op outcome = .ok r :=
    mirrors.holds.view ▸ answered
  simpa only [resolvePacket, takes, told, answered, Attempt.promised, Attempt.ok_bind, ofHub,
    Attempt.mapCause] using carried

theorem timedOut_succeeds {channel port : String} {sequence : Nat}
    (found : store.registered? channel port sequence = some (some op))
    (answered : Hub.resolve h.books.view host.surroundings op .timeout = .ok r)
    (room : next + r.dispatched.length < Width.limit 64)
    (prices : Prices host r.dispatched.length) :
    (Call.notify (.timedOut ⟨some sequence, some port, some channel⟩)).Succeeds host store
      r.dispatched.length [] (HubState.commit ⟨h.books, h.outstanding.erase op⟩ r) admin
      (next + r.dispatched.length) := by
  simp only [Call.Succeeds, Call.answer, notify]
  exact resolvePacket_succeeds upTo able found (fun _ => rfl) rfl answered room prices

theorem arrived_succeeds {channel : String} {sequence : Nat} {data : Bytes}
    (found : store.registered? channel transferPort sequence = some (some op))
    (answered : Hub.resolve h.books.view host.surroundings op (.success []) = .ok r)
    (room : next + r.dispatched.length < Width.limit 64)
    (prices : Prices host r.dispatched.length) :
    (Call.notify (.acknowledged ⟨some sequence, some transferPort, some channel⟩ data)).Succeeds
      host store r.dispatched.length []
      (HubState.commit ⟨h.books, h.outstanding.erase op⟩ r) admin (next + r.dispatched.length) := by
  have told (left : Store) : successOf? left transferPort op data = some (.success [], []) :=
    if_pos rfl
  simp only [Call.Succeeds, Call.answer, notify]
  exact resolvePacket_succeeds upTo able found told rfl answered room prices

end Succeeding

end Contract

end LiquidStaking
