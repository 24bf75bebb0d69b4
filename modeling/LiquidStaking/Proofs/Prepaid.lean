import LiquidStaking.Proofs.Answered
import LiquidStaking.Proofs.Openings

/-!
# What relayers carry is paid for in advance

Whoever starts operations pays for the messages they leave with, and for those that word
of them leads to.  A registration pays for one message more, which sets the withdraw
address once both accounts are open.  An account that is restored is asked for without
one; as long as the withdraw address is not set, its opening starts one all the same.
-/

namespace LiquidStaking

variable {s : Surroundings} {h : HubState} {r : Response} {op : RemoteOp}

/-! ## Transactions to come -/

def RemoteOp.following (op : RemoteOp) : Nat := op.transactions - 1

theorem RemoteOp.following_succ (op : RemoteOp) : op.following + 1 = op.transactions :=
  Nat.succ_pred_eq_of_pos op.transactions_pos

theorem Response.transactions_eq (r : Response) :
    r.transactions = r.dispatched.length + RemoteOp.total RemoteOp.following r.dispatched := by
  rw [transactions]
  induction r.dispatched with
  | nil => rfl
  | cons op ops ih =>
      have own := op.following_succ
      simp only [List.map_cons, Width.total_cons, List.length_cons, RemoteOp.total_cons]
      omega

def HubState.due (h : HubState) : Nat := RemoteOp.total RemoteOp.following h.outstanding

theorem HubState.due_commit (h : HubState) (r : Response) :
    r.dispatched.length + (h.commit r).due = h.due + r.transactions := by
  rw [due, commit, RemoteOp.total_append, r.transactions_eq, due]
  omega

theorem HubState.due_erase (waited : op ∈ h.outstanding) :
    op.following + due ⟨h.books, h.outstanding.erase op⟩ = h.due :=
  (RemoteOp.total_perm RemoteOp.following (List.perm_cons_erase waited)).symm

/-! ## Runs of the contract -/

namespace Contract.Call

/-- What the call asks and pays for: requests of the admin, and starts of epochs. -/
def paysFor? (store : Store) : Call → Option Request
  | .execute _ (.admin request) => some request.request
  | .execute _ (.startEpoch identifier epoch) =>
      (store.epochKind? identifier).join.map fun kind => .startEpoch kind epoch
  | _ => none

def prepaid (host : Host) (store : Store) (call : Call) : Nat :=
  match call.paysFor? store with
  | none => 0
  | some request =>
      match request.answer store.view host.surroundings with
      | .ok response => response.transactions
      | .error _ => 0

def isRegistration : Call → Bool
  | .execute _ (.registerChain _) => true
  | _ => false

def isRestoring : Call → Bool
  | .execute _ (.restoreAccount ..) => true
  | _ => false

end Contract.Call

structure Till where
  store : Store
  /-- Messages sent that relayers carry. -/
  relayed : Nat
  /-- Transactions that calls paid for which ask the hub to start them. -/
  prepaid : Nat
  registered : Nat
  restored : Nat
  /-- Ports of the accounts that were asked for and not reported open yet. -/
  awaited : List String

namespace Till

open Contract (Call)

def ofStore (store : Store) : Till := ⟨store, 0, 0, 0, 0, []⟩

def after (till : Till) (host : Host) (call : Call) : Till :=
  match call.answer host till.store with
  | .error _ => till
  | .ok (answer, store) => {
      store
      relayed := till.relayed + answer.relayed
      prepaid := till.prepaid + call.prepaid host till.store
      registered := till.registered + call.isRegistration.toNat
      restored := till.restored + call.isRestoring.toNat
      awaited := call.opens?.elim till.awaited till.awaited.erase ++
        answer.accounts.map (ControlPort.ofAccount host.contract) }

theorem after_of_ok {till : Till} {host : Host} {call : Call} {answer : Answer} {store : Store}
    (done : call.answer host till.store = .ok (answer, store)) :
    till.after host call = ⟨store, till.relayed + answer.relayed,
      till.prepaid + call.prepaid host till.store, till.registered + call.isRegistration.toNat,
      till.restored + call.isRestoring.toNat,
      call.opens?.elim till.awaited till.awaited.erase ++
        answer.accounts.map (ControlPort.ofAccount host.contract)⟩ := by
  rw [after, done]

/-- The contract is set up and then called, in any order.  Accounts are reported to be open
that were asked for, each as often as it was asked for. -/
inductive Runs (hub : Address) : Till → Prop
  | setUp {host : Host} {sender : Address} {setup : Setup} {answer : Answer} {store : Store}
      (done : Contract.setUp host sender .empty setup = .ok (answer, store)) :
      Runs hub (.ofStore store)
  | call {till : Till} {host : Host} {call : Call} (runs : Runs hub till)
      (own : host.contract = hub) (typed : call.fits = true)
      (asked : ∀ port, call.opens? = some port → port ∈ till.awaited) :
      Runs hub (till.after host call)

/-! ## What a call changes -/

variable {hub : Address} {till : Till} {fresh : List ChainId}

/-- What was sent and may yet have to be sent is paid for.  The accounts that are awaited
count as if each started something, and of the two that a registration asks for the first
to open starts nothing. -/
structure Covered (hub : Address) (till : Till) (h : HubState) (fresh : List ChainId) : Prop where
  upTo : till.store.KeepsUp h
  covered : till.relayed + h.due + till.awaited.length ≤
    till.prepaid + till.registered + till.restored + fresh.length
  plain : h.books.Named fun id => '.' ∉ id.toList
  ports : ∀ port ∈ till.awaited, ∃ id account, '.' ∉ id.toList ∧
    port = ControlPort.portId hub id account
  distinct : fresh.Nodup
  unopened : ∀ id ∈ fresh, (h.books.chain? id).isSome = true ∧
    ControlPort.portId hub id .delegate ∈ till.awaited ∧
    ∀ account, h.books.address? id account = none

namespace Covered

theorem fresh_le (cov : till.Covered hub h fresh) : fresh.length ≤ till.awaited.length := by
  have ports : (fresh.map fun id => ControlPort.portId hub id .delegate).Nodup :=
    List.Pairwise.map _ (fun _ _ differ same => differ (ControlPort.portId_injective same).1)
      cov.distinct
  have listed : (fresh.map fun id => ControlPort.portId hub id .delegate) ⊆ till.awaited := by
    intro port member
    obtain ⟨id, unopened, rfl⟩ := List.mem_map.mp member
    exact (cov.unopened id unopened).2.1
  simpa using (List.subperm_of_subset ports listed).length_le

theorem relayed_le (cov : till.Covered hub h fresh) :
    till.relayed ≤ till.prepaid + till.registered + till.restored := by
  have few := cov.fresh_le
  have covered := cov.covered
  omega

end Covered

variable {host : Host} {call : Call} {answer : Answer} {store : Store}

/-- A call that reports no opening asks for accounts, and for those of new chains it pays
one transaction less than there are accounts. -/
theorem Covered.silent (cov : till.Covered hub h fresh) (own : host.contract = hub)
    (done : call.answer host till.store = .ok (answer, store)) {h' : HubState}
    (upTo : store.KeepsUp h') (silent : call.opens? = none) (new : List ChainId)
    (paid : answer.relayed + h'.due + answer.accounts.length ≤ h.due +
      call.prepaid host till.store + call.isRegistration.toNat + call.isRestoring.toNat +
      new.length)
    (plain : h'.books.Named fun id => '.' ∉ id.toList)
    (accounts : ∀ account ∈ answer.accounts, ∃ id role, '.' ∉ id.toList ∧
      account = ControlPort.accountId id role)
    (closed : h.books.KeepsClosed h'.books) (once : new.Nodup)
    (registered : ∀ id ∈ new, h.books.chain? id = none ∧ (h'.books.chain? id).isSome = true ∧
      ControlPort.accountId id .delegate ∈ answer.accounts) :
    (till.after host call).Covered hub h' (new ++ fresh) := by
  subst own
  rw [after_of_ok done]
  simp only [silent, Option.elim_none]
  refine ⟨upTo, ?covered, plain, ?ports, ?distinct, ?unopened⟩
  case covered =>
    have before := cov.covered
    simp only [List.length_append, List.length_map]
    omega
  case ports =>
    intro port member
    rcases List.mem_append.mp member with old | asked
    · exact cov.ports port old
    · obtain ⟨account, listed, rfl⟩ := List.mem_map.mp asked
      obtain ⟨id, role, plain, rfl⟩ := accounts account listed
      exact ⟨id, role, plain, rfl⟩
  case distinct =>
    refine List.nodup_append.mpr ⟨once, cov.distinct, ?_⟩
    rintro id isNew _ old rfl
    have unknown := (registered id isNew).1
    have known := (cov.unopened id old).1
    rw [unknown] at known
    cases known
  case unopened =>
    intro id member
    rcases List.mem_append.mp member with isNew | old
    · obtain ⟨unknown, known, asked⟩ := registered id isNew
      refine ⟨known, List.mem_append_right _ (List.mem_map_of_mem asked), fun account => ?_⟩
      exact closed.closed id account (by rw [Books.address?, unknown]; rfl)
    · obtain ⟨known, awaited, shut⟩ := cov.unopened id old
      exact ⟨closed.known id known, List.mem_append_left _ awaited, fun account =>
        closed.closed id account (shut account)⟩

/-- With an account that opens nothing is started while the other one is closed, and at
most one operation otherwise; word of that leads to nothing. -/
theorem opened_starts {id : ChainId} {account : ControlAccount} {address : Address}
    (kept : h.books.WellKept)
    (answered : (Request.accountOpened id account address).answer h.books.view s = .ok r) :
    (h.books.chain? id).isSome = true ∧ r.dispatched.length ≤ 1 ∧
      (h.commit r).due = h.due ∧
      ((∀ role, h.books.address? id role = none) → r.dispatched = []) := by
  have move : Move s h.books (.asked (.accountOpened id account address)) r := by
    cases Hub.answer_course kept answered with
    | single move => exact move
  obtain ⟨chain, known, started⟩ := move.opened_starts
  refine ⟨by rw [known]; rfl, ?one, ?due, ?alone⟩
  case one =>
    rw [started]
    split <;> simp
  case due =>
    rw [HubState.due, HubState.commit, RemoteOp.total_append, started]
    split <;> rfl
  case alone =>
    intro closed
    have shut : (chain.setAddress account (some address)).bothOpen = false := by
      have delegate := closed .delegate
      have unbond := closed .unbond
      rw [Books.address?_of_known known] at delegate unbond
      have delegate : chain.delegateAddress = none := delegate
      have unbond : chain.unbondAddress = none := unbond
      cases account <;> simp [Chain.setAddress, Chain.bothOpen, delegate, unbond]
    rw [started, shut]
    rfl

theorem Covered.opened (cov : till.Covered hub h fresh) {port version : String} {id : ChainId}
    {account : ControlAccount} {address : Address}
    (done : (Call.notify (.channelOpened port version)).answer host till.store =
      .ok (answer, store))
    (upTo : store.KeepsUp (h.commit r)) (awaited : port ∈ till.awaited)
    (parsed : ControlPort.parse? port = some (id, account))
    (answered : (Request.accountOpened id account address).answer h.books.view s = .ok r)
    (relayed : answer.relayed = r.dispatched.length) (none : answer.accounts = []) :
    (till.after host (.notify (.channelOpened port version))).Covered hub (h.commit r)
      (fresh.erase id) := by
  have kept := cov.upTo.reached.wellKept
  obtain ⟨known, one, due, alone⟩ := opened_starts kept answered
  obtain ⟨chain, role, plain, rfl⟩ := cov.ports port awaited
  obtain ⟨rfl, rfl⟩ := ControlPort.parse?_portId parsed plain (cov.plain id known)
  have apart {other : ChainId} (differ : other ≠ id) (role : ControlAccount) :
      (h.commit r).books.address? other role = h.books.address? other role := by
    refine (Request.answer_address? kept answered other role).trans ?_
    rw [Cause.reports?, if_neg fun same => differ same.1.symm, Option.getD_none]
  rw [after_of_ok done]
  simp only [Call.opens?, Option.elim_some, none, List.map_nil, List.append_nil]
  refine ⟨upTo, ?covered, ?plain, fun port member => cov.ports port (List.mem_of_mem_erase member),
    cov.distinct.erase id, ?unopened⟩
  case covered =>
    have before := cov.covered
    have waiting := List.length_erase_of_mem awaited
    have some := List.length_pos_of_mem awaited
    have new := List.length_erase (a := id) (l := fresh)
    by_cases isNew : id ∈ fresh
    · have starts := alone fun role => (cov.unopened id isNew).2.2 role
      have few := List.length_pos_of_mem isNew
      rw [if_pos isNew] at new
      rw [starts, List.length_nil] at relayed
      dsimp only
      omega
    · rw [if_neg isNew] at new
      dsimp only
      omega
  case plain =>
    exact (Hub.answer_course kept answered).names kept cov.plain
      fun registration asked => by cases asked
  case unopened =>
    intro other member
    obtain ⟨differ, old⟩ := cov.distinct.mem_erase_iff.mp member
    obtain ⟨known, asked, shut⟩ := cov.unopened other old
    refine ⟨Books.applyAll_known _ known _, ?_, fun role => (apart differ role).trans (shut role)⟩
    exact (List.mem_erase_of_ne fun same => differ (ControlPort.portId_injective same).1).mpr asked

theorem Covered.told (cov : till.Covered hub h fresh) (own : host.contract = hub)
    (done : call.answer host till.store = .ok (answer, store)) {op : RemoteOp} {outcome : Outcome}
    (upTo : store.KeepsUp (HubState.commit ⟨h.books, h.outstanding.erase op⟩ r))
    (silent : call.opens? = none) (waited : op ∈ h.outstanding)
    (answered : Hub.resolve h.books.view s op outcome = .ok r)
    (relayed : answer.relayed = r.dispatched.length) (none : answer.accounts = []) :
    (till.after host call).Covered hub
      (HubState.commit ⟨h.books, h.outstanding.erase op⟩ r) fresh := by
  have kept := cov.upTo.reached.wellKept
  have course := Hub.resolve_course kept answered
  refine cov.silent own done upTo silent [] ?paid ?plain (by rw [none]; nofun)
    (Hub.resolve_keepsClosed kept answered) List.nodup_nil nofun
  case paid =>
    have follows := course.followed
    have left := HubState.due_erase waited
    have committed := HubState.due_commit ⟨h.books, h.outstanding.erase op⟩ r
    have counted := op.following_succ
    rw [relayed, none, List.length_nil]
    omega
  case plain => exact course.names kept cov.plain fun registration heard => by cases heard

theorem Covered.asked (cov : till.Covered hub h fresh) (own : host.contract = hub)
    (done : call.answer host till.store = .ok (answer, store)) {request : Request}
    (upTo : store.KeepsUp (h.commit r)) (asks : call.Asks host till.store request)
    (awaited : ∀ port, call.opens? = some port → port ∈ till.awaited)
    (answered : request.answer h.books.view host.surroundings = .ok r)
    (relayed : answer.relayed = r.dispatched.length) (accounts : answer.accounts = call.registers) :
    ∃ fresh', (till.after host call).Covered hub (h.commit r) fresh' := by
  have kept := cov.upTo.reached.wellKept
  have course := Hub.answer_course kept answered
  have committed := h.due_commit r
  -- What a call that opens nothing and registers nothing starts, it pays for.
  have plain (silent : call.opens? = none) (none : call.registers = [])
      (unreported : ∀ id account, (Cause.asked request).reports? id account = Option.none)
      (unregistered : ∀ registration, request ≠ .register registration)
      (paid : r.transactions ≤ call.prepaid host till.store) :
      ∃ fresh', (till.after host call).Covered hub (h.commit r) fresh' := by
    refine ⟨fresh, cov.silent own done upTo silent [] ?_ ?_ (by rw [accounts, none]; nofun)
      (Request.answer_keepsClosed kept answered unreported) List.nodup_nil nofun⟩
    · rw [relayed, accounts, none, List.length_nil]
      omega
    · exact course.names kept cov.plain fun registration asked =>
        absurd (Cause.asked.inj asked) (unregistered registration)
  have idle (starts : request.startsNothing = true) : r.transactions = 0 := by
    refine Response.transactions_of_none ?_
    cases course with
    | single move => exact move.starts_nothing starts
    | passing passage => cases starts
  have viewed : request.answer till.store.view host.surroundings = .ok r :=
    cov.upTo.mirrors.holds.view ▸ answered
  cases asks with
  | @administered caller request =>
      refine plain rfl rfl ?_ ?_ ?_
      · intro id account
        cases request <;> rfl
      · cases request <;> nofun
      · simp [Call.prepaid, Call.paysFor?, viewed]
  | epochStarted named =>
      refine plain rfl rfl (fun _ _ => rfl) nofun ?_
      simp [Call.prepaid, Call.paysFor?, named, viewed]
  | deposited | redeemed | claimed =>
      exact plain rfl rfl (fun _ _ => rfl) nofun (by rw [idle rfl]; exact Nat.zero_le _)
  | opened parsed =>
      exact ⟨_, cov.opened done upTo (awaited _ rfl) parsed answered relayed accounts⟩
  | @registered caller request plainName =>
      have move : Move host.surroundings h.books
          (.asked (.register (Contract.registration host request))) r := by
        cases course with
        | single move => exact move
      obtain ⟨unknown, known⟩ := move.registers
      refine ⟨_, cov.silent own done upTo rfl [request.chain] ?_ ?_ ?_
        (Request.answer_keepsClosed kept answered fun _ _ => rfl)
        (List.nodup_cons.mpr ⟨nofun, List.nodup_nil⟩) ?_⟩
      · have nothing := idle rfl
        rw [relayed, accounts]
        simp only [Call.registers, ControlAccount.all, List.map_cons, List.map_nil,
          List.length_cons, List.length_nil, Call.isRegistration, Bool.toNat_true]
        omega
      · refine course.names kept cov.plain fun registration asked => ?_
        cases asked
        exact plainName
      · rw [accounts]
        intro account member
        obtain ⟨role, -, rfl⟩ := List.mem_map.mp member
        exact ⟨request.chain, role, plainName, rfl⟩
      · intro id member
        obtain rfl := List.mem_singleton.mp member
        exact ⟨unknown, known, accounts ▸ List.mem_cons_self⟩

theorem Covered.called (cov : till.Covered hub h fresh) (own : host.contract = hub)
    (typed : call.fits = true) (awaited : ∀ port, call.opens? = some port → port ∈ till.awaited) :
    ∃ h' fresh', (till.after host call).Covered hub h' fresh' := by
  cases done : call.answer host till.store with
  | error stop =>
      rw [after, done]
      exact ⟨h, fresh, cov⟩
  | ok ended =>
      obtain ⟨answer, store⟩ := ended
      obtain ⟨h', does, upTo⟩ := Call.does cov.upTo typed done
      refine ⟨h', ?_⟩
      cases does with
      | nothing silent calm none =>
          refine ⟨fresh, cov.silent own done upTo silent [] ?_ cov.plain (by rw [none]; nofun)
            (.refl _) List.nodup_nil nofun⟩
          rw [calm, none, List.length_nil]
          omega
      | @restores caller id name account _ known calm one =>
          refine ⟨fresh, cov.silent own done upTo rfl [] ?_ cov.plain ?_ (.refl _) List.nodup_nil
            nofun⟩
          · rw [calm, one]
            simp only [List.length_singleton, Call.isRestoring, Bool.toNat_true]
            omega
          · rw [one, List.forall_mem_singleton]
            exact ⟨id, account, cov.plain id known, rfl⟩
      | asks asks answered relayed accounts =>
          exact cov.asked own done upTo asks awaited answered relayed accounts
      | tells silent waited answered relayed none =>
          exact ⟨fresh, cov.told own done upTo silent waited answered relayed none⟩

/-! ## Whole runs -/

theorem Runs.covered (runs : till.Runs hub) : ∃ h fresh, till.Covered hub h fresh := by
  induction runs with
  | @setUp host sender setup answer store done =>
      have same : Store.empty.SameRecords store := Contract.setUp_same done
      exact ⟨.initial, [], ⟨⟨Store.Mirrors.empty.of_same same, .initial⟩, Nat.le_refl 0, nofun,
        nofun, List.nodup_nil, nofun⟩⟩
  | call runs own typed asked ih =>
      obtain ⟨h, fresh, cov⟩ := ih
      exact cov.called own typed asked

/-- Whatever is asked of the contract, replied or reported to it, the messages it has sent
that relayers carry are at most as many as the transactions paid for by those who asked it
to start something, and one for every chain registered and one for every account
restored. -/
theorem relayed_prepaid (hub : Address) (till : Till) (runs : till.Runs hub) :
    till.relayed ≤ till.prepaid + till.registered + till.restored := by
  obtain ⟨h, fresh, cov⟩ := runs.covered
  exact cov.relayed_le

/-! ## A run in which an account is restored -/

structure Stage (hub : Address) (host : Host) (admin : Address) (till : Till) (h : HubState)
    (next relayed registered restored : Nat) (awaited : List String) : Prop where
  runs : till.Runs hub
  upTo : till.store.KeepsUp h
  able : till.store.Able host admin next
  figures : till = ⟨till.store, relayed, 0, registered, restored, awaited⟩

theorem Stage.succeeds {admin : Address} {next next' relayed more registered restored : Nat}
    {awaited accounts : List String} {h' : HubState}
    (stage : Stage hub host admin till h next relayed registered restored awaited)
    (own : host.contract = hub) (typed : call.fits = true)
    (asked : ∀ port, call.opens? = some port → port ∈ awaited)
    (free : call.paysFor? till.store = none)
    (succeeds : call.Succeeds host till.store more accounts h' admin next') :
    Stage hub host admin (till.after host call) h' next' (relayed + more)
      (registered + call.isRegistration.toNat) (restored + call.isRestoring.toNat)
      (call.opens?.elim awaited awaited.erase ++ accounts.map (ControlPort.ofAccount hub)) := by
  subst own
  obtain ⟨runs, -, -, figures⟩ := stage
  obtain ⟨answer, store', done, rfl, rfl, upTo, able⟩ := succeeds
  obtain ⟨store, _, _, _, _, _⟩ := till
  cases figures
  have counted : call.prepaid host store = 0 := by rw [Call.prepaid, free]
  refine ⟨runs.call rfl typed asked, ?_, ?_, ?_⟩ <;> rw [after_of_ok done]
  · exact upTo
  · exact able
  · rw [counted]

/-- Relayers are paid 2000 for each transaction, and an account costs 100000. -/
def sampleHost : Host :=
  { HubState.sampleHost with
    minFee := some ⟨[], [⟨"untrn", 1000⟩], [⟨"untrn", 1000⟩]⟩
    registerFee := some [⟨"untrn", 100000⟩] }

def sampleSetup : Setup where
  delegationEpoch := "day"
  undelegationEpoch := "week"
  keeper := none
  accountTimeout := none
  transferTimeout := none

def sampleRequest : ChainRequest where
  chain := "cosmoshub"
  connection := "connection-0"
  transferChannel := "channel-0"
  remoteTransferChannel := "channel-1"
  nativeDenom := "uatom"
  subdenom := "statom"
  validators := [("alice", 1)]
  unbondingPeriod := 1814400

def sampleVersion (address : Address) : String :=
  "\x7b\"version\":\"\",\"controller_connection_id\":\"\",\"host_connection_id\":\"\"," ++
    "\"address\":\"" ++ address ++ "\",\"encoding\":\"\",\"tx_type\":\"\"\x7d"

def samplePort (account : ControlAccount) : String := ControlPort.portId "hub" "cosmoshub" account

def sampleReply : Option String := some "\x7b\"sequence_id\":1,\"channel\":\"channel-7\"\x7d"

/-- A chain is registered and both accounts open, so its withdraw address is to be set.
That times out, which closes the account it was for; the account is restored and opens. -/
def sampleCalls : List Call :=
  [.execute ⟨"creator", [⟨"untrn", 202000⟩]⟩ (.registerChain sampleRequest),
    .notify (.channelOpened (samplePort .delegate) (sampleVersion "delegator")),
    .notify (.channelOpened (samplePort .unbond) (sampleVersion "unbonder")),
    .replyIssued 1 sampleReply,
    .notify (.timedOut ⟨some 1, some (samplePort .delegate), some "channel-7"⟩),
    .execute ⟨"creator", [⟨"untrn", 100000⟩]⟩ (.restoreAccount "cosmoshub" "delegate"),
    .notify (.channelOpened (samplePort .delegate) (sampleVersion "delegator"))]

def sampleSteps : List Step :=
  [.perform sampleHost.surroundings (.register (Contract.registration sampleHost sampleRequest)),
    .perform sampleHost.surroundings (.accountOpened "cosmoshub" .delegate "delegator"),
    .perform sampleHost.surroundings (.accountOpened "cosmoshub" .unbond "unbonder"),
    .acknowledge sampleHost.surroundings 0 .timeout,
    .perform sampleHost.surroundings (.accountOpened "cosmoshub" .delegate "delegator")]

theorem sample_delegate_opens : openedAddress? (sampleVersion "delegator") = some "delegator" := by
  decide +kernel

theorem sample_setUp : ∃ answer store,
    Contract.setUp sampleHost "creator" .empty sampleSetup = .ok (answer, store) ∧
      store.Able sampleHost "creator" 1 := by
  have told : (Contract.setUp sampleHost "creator" .empty sampleSetup).toOption.map (fun ended =>
      (ended.2.currentAdmin?, ended.2.accountTimeout?, ended.2.transferTimeout?,
        ended.2.number? Key.nextReplyId.render)) =
      some (some "creator", some 1800, some 60, some none) := by decide +kernel
  cases done : Contract.setUp sampleHost "creator" .empty sampleSetup with
  | error stop =>
      rw [done] at told
      cases told
  | ok ended =>
      rw [done] at told
      simp only [Except.toOption, Option.map_some, Option.some.injEq, Prod.mk.injEq] at told
      obtain ⟨admin, account, transfer, number⟩ := told
      exact ⟨ended.1, ended.2, rfl, admin, ⟨1800, 60, account, transfer, by decide +kernel⟩,
        none, number, rfl⟩

def sampleTill (store : Store) (count : Nat) : Till :=
  (sampleCalls.take count).foldl (fun till call => till.after sampleHost call) (.ofStore store)

theorem sampleTill_succ (store : Store) (count : Nat) {call : Call}
    (made : sampleCalls[count]? = some call) :
    sampleTill store (count + 1) = (sampleTill store count).after sampleHost call := by
  simp [sampleTill, List.take_add_one, made]

theorem granted_of_dispatched {answer : Attempt HubError Response} {ops : List RemoteOp}
    (told : answer.toOption.map Response.dispatched = some ops) :
    ∃ r, answer = .ok r ∧ r.dispatched = ops := by
  cases answer with
  | ok r => exact ⟨r, rfl, Option.some.inj told⟩
  | error stop => cases told

theorem sample_prices : Contract.Prices sampleHost 0 ∧ Contract.Prices sampleHost 1 :=
  ⟨⟨_, 0, rfl, by decide +kernel⟩, ⟨_, 2000, rfl, by decide +kernel⟩⟩

section Sample

variable {next relayed registered restored : Nat} {awaited : List String}

theorem sample_opens
    (stage : Stage "hub" sampleHost "creator" till h next relayed registered restored awaited)
    {account : ControlAccount} {version : String} {address : Address} {ops : List RemoteOp}
    (awaits : samplePort account ∈ awaited) (read : openedAddress? version = some address)
    (grants : ((Request.accountOpened "cosmoshub" account address).answer h.books.view
      sampleHost.surroundings).toOption.map Response.dispatched = some ops)
    (room : next + ops.length < Width.limit 64) (prices : Contract.Prices sampleHost ops.length) :
    let opened := till.after sampleHost (.notify (.channelOpened (samplePort account) version))
    let h' := h.step (.perform sampleHost.surroundings (.accountOpened "cosmoshub" account address))
    Stage "hub" sampleHost "creator" opened h' (next + ops.length) (relayed + ops.length) registered
        restored (awaited.erase (samplePort account)) ∧
      ∀ op, ops = [op] → ∃ chain message port, h'.books.chain? op.chain = some chain ∧
        chain.Issues "hub" op message port ∧
        opened.store.document? (Key.stashed next).render = some (some (Stashed.mk port op)) := by
  intro opened h'
  obtain ⟨r, granted, rfl⟩ := granted_of_dispatched grants
  have parsed : ControlPort.parse? (samplePort account) = some ("cosmoshub", account) := by
    cases account <;> decide +kernel
  obtain ⟨answer, store', done, succeeds⟩ :=
    Contract.channelOpened_succeeds stage.upTo stage.able parsed read granted room prices
  rw [HubState.commit_asked granted] at succeeds
  have asked : ∀ port, Call.opens? (.notify (.channelOpened (samplePort account) version)) =
      some port → port ∈ awaited := by
    rintro _ ⟨⟩
    exact awaits
  refine ⟨?_, fun op one => ?_⟩
  · simpa [Call.opens?, Call.isRegistration, Call.isRestoring] using
      stage.succeeds rfl rfl asked rfl ⟨answer, store', done, succeeds⟩
  · rw [one] at room
    have stashes :=
      Contract.channelOpened_stashes stage.upTo stage.able parsed read granted one room done
    rw [HubState.commit_asked granted] at stashes
    have stored : opened.store = store' := congrArg Till.store (after_of_ok done)
    rwa [stored]

theorem sample_closes
    (stage : Stage "hub" sampleHost "creator" till (HubState.after (sampleSteps.take 3)) 2 relayed
      registered restored awaited)
    (found : till.store.document? (Key.stashed 1).render =
      some (some (Stashed.mk (samplePort .delegate) (.setWithdrawAddress "cosmoshub")))) :
    Stage "hub" sampleHost "creator"
      ((till.after sampleHost (.replyIssued 1 sampleReply)).after sampleHost
        (.notify (.timedOut ⟨some 1, some (samplePort .delegate), some "channel-7"⟩)))
      (HubState.after (sampleSteps.take 4)) 2 relayed registered restored awaited := by
  have outstanding : (HubState.after (sampleSteps.take 3)).outstanding =
      [.setWithdrawAddress "cosmoshub"] := by decide +kernel
  have told : sampleReply.bind issued? = some (1, "channel-7") := by decide +kernel
  have silent : ∀ port, Call.opens? (.replyIssued 1 sampleReply) = some port → port ∈ awaited :=
    fun _ opens => by cases opens
  obtain ⟨answer, store', replied, calm, none, upTo, able, stored⟩ :=
    Contract.replyIssued_succeeds stage.upTo stage.able found told
  have replies :=
    stage.succeeds rfl rfl silent rfl ⟨answer, store', replied, calm, none, upTo, able⟩
  have same : (till.after sampleHost (.replyIssued 1 sampleReply)).store = store' :=
    congrArg Till.store (after_of_ok replied)
  rw [← same] at stored
  have grants : (Hub.resolve (HubState.after (sampleSteps.take 3)).books.view
      sampleHost.surroundings (.setWithdrawAddress "cosmoshub") .timeout).toOption.map
        Response.dispatched = some [] := by decide +kernel
  obtain ⟨r, granted, nothing⟩ := granted_of_dispatched grants
  have none : r.dispatched.length = 0 := by rw [nothing, List.length_nil]
  have closes := Contract.timedOut_succeeds replies.upTo replies.able stored granted
    (by rw [none]; decide) (by rw [none]; exact sample_prices.1)
  have step : (HubState.after (sampleSteps.take 3)).step
      (.acknowledge sampleHost.surroundings 0 .timeout) = HubState.after (sampleSteps.take 4) := rfl
  rw [none, HubState.commit_heard (by rw [outstanding]; exact List.mem_cons_self) granted,
    outstanding, List.idxOf_cons_self, step] at closes
  have stage' := replies.succeeds rfl rfl (fun _ opens => by cases opens) rfl closes
  simpa [Call.opens?, Call.isRegistration, Call.isRestoring] using stage'

theorem sample_run : ∃ answer store,
    Contract.setUp sampleHost "creator" .empty sampleSetup = .ok (answer, store) ∧
      Stage "hub" sampleHost "creator" (sampleTill store 7) (HubState.after sampleSteps) 3 2 1 1
        [] := by
  obtain ⟨answer, store, done, able⟩ := sample_setUp
  refine ⟨answer, store, done, ?_⟩
  have upTo : store.KeepsUp .initial :=
    ⟨Store.Mirrors.empty.of_same (Contract.setUp_same done), .initial⟩
  have begun : Stage "hub" sampleHost "creator" (sampleTill store 0) .initial 1 0 0 0 [] :=
    ⟨.setUp done, upTo, able, rfl⟩
  have asked : Contract.accountFee sampleHost = .ok ⟨"untrn", 100000⟩ := by decide +kernel
  have registered : Stage "hub" sampleHost "creator" (sampleTill store 1)
      (HubState.after (sampleSteps.take 1)) 1 0 1 0 [samplePort .delegate, samplePort .unbond] := by
    have grants : ((Request.register (Contract.registration sampleHost sampleRequest)).answer
        HubState.initial.books.view sampleHost.surroundings).toOption.map Response.dispatched =
        some [] := by decide +kernel
    have deposit : Contract.registrationDeposit sampleHost ⟨"untrn", 100000⟩ = .ok 202000 := by
      decide +kernel
    obtain ⟨r, granted, -⟩ := granted_of_dispatched grants
    have registers := Contract.registerChain_succeeds upTo able asked sampleRequest
      (by decide +kernel) (by decide) deposit (by decide) granted (by decide +kernel) (by decide)
      sample_prices.1
    rw [HubState.commit_asked granted] at registers
    exact begun.succeeds rfl (by decide +kernel) (fun _ opens => by cases opens) rfl registers
  have delegated : Stage "hub" sampleHost "creator" (sampleTill store 2)
      (HubState.after (sampleSteps.take 2)) 1 0 1 0 [samplePort .unbond] := by
    have opens := (sample_opens registered List.mem_cons_self sample_delegate_opens
      (by decide +kernel : _ = some []) (by decide) sample_prices.1).1
    rw [List.erase_cons_head] at opens
    rw [sampleTill_succ store 1 rfl]
    exact opens
  have unbonds : openedAddress? (sampleVersion "unbonder") = some "unbonder" := by decide +kernel
  obtain ⟨unbonded, stashes⟩ := sample_opens delegated List.mem_cons_self unbonds
    (by decide +kernel : _ = some [RemoteOp.setWithdrawAddress "cosmoshub"]) (by decide)
    sample_prices.2
  rw [← sampleTill_succ store 2 rfl] at unbonded stashes
  rw [List.erase_cons_head] at unbonded
  obtain ⟨chain, message, port, known, issues, stashed⟩ := stashes _ rfl
  have key : chain.id = "cosmoshub" := unbonded.upTo.reached.wellKept.chainKey known
  have port : port = samplePort .delegate := by
    cases issues with
    | transfer own => cases own
    | submit carried =>
        cases carried
        rw [key]
        rfl
  have closed : Stage "hub" sampleHost "creator" (sampleTill store 5)
      (HubState.after (sampleSteps.take 4)) 2 1 1 0 [] := by
    have closes := sample_closes unbonded (port ▸ stashed)
    rw [← sampleTill_succ store 3 rfl, ← sampleTill_succ store 4 rfl] at closes
    exact closes
  have restored : Stage "hub" sampleHost "creator" (sampleTill store 6)
      (HubState.after (sampleSteps.take 4)) 2 1 1 1 [samplePort .delegate] := by
    have known :
        ((HubState.after (sampleSteps.take 4)).books.chain? "cosmoshub").isSome = true := by
      decide +kernel
    obtain ⟨chain, known⟩ := Option.isSome_iff_exists.mp known
    have restores := Contract.restoreAccount_succeeds closed.upTo closed.able asked
      (by decide : ControlAccount.ofName? "delegate" = some .delegate) known (by decide)
    rw [sampleTill_succ store 5 rfl]
    exact closed.succeeds rfl (by decide +kernel) (fun _ opens => by cases opens) rfl restores
  have opens := (sample_opens restored List.mem_cons_self sample_delegate_opens
    (by decide +kernel : _ = some [RemoteOp.setWithdrawAddress "cosmoshub"]) (by decide)
    sample_prices.2).1
  rw [List.erase_cons_head] at opens
  rw [sampleTill_succ store 6 rfl]
  exact opens

end Sample

theorem relayed_prepaid_sample : ∃ answer store,
    Contract.setUp sampleHost "creator" .empty sampleSetup = .ok (answer, store) ∧
      (sampleTill store 7).Runs "hub" ∧ (sampleTill store 7).relayed = 2 ∧
      (sampleTill store 7).relayed ≤ (sampleTill store 7).prepaid +
        (sampleTill store 7).registered + (sampleTill store 7).restored := by
  obtain ⟨answer, store, done, stage⟩ := sample_run
  exact ⟨answer, store, done, stage.runs, congrArg Till.relayed stage.figures,
    relayed_prepaid "hub" (sampleTill store 7) stage.runs⟩

/-- What sets the withdraw address was paid for once, by the registration, and is sent twice:
again as the account that was restored opens. -/
theorem reopening_unpaid : ∃ answer store,
    Contract.setUp sampleHost "creator" .empty sampleSetup = .ok (answer, store) ∧
      (sampleTill store 7).Runs "hub" ∧
      (sampleTill store 7).prepaid + (sampleTill store 7).registered <
        (sampleTill store 7).relayed := by
  obtain ⟨answer, store, done, stage⟩ := sample_run
  refine ⟨answer, store, done, stage.runs, ?_⟩
  rw [stage.figures]
  exact Nat.lt_succ_self 1

end Till

end LiquidStaking
