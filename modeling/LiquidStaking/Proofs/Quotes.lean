import LiquidStaking.Contract.Queries
import LiquidStaking.Proofs.Dilution
import LiquidStaking.Proofs.Transactions

/-!
# Quoted costs

What the start of an epoch costs can be asked for beforehand.  Whoever may start it and
brings that much is served, is charged what was quoted, and gets back all the rest: so much
for every operation that the epoch starts, and for every one that follows from these.
-/

namespace LiquidStaking

variable {host : Host} {store store' : Store} {caller : Contract.Caller} {ended : Answer × Store}
  {r : Response} {kind : EpochKind} {epoch : Epoch}

/-! ## Contracts in service -/

namespace Contract

namespace Instantiated

variable {calls : List Call} (instantiated : Instantiated calls store)

include instantiated

theorem counts : store.Counts := by
  induction instantiated with
  | setUp done => exact (SameRecords.only (setUp_same done)).counts ⟨none, rfl⟩
  | call earlier typed done ih =>
      obtain ⟨h, upTo, -⟩ := earlier.keepsUp
      obtain ⟨ops, -, delivers⟩ := Call.delivers upTo typed done
      exact delivers.counts ih

theorem able (timely : ∀ execution transfer, store.accountTimeout? = some execution →
      store.transferTimeout? = some transfer →
      (host.later? (execution + transfer)).isSome = true) :
    ∃ admin next, store.Able host admin next := by
  obtain ⟨seats, seated⟩ := instantiated.settled.seats
  obtain ⟨execution, transfer, first, second⟩ := instantiated.timed
  obtain ⟨found, read⟩ := instantiated.counts
  exact ⟨seats.admin, found.getD 1, (Store.seats?_eq_some.mp seated).1,
    ⟨execution, transfer, first, second, timely execution transfer first second⟩,
    found, read, rfl⟩

end Instantiated

end Contract

/-! ## Prices -/

def RemoteOp.leadsOn : RemoteOp → Bool
  | .transferDeposit .. => true
  | .withdrawRewards .. => true
  | _ => false

theorem Response.transactions_counted (r : Response) :
    r.transactions = r.dispatched.length + r.dispatched.countP RemoteOp.leadsOn := by
  have indicator (op : RemoteOp) : op.following = op.leadsOn.toNat := by cases op <;> rfl
  rw [r.transactions_eq, RemoteOp.total_eq_countP _ indicator]

/-- What so many transactions cost: as much for each, and nothing if there are none. -/
def Host.Charges (host : Host) (transactions : Nat) (cost : Amount) : Prop :=
  transactions = 0 ∧ cost = 0 ∨
    ∃ fee each, host.minFee = some fee ∧ fee.perTransaction? = some each ∧
      cost = each * transactions

namespace Contract

variable {cost : Amount} {transactions : Nat}

theorem relayerCost_iff : relayerCost host transactions = .ok cost ↔
    transactions = 0 ∧ cost = 0 ∨ transactions ≠ 0 ∧ ∃ fee each, host.minFee = some fee ∧
      fee.perTransaction? = some each ∧ cost = each * transactions ∧
      each * transactions < Width.limit 128 := by
  unfold relayerCost
  split
  case isTrue none =>
    rw [Attempt.pure_eq_ok]
    constructor
    · rintro rfl
      exact .inl ⟨none, rfl⟩
    · rintro (⟨-, rfl⟩ | ⟨some, -⟩)
      · rfl
      · exact absurd none some
  case isFalse some =>
    simp only [relayerFee, Attempt.bind_eq_ok, Attempt.orRefuse_eq_ok, Attempt.promised_eq_ok,
      Width.mul?, Width.narrow?_eq_some]
    constructor
    · rintro ⟨fee, asked, each, same, rfl, small⟩
      exact .inr ⟨some, fee, each, asked, same, rfl, small⟩
    · rintro (⟨none, -⟩ | ⟨-, fee, each, asked, same, rfl, small⟩)
      · exact absurd none some
      · exact ⟨fee, asked, each, same, rfl, small⟩

theorem relayerCost_charges (priced : relayerCost host transactions = .ok cost) :
    host.Charges transactions cost := by
  refine (relayerCost_iff.mp priced).imp_right ?_
  rintro ⟨-, fee, each, asked, same, whole, -⟩
  exact ⟨fee, each, asked, same, whole⟩

theorem prices_of_cost (priced : relayerCost host transactions = .ok cost) {fewer : Nat}
    (some : fewer ≠ 0) (within : fewer ≤ transactions) : Prices host fewer := by
  rcases relayerCost_iff.mp priced with ⟨rfl, -⟩ | ⟨-, fee, each, asked, same, -, small⟩
  · exact absurd (Nat.le_zero.mp within) some
  · have small : each * fewer < Width.limit 128 :=
      Nat.lt_of_le_of_lt (Nat.mul_le_mul_left each within) small
    exact ⟨fee, each * fewer, asked,
      relayerCost_iff.mpr (.inr ⟨some, fee, each, asked, same, rfl, small⟩)⟩

end Contract

/-! ## What stays -/

def Answer.staying (answer : Answer) : List Message :=
  (answer.submissions.map Submission.message).filter fun message => !message.isRelayed

namespace Answer

variable {answer : Answer}

theorem staying_addMessages {messages : List Message}
    (stay : ∀ message ∈ messages, message.isRelayed = false) :
    (answer.addMessages messages).staying = answer.staying ++ messages := by
  have kept : messages.filter (fun message => !message.isRelayed) = messages :=
    List.filter_eq_self.mpr fun message listed => by rw [stay message listed]; rfl
  simp [staying, addMessages, Function.comp_def, kept]

theorem staying_addSubmissions {submissions : List Submission}
    (leave : ∀ submission ∈ submissions, submission.message.isRelayed = true) :
    (answer.addSubmissions submissions).staying = answer.staying := by
  have none : (submissions.map Submission.message).filter (fun message => !message.isRelayed) =
      [] := by
    rw [List.filter_eq_nil_iff, List.forall_mem_map]
    intro submission listed
    simp [leave submission listed]
  simp [staying, addSubmissions, none]

theorem staying_refund (caller : Contract.Caller) (cost paid : Amount) :
    (answer.refund caller cost paid).staying = answer.staying ++
      if cost < paid then [.send caller.sender [⟨feeDenom, paid - cost⟩]] else [] := by
  unfold refund
  split
  · exact staying_addMessages (List.forall_mem_singleton.mpr rfl)
  · exact (List.append_nil _).symm

end Answer

theorem Passage.tokenless {b : Books} {s : Surroundings}
    (passage : Passage s (.asked (.startEpoch kind epoch)) b r) : r.Tokenless := by
  induction passage with
  | done => exact .of_all rfl
  | next move later ih =>
      rw [Response.Tokenless, Response.commands_append]
      exact List.forall_mem_append.mpr ⟨move.tokenless_startEpoch, ih⟩

namespace Contract

variable {fee : RelayerFee} {begun answer : Answer}

theorem orders_of_tokenless (tokenless : r.Tokenless) :
    orders (r.commands.filterMap Command.effect?) = [] := by
  rw [orders, List.filterMap_filterMap, List.filterMap_eq_nil_iff]
  intro command listed
  have plain := tokenless command listed
  cases command with
  | token order => cases plain
  | _ => rfl

theorem issueAll?_leave {ops : List RemoteOp} {submissions : List Submission}
    (issued : issueAll? host fee store ops = some (submissions, store')) :
    ∀ submission ∈ submissions, submission.message.isRelayed = true := by
  induction ops generalizing store submissions with
  | nil =>
      cases issued
      exact List.forall_mem_nil _
  | cons op ops ih =>
      simp only [issueAll?, Option.bind_eq_bind, Option.bind_eq_some_iff, Option.pure_def,
        Option.some.injEq, Prod.mk.injEq] at issued
      obtain ⟨⟨submission, next⟩, first, ⟨others, last⟩, rest, rfl, rfl⟩ := issued
      obtain ⟨chain, port, id, -, issues, -, -⟩ := issue?_stashes first
      exact List.forall_mem_cons.mpr ⟨issues.leaves.1, ih rest⟩

theorem carryOut_staying {h : HubState} (mirrors : store.Mirrors h)
    (written : ∀ command ∈ r.commands, command.Fits) (tokenless : r.Tokenless)
    (carried : carryOut host store r.commands begun = .ok (answer, store')) :
    answer.staying = begun.staying := by
  obtain ⟨recorded, fee, submissions, -, -, issued, submitted⟩ :=
    carryOut_recorded mirrors.holds written carried
  rw [orders_of_tokenless tokenless, List.map_nil] at submitted
  have same : answer.staying = ((begun.addMessages []).addSubmissions submissions).staying := by
    rw [Answer.staying, submitted]
    rfl
  rw [same, Answer.staying_addSubmissions (issueAll?_leave issued),
    Answer.staying_addMessages (List.forall_mem_nil _), List.append_nil]

end Contract

/-! ## The start of an epoch -/

namespace Contract

variable {identifier : String} {paid : Amount}

def quotation (cost : Amount) (transactions : Nat) : Json :=
  .object [("cost", .amount cost), ("tx_count", .nat transactions)]

theorem quotation_cost {cost cost' : Amount} {transactions transactions' : Nat}
    (same : quotation cost transactions = quotation cost' transactions') : cost = cost' := by
  simp only [quotation, Json.amount, Json.object.injEq, List.cons.injEq, Prod.mk.injEq,
    Json.string.injEq] at same
  exact Digits.ofNat_injective same.1.2

variable (named : store.epochKind? identifier = some (some kind))

include named

theorem epochCost_iff {document : Json} :
    query host store (.epochCost identifier epoch) = .ok document ↔
      ∃ r cost, Hub.startEpoch store.view host.surroundings kind epoch = .ok r ∧
        relayerCost host r.transactions = .ok cost ∧
        quotation cost r.transactions = document := by
  simp only [query, epochCost, requireEpochKind, named, Attempt.promised, Attempt.orRefuse,
    Attempt.ok_bind, ofHub, Attempt.bind_eq_ok, Attempt.mapCause_eq_ok, Attempt.pure_eq_ok]
  constructor
  · rintro ⟨_, ⟨r, granted, cost, priced, rfl⟩, rfl⟩
    exact ⟨r, cost, granted, priced, rfl⟩
  · rintro ⟨r, cost, granted, priced, rfl⟩
    exact ⟨_, ⟨r, granted, cost, priced, rfl⟩, rfl⟩

theorem startEpoch_iff (caller : Caller)
    (authorized : Roles.authorizeKeeper store caller.sender = .ok ())
    (attached : allowedPayment caller.funds feeDenom = .ok paid) :
    ∃ attributes, ∀ ended, execute host caller store (.startEpoch identifier epoch) = .ok ended ↔
      ∃ r cost answer store', Hub.startEpoch store.view host.surroundings kind epoch = .ok r ∧
        relayerCost host r.transactions = .ok cost ∧ cost ≤ paid ∧
        carryOut host store r.commands (Answer.report attributes r.notices) =
          .ok (answer, store') ∧
        (answer.refund caller cost paid, store') = ended := by
  refine ⟨[("kind", "before_epoch_start"), ("epoch_kind", kind.name),
    ("epoch", Digits.ofNat epoch)], fun ended => ?_⟩
  have entitled : ofRoles (Roles.authorizeKeeper store caller.sender) = .ok () := by
    rw [authorized]
    rfl
  simp only [execute, startEpoch, requireEpochKind, named, entitled, Attempt.promised,
    Attempt.orRefuse, Attempt.ok_bind, ofHub, Attempt.bind_eq_ok, Attempt.mapCause_eq_ok,
    carryOutPaid_iff, attached, Except.ok.injEq]
  constructor
  · rintro ⟨r, granted, cost, _, answer, store', priced, rfl, within, carried, given⟩
    exact ⟨r, cost, answer, store', granted, priced, within, carried, given⟩
  · rintro ⟨r, cost, answer, store', granted, priced, within, carried, given⟩
    exact ⟨r, granted, cost, _, answer, store', priced, rfl, within, carried, given⟩

omit named

/-- The times of the operations that the start of the epoch issues, and their reply ids, stay
within 64 bits. -/
structure InRange (host : Host) (store : Store) (kind : EpochKind) (epoch : Epoch) : Prop where
  times : ∀ execution transfer, store.accountTimeout? = some execution →
    store.transferTimeout? = some transfer → (host.later? (execution + transfer)).isSome = true
  replyIds : ∀ found r, store.number? Key.nextReplyId.render = some found →
    Hub.startEpoch store.view host.surroundings kind epoch = .ok r →
      found.getD 1 + r.dispatched.length < Width.limit 64

theorem InRange.of_able {admin : Address} {next : Nat} (able : store.Able host admin next)
    (room : ∀ r, Hub.startEpoch store.view host.surroundings kind epoch = .ok r →
      next + r.dispatched.length < Width.limit 64) : InRange host store kind epoch where
  times := by
    obtain ⟨_, _, first, second, told⟩ := able.timeouts
    intro execution transfer account transfers
    cases first.symm.trans account
    cases second.symm.trans transfers
    exact told
  replyIds := by
    obtain ⟨_, read, rfl⟩ := able.replyId
    intro found r is granted
    cases read.symm.trans is
    exact room r granted

section Charging

variable {calls : List Call} {cost : Amount} {begun answer : Answer}
  (instantiated : Instantiated calls store) (small : epoch < Width.limit 64)
  (granted : Hub.startEpoch store.view host.surroundings kind epoch = .ok r)

include instantiated small granted

theorem granted_within : ∃ h, store.KeepsUp h ∧
    (Request.startEpoch kind epoch).answer h.books.view host.surroundings = .ok r ∧
    (∀ command ∈ r.commands, command.Fits) ∧ ∀ op ∈ r.dispatched, op.Fits := by
  obtain ⟨h, upTo, -⟩ := instantiated.keepsUp
  have typed : (Request.startEpoch kind epoch).fits = true := decide_eq_true small
  have answered : (Request.startEpoch kind epoch).answer h.books.view host.surroundings = .ok r :=
    requested_view upTo granted
  obtain ⟨written, started, -⟩ := upTo.reached.asked typed answered
  exact ⟨h, upTo, answered, written, started⟩

theorem carryOut_started (inRange : InRange host store kind epoch)
    (priced : relayerCost host r.transactions = .ok cost) (begun : Answer) :
    ∃ ended, carryOut host store r.commands begun = .ok ended := by
  obtain ⟨h, upTo, answered, written, -⟩ := granted_within instantiated small granted
  obtain ⟨admin, next, able⟩ := instantiated.able inRange.times
  obtain ⟨found, read, rfl⟩ := able.replyId
  have fewer : r.dispatched.length ≤ r.transactions :=
    r.transactions_counted ▸ Nat.le_add_right _ _
  obtain ⟨ended, carried, -⟩ := carryOut_priced upTo.mirrors able written
    (inRange.replyIds found r read granted)
    (fun op => Hub.answer_equipped upTo.reached.wellKept answered)
    (fun some => prices_of_cost priced (mt List.length_eq_zero_iff.mp some) fewer) begun
  exact ⟨ended, carried⟩

theorem carryOut_leaves (carried : carryOut host store r.commands begun = .ok (answer, store')) :
    answer.staying = begun.staying ∧
      answer.relayed = begun.relayed + r.dispatched.length := by
  obtain ⟨h, upTo, answered, written, started⟩ := granted_within instantiated small granted
  have passage := Hub.startEpoch_passage upTo.reached.wellKept answered
  exact ⟨carryOut_staying upTo.mirrors written passage.tokenless carried,
    (carryOut_mirrors upTo.mirrors written started carried).relayed⟩

end Charging

/-- As long as times and reply ids can be told, whoever is the keeper or the admin, and attaches
nothing or one coin for the fees, starts an epoch exactly if a cost is quoted for that and
covered.  The cost is then what is charged: the rest is sent back, and no other message stays
on the hub's own chain.  It is the fee of one transaction for each operation that the hub
starts, and for each of them that leads on to another. -/
theorem quoted_cost_is_charged {calls : List Call} (instantiated : Instantiated calls store)
    {sender : Address} {funds : List Coin}
    (named : store.epochKind? identifier = some (some kind)) (small : epoch < Width.limit 64)
    (entitled : store.currentAdmin? = some sender ∨ store.keeper? = some (some sender))
    (attached : (funds = [] ∧ paid = 0) ∨ funds = [⟨feeDenom, paid⟩])
    (inRange : InRange host store kind epoch) :
    ((∃ ended, execute host ⟨sender, funds⟩ store (.startEpoch identifier epoch) = .ok ended) ↔
      ∃ cost transactions, query host store (.epochCost identifier epoch) =
        .ok (quotation cost transactions) ∧ cost ≤ paid) ∧
    ∀ answer store',
      execute host ⟨sender, funds⟩ store (.startEpoch identifier epoch) = .ok (answer, store') →
      ∃ r cost transactions,
        Hub.startEpoch store.view host.surroundings kind epoch = .ok r ∧
        query host store (.epochCost identifier epoch) = .ok (quotation cost transactions) ∧
        cost ≤ paid ∧
        answer.staying =
          (if cost < paid then [.send sender [⟨feeDenom, paid - cost⟩]] else []) ∧
        answer.relayed = r.dispatched.length ∧
        transactions = r.dispatched.length + r.dispatched.countP RemoteOp.leadsOn ∧
        host.Charges transactions cost := by
  obtain ⟨seats, seated⟩ := instantiated.settled.seats
  have appointed := (Store.seats?_eq_some.mp seated).2.2
  have authorized : Roles.authorizeKeeper store sender = .ok () :=
    authorizeKeeper_of appointed (entitled.imp_right fun keeper =>
      Option.some.inj (appointed.symm.trans keeper))
  have attached : allowedPayment funds feeDenom = .ok paid := by
    rcases attached with ⟨rfl, rfl⟩ | rfl
    · rfl
    · simp [allowedPayment]
  obtain ⟨attributes, starts⟩ := startEpoch_iff named ⟨sender, funds⟩ authorized attached
  refine ⟨⟨?_, ?_⟩, fun answer store' done => ?_⟩
  · rintro ⟨ended, done⟩
    obtain ⟨r, cost, answer, store', granted, priced, within, -⟩ := (starts ended).mp done
    exact ⟨cost, r.transactions, (epochCost_iff named).mpr ⟨r, cost, granted, priced, rfl⟩, within⟩
  · rintro ⟨cost, transactions, quoted, within⟩
    obtain ⟨r, _, granted, priced, same⟩ := (epochCost_iff named).mp quoted
    obtain rfl := quotation_cost same
    obtain ⟨⟨answer, store'⟩, carried⟩ := carryOut_started instantiated small granted inRange priced
      (Answer.report attributes r.notices)
    exact ⟨_, (starts _).mpr ⟨r, _, answer, store', granted, priced, within, carried, rfl⟩⟩
  · obtain ⟨r, cost, carriedAnswer, _, granted, priced, within, carried, given⟩ :=
      (starts _).mp done
    obtain ⟨rfl, rfl⟩ := Prod.mk.inj given
    obtain ⟨stays, leaves⟩ := carryOut_leaves instantiated small granted carried
    refine ⟨r, cost, r.transactions, granted,
      (epochCost_iff named).mpr ⟨r, cost, granted, priced, rfl⟩, within, ?_, ?_,
      r.transactions_counted, relayerCost_charges priced⟩
    · rw [Answer.staying_refund, stays]
      rfl
    · rw [Answer.relayed_refund, leaves]
      exact Nat.zero_add _

open Till (sampleHost)

/-- The transfer of a deposit costs two transactions; what is paid beyond that comes back. -/
theorem quoted_cost_is_charged_sample : ∃ calls store, Instantiated calls store ∧
    store.epochKind? "day" = some (some .delegation) ∧ 2 < Width.limit 64 ∧
    store.currentAdmin? = some "creator" ∧ InRange sampleHost store .delegation 2 ∧
    query sampleHost store (.epochCost "day" 2) = .ok (quotation 4000 2) ∧
    ∃ answer store', execute sampleHost ⟨"creator", [⟨feeDenom, 5000⟩]⟩ store
        (.startEpoch "day" 2) = .ok (answer, store') ∧
      answer.staying = [.send "creator" [⟨feeDenom, 1000⟩]] ∧ answer.relayed = 1 := by
  obtain ⟨calls, store, standing, named⟩ := deposited_standing
  obtain ⟨r, answered, one, transactions, priced⟩ := transfer_due
  have granted : Hub.startEpoch store.view sampleHost.surroundings .delegation 2 = .ok r :=
    standing.upTo.mirrors.holds.view ▸ answered
  have quoted : query sampleHost store (.epochCost "day" 2) = .ok (quotation 4000 2) :=
    (epochCost_iff named).mpr ⟨r, 4000, granted, priced, by rw [transactions]⟩
  have inRange : InRange sampleHost store .delegation 2 := by
    refine .of_able standing.able fun other is => ?_
    cases granted.symm.trans is
    rw [one]
    decide
  have attached : ([⟨feeDenom, 5000⟩] : List Coin) = [⟨feeDenom, 5000⟩] := rfl
  obtain ⟨served, charged⟩ := quoted_cost_is_charged standing.instantiated named
    (by decide : 2 < Width.limit 64) (.inl standing.able.admin) (.inr attached) inRange
  obtain ⟨⟨answer, store'⟩, done⟩ := served.mpr ⟨4000, 2, quoted, by decide⟩
  obtain ⟨_, cost, _, is, asked, -, stays, leaves, -⟩ := charged answer store' done
  cases granted.symm.trans is
  obtain rfl : 4000 = cost := quotation_cost (Except.ok.inj (quoted.symm.trans asked))
  exact ⟨calls, store, standing.instantiated, named, by decide, standing.able.admin, inRange,
    quoted, answer, store', done, stays, by rw [leaves, one]; rfl⟩

end Contract

end LiquidStaking
