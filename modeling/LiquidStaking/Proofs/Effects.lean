import LiquidStaking.Proofs.UnderWay

/-!
# Responses are carried out

To carry out a response is to record its commands and to issue what it starts: storage
then mirrors the hub that has committed the response, and the answer holds one message
that relayers carry for every operation started.
-/

namespace LiquidStaking

/-! ## What answers ask for -/

/-- The message leaves for another chain, and relayers are paid to carry it. -/
def Message.isRelayed : Message → Bool
  | .transfer .. => true
  | .submit .. => true
  | _ => false

def Message.account? : Message → Option String
  | .registerAccount _ accountId _ => some accountId
  | _ => none

structure Submission.Local (submission : Submission) : Prop where
  calm : submission.message.isRelayed = false
  none : submission.replyId = Option.none

namespace Answer

def relayed (answer : Answer) : Nat :=
  answer.submissions.countP fun submission => submission.message.isRelayed

def accounts (answer : Answer) : List String :=
  answer.submissions.filterMap fun submission => submission.message.account?

variable (answer : Answer)

@[simp] theorem relayed_addMessages (messages : List Message) :
    (answer.addMessages messages).relayed = answer.relayed + messages.countP Message.isRelayed := by
  simp [relayed, addMessages, List.countP_append, List.countP_map, Function.comp_def]

@[simp] theorem accounts_addMessages (messages : List Message) :
    (answer.addMessages messages).accounts =
      answer.accounts ++ messages.filterMap Message.account? := by
  simp [accounts, addMessages, List.filterMap_map]

theorem relayed_of_local {answer : Answer}
    (each : ∀ submission ∈ answer.submissions, submission.Local) : answer.relayed = 0 :=
  List.countP_eq_zero.mpr fun submission listed => by simp [(each submission listed).calm]

theorem local_addMessages {answer : Answer} {messages : List Message}
    (begins : ∀ submission ∈ answer.submissions, submission.Local)
    (stay : ∀ message ∈ messages, message.isRelayed = false) :
    ∀ submission ∈ (answer.addMessages messages).submissions, submission.Local := by
  intro submission listed
  rcases List.mem_append.mp listed with first | last
  · exact begins submission first
  · obtain ⟨message, own, rfl⟩ := List.mem_map.mp last
    exact ⟨stay message own, rfl⟩

theorem local_report (attributes : List Attribute) (notices : List Notice) :
    ∀ submission ∈ (Answer.report attributes notices).submissions, submission.Local :=
  List.forall_mem_nil _

theorem relayed_of_none {answer : Answer} (none : answer.submissions = []) :
    answer.relayed = 0 := by
  rw [relayed, none]
  rfl

theorem accounts_of_none {answer : Answer} (none : answer.submissions = []) :
    answer.accounts = [] := by
  rw [accounts, none]
  rfl

def refund (caller : Contract.Caller) (cost paid : Amount) : Answer :=
  if cost < paid then answer.addMessages [.send caller.sender [⟨feeDenom, paid - cost⟩]]
  else answer

theorem relayed_refund (caller : Contract.Caller) (cost paid : Amount) :
    (answer.refund caller cost paid).relayed = answer.relayed := by
  unfold refund
  split
  · exact relayed_addMessages answer _
  · rfl

theorem accounts_refund (caller : Contract.Caller) (cost paid : Amount) :
    (answer.refund caller cost paid).accounts = answer.accounts := by
  unfold refund
  split
  · exact (accounts_addMessages answer _).trans (List.append_nil _)
  · rfl

end Answer

theorem TokenOrder.message_stays (order : TokenOrder) :
    order.message.isRelayed = false ∧ order.message.account? = none := by
  cases order <;> exact ⟨rfl, rfl⟩

theorem Chain.Issues.leaves {chain : Chain} {hub : Address} {op : RemoteOp} {message : Message}
    {port : String} (issues : chain.Issues hub op message port) :
    message.isRelayed = true ∧ message.account? = none := by
  cases issues <;> exact ⟨rfl, rfl⟩

namespace Contract

variable {host : Host} {store store' : Store} {fee : RelayerFee} {h : HubState} {op : RemoteOp}
  {ops : List RemoteOp} {begun answer : Answer} {r : Response}

/-! ## Issuing -/

theorem issue?_mirrors {submission : Submission} (mirrors : store.Mirrors h) (fits : op.Fits)
    (issued : issue? host fee store op = some (submission, store')) :
    store'.Mirrors ⟨h.books, h.outstanding ++ [op]⟩ ∧ submission.message.isRelayed = true ∧
      submission.message.account? = none := by
  obtain ⟨chain, port, id, -, issues, -, called⟩ := issue?_stashes issued
  exact ⟨mirrors.stash fits called, issues.leaves⟩

theorem issueAll?_mirrors {submissions : List Submission} (mirrors : store.Mirrors h)
    (fits : ∀ op ∈ ops, op.Fits)
    (issued : issueAll? host fee store ops = some (submissions, store')) :
    store'.Mirrors ⟨h.books, h.outstanding ++ ops⟩ ∧
      (submissions.countP fun submission => submission.message.isRelayed) = ops.length ∧
      (submissions.filterMap fun submission => submission.message.account?) = [] := by
  induction ops generalizing store h submissions with
  | nil =>
      cases issued
      exact ⟨by simpa using mirrors, rfl, rfl⟩
  | cons op ops ih =>
      simp only [issueAll?, Option.bind_eq_bind, Option.bind_eq_some_iff, Option.pure_def,
        Option.some.injEq, Prod.mk.injEq] at issued
      obtain ⟨⟨submission, next⟩, first, ⟨others, last⟩, rest, rfl, rfl⟩ := issued
      obtain ⟨mirrors, relayed, noAccount⟩ :=
        issue?_mirrors mirrors (fits op List.mem_cons_self) first
      obtain ⟨mirrors, all, none⟩ := ih mirrors
        (fun other later => fits other (List.mem_cons_of_mem _ later)) rest
      exact ⟨by simpa using mirrors, by simp [relayed, all], by simp [noAccount, none]⟩

/-! ## Carrying out -/

/-- The answer that was begun ends with one message more for relayers for every operation
started, and storage mirrors the hub that has committed the response. -/
structure CarriesOut (h : HubState) (r : Response) (begun answer : Answer) (store' : Store) :
    Prop where
  mirrors : store'.Mirrors (h.commit r)
  relayed : answer.relayed = begun.relayed + r.dispatched.length
  accounts : answer.accounts = begun.accounts

theorem orders_stay (effects : List Store.Effect) :
    ∀ message ∈ (orders effects).map TokenOrder.message,
      message.isRelayed = false ∧ message.account? = none :=
  List.forall_mem_map.mpr fun order _ => order.message_stays

/-- The commands are recorded first, and the operations issued on what that leaves; what the
answer submits last are the orders of tokens, and then these. -/
theorem carryOut_issues {commands : List Command}
    (carried : carryOut host store commands begun = .ok (answer, store')) :
    ∃ recorded effects fee submissions, store.applyAll commands = some (recorded, effects) ∧
      issueAll? host fee recorded (operations effects) = some (submissions, store') ∧
      answer.submissions =
        (begun.addMessages ((orders effects).map TokenOrder.message)).submissions ++
          submissions := by
  simp only [carryOut, Attempt.bind_eq_ok, Attempt.promised_eq_ok] at carried
  obtain ⟨⟨recorded, effects⟩, applied, carried⟩ := carried
  unfold issueOperations at carried
  split at carried
  case isTrue none =>
    cases carried
    refine ⟨recorded, effects, ⟨[], [], []⟩, [], applied, ?_, (List.append_nil _).symm⟩
    rw [none]
    rfl
  case isFalse =>
    simp only [Attempt.bind_eq_ok, Attempt.promised_eq_ok, Attempt.pure_eq_ok,
      Prod.mk.injEq] at carried
    obtain ⟨fee, -, cost, -, ⟨submissions, last⟩, issued, rfl, rfl⟩ := carried
    exact ⟨recorded, effects, fee, submissions, applied, issued, rfl⟩

theorem carryOut_recorded {b : Books} (holds : store.Holds b)
    (written : ∀ command ∈ r.commands, command.Fits)
    (carried : carryOut host store r.commands begun = .ok (answer, store')) :
    ∃ recorded fee submissions, recorded.Holds (b.applyAll r.commands) ∧
      store.SameBeside recorded ∧
      issueAll? host fee recorded r.dispatched = some (submissions, store') ∧
      answer.submissions = (begun.addMessages ((orders
        (r.commands.filterMap Command.effect?)).map TokenOrder.message)).submissions ++
          submissions := by
  obtain ⟨recorded, effects, fee, submissions, applied, issued, submitted⟩ :=
    carryOut_issues carried
  obtain ⟨_, same, holds, beside⟩ := holds.applyAll written
  cases same.symm.trans applied
  rw [operations_effects r.commands r.notices] at issued
  exact ⟨recorded, fee, submissions, holds, beside, issued, submitted⟩

/-- Whoever pays for a response attaches its cost, and the rest comes back. -/
theorem carryOutPaid_iff {caller : Caller} {ended : Answer × Store} :
    carryOutPaid host caller store r begun = .ok ended ↔
      ∃ cost paid answer store', relayerCost host r.transactions = .ok cost ∧
        allowedPayment caller.funds feeDenom = .ok paid ∧ cost ≤ paid ∧
        carryOut host store r.commands begun = .ok (answer, store') ∧
        (answer.refund caller cost paid, store') = ended := by
  have settle (answer : Answer) (cost paid : Amount) (store' : Store) : (if cost < paid then
      pure (answer.addMessages [.send caller.sender [⟨feeDenom, paid - cost⟩]], store')
      else pure (answer, store')) =
        (.ok (answer.refund caller cost paid, store') : Attempt ContractError _) := by
    unfold Answer.refund
    split <;> rfl
  simp only [carryOutPaid, ofPayment, Attempt.bind_eq_ok, Attempt.mapCause_eq_ok,
    Attempt.require_eq_ok, settle, Except.ok.injEq]
  constructor
  · rintro ⟨cost, priced, paid, attached, ⟨⟩, within, ⟨answer, store'⟩, carried, given⟩
    exact ⟨cost, paid, answer, store', priced, attached, within, carried, given⟩
  · rintro ⟨cost, paid, answer, store', priced, attached, within, carried, given⟩
    exact ⟨cost, priced, paid, attached, ⟨⟩, within, (answer, store'), carried, given⟩

section CarryingOut

variable (mirrors : store.Mirrors h) (written : ∀ command ∈ r.commands, command.Fits)
  (started : ∀ op ∈ r.dispatched, op.Fits)

include mirrors written started

theorem carryOut_mirrors (carried : carryOut host store r.commands begun = .ok (answer, store')) :
    CarriesOut h r begun answer store' := by
  obtain ⟨recorded, fee, submissions, holds, beside, issued, submitted⟩ :=
    carryOut_recorded mirrors.holds written carried
  have still : recorded.Mirrors ⟨h.books.applyAll r.commands, h.outstanding⟩ :=
    ⟨holds, mirrors.carries.of_same fun key registry =>
      beside key (Key.apart_of_registry registry).1⟩
  obtain ⟨mirrors, all, none⟩ := issueAll?_mirrors still started issued
  have stay := orders_stay (r.commands.filterMap Command.effect?)
  refine ⟨mirrors, ?_, ?_⟩
  · rw [Answer.relayed, submitted, List.countP_append, all, ← Answer.relayed,
      Answer.relayed_addMessages, List.countP_eq_zero.mpr fun message listed => by
        simp [(stay message listed).1], Nat.add_zero]
  · rw [Answer.accounts, submitted, List.filterMap_append, none, ← Answer.accounts,
      Answer.accounts_addMessages, List.filterMap_eq_nil_iff.mpr fun message listed =>
        (stay message listed).2, List.append_nil, List.append_nil]

theorem carryOutPaid_mirrors {caller : Caller}
    (carried : carryOutPaid host caller store r begun = .ok (answer, store')) :
    CarriesOut h r begun answer store' := by
  obtain ⟨cost, paid, unpaid, last, -, -, -, whole, given⟩ := carryOutPaid_iff.mp carried
  obtain ⟨rfl, rfl⟩ := Prod.mk.inj given
  obtain ⟨mirrors, relayed, accounts⟩ := carryOut_mirrors mirrors written started whole
  exact ⟨mirrors, by rw [Answer.relayed_refund, relayed], by rw [Answer.accounts_refund, accounts]⟩

end CarryingOut

end Contract

end LiquidStaking
