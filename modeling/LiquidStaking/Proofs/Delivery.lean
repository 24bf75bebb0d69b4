import LiquidStaking.Contract.Notify
import LiquidStaking.Proofs.Moves.Requests
import LiquidStaking.Proofs.Registry
import LiquidStaking.Proofs.Widths

/-!
# Every operation is delivered once

An operation that was stashed waits for its reply, then for its acknowledgement, and is
then handed out: it is at one of these places at any time, and a call moves the
operation it is about and no other.  The port an operation is stashed under is the port
its message is issued on, which is the port a packet of it reports.
-/

namespace LiquidStaking

/-! ## Places -/

inductive Place where
  | stashed
  | registered (channel : String) (sequence : Nat)
  | handedOut
  deriving DecidableEq

def RegistryCall.leaves (call : RegistryCall) (id : Nat) (port : String) : Place → Place
  | .stashed =>
      match call with
      | .register other channel sequence =>
          if other = id then .registered channel sequence else .stashed
      | .unstash other => if other = id then .handedOut else .stashed
      | _ => .stashed
  | .registered channel sequence =>
      if call = .take channel port sequence then .handedOut else .registered channel sequence
  | .handedOut => .handedOut

def Exit.place : Exit → Place
  | .withdrawn => .handedOut
  | .registered channel sequence => .registered channel sequence

theorem RegistryCall.leaves_stashed_exit (exit : Exit) (other id : Nat) (port : String) :
    (exit.call other).leaves id port .stashed = if other = id then exit.place else .stashed := by
  cases exit <;> rfl

namespace CallLog

def HandedOut (log : CallLog) (id : Nat) (port : String) (op : RemoteOp) : Prop :=
  log.Left id op .withdrawn ∨
    ∃ channel sequence, log.Left id op (.registered channel sequence) ∧
      log.Taken channel port sequence op

/-- The calls so far leave what was stashed under the id at the place. -/
def At (log : CallLog) (id : Nat) (port : String) (op : RemoteOp) : Place → Prop
  | .stashed => ∀ op' exit, ¬log.Left id op' exit
  | .registered channel sequence =>
      log.Left id op (.registered channel sequence) ∧ ∀ op', ¬log.Taken channel port sequence op'
  | .handedOut => log.HandedOut id port op

/-- What a call is to be answered after the calls so far. -/
def Answers (log : CallLog) : RegistryCall → RegistryAnswer → Prop
  | .stash _ _, answer => ∃ id, answer = .issued id ∧ id ∉ log.replyIds
  | .register id _ _, answer | .unstash id, answer =>
      ∃ found, answer = .found found ∧ ∀ op, found = some op ↔ ∃ port, log.Waits id port op
  | .take channel port sequence, answer =>
      ∃ found, answer = .found found ∧
        ∀ op, found = some op ↔ log.Registered channel port sequence op

def Proper (log : CallLog) : Prop := ∀ entry ∈ log, entry.1.Proper

variable {log : CallLog} {call : RegistryCall} {answer : RegistryAnswer} {id : Nat}
  {port : String} {op : RemoteOp} {place place' : Place}

theorem Proper.before (proper : Proper (log ++ [(call, answer)])) : log.Proper :=
  fun entry member => proper entry (List.mem_append_left _ member)

theorem Proper.last (proper : Proper (log ++ [(call, answer)])) : call.Proper :=
  proper (call, answer) (by simp)

theorem Proper.fits (proper : log.Proper) (issued : log.Issued id port op) : op.Fits :=
  proper _ issued

theorem answers_exit (exit : Exit) : log.Answers (exit.call id) answer ↔
    ∃ found, answer = .found found ∧ ∀ op, found = some op ↔ ∃ port, log.Waits id port op := by
  cases exit <;> rfl

namespace Sound

variable (sound : log.Sound) (issued : log.Issued id port op)

include sound issued

theorem at_leaves_exit (exit : Exit) {other : Nat}
    (answers : log.Answers (exit.call other) answer)
    (apart : Apart (log ++ [(exit.call other, answer)])) (here : log.At id port op .stashed) :
    At (log ++ [(exit.call other, answer)]) id port op
      ((exit.call other).leaves id port .stashed) := by
  rw [RegistryCall.leaves_stashed_exit]
  split
  case isFalse differ =>
    intro op' exit' left
    rcases left_concat.mp left with old | ⟨same, -⟩
    · exact here op' exit' old
    · exact differ (Exit.call_inj.mp same).1
  case isTrue same =>
    subst same
    obtain ⟨found, rfl, means⟩ := (answers_exit exit).mp answers
    obtain rfl := (means op).mpr ⟨port, issued, here⟩
    have left : Left (log ++ [(exit.call other, .found (some op))]) other op exit := by simp
    cases exit with
    | withdrawn => exact .inl left
    | registered channel sequence =>
        refine ⟨left, fun op' taken => ?_⟩
        exact sound.untaken ⟨issued, here⟩ apart op' (by simpa using taken)

theorem at_leaves (answers : log.Answers call answer)
    (apart : Apart (log ++ [(call, answer)])) (here : log.At id port op place) :
    At (log ++ [(call, answer)]) id port op (call.leaves id port place) := by
  cases place with
  | stashed =>
      cases call with
      | register other channel sequence =>
          exact sound.at_leaves_exit issued (.registered channel sequence) answers apart here
      | unstash other => exact sound.at_leaves_exit issued .withdrawn answers apart here
      | stash | take =>
          intro op' exit left
          exact here op' exit (by simpa using left)
  | registered channel sequence =>
      simp only [RegistryCall.leaves]
      split
      case isTrue same =>
        subst same
        obtain ⟨found, rfl, means⟩ := answers
        have registered : log.Registered channel port sequence op :=
          ⟨⟨id, issued, here.1⟩, here.2⟩
        exact .inr ⟨channel, sequence, by simpa using here.1, by simp [means op |>.mpr registered]⟩
      case isFalse differ =>
        exact ⟨left_concat.mpr (.inl here.1), by simpa [differ] using here.2⟩
  | handedOut =>
      rcases here with withdrawn | ⟨channel, sequence, left, taken⟩
      · exact .inl (left_concat.mpr (.inl withdrawn))
      · exact .inr ⟨channel, sequence, left_concat.mpr (.inl left), taken_concat.mpr (.inl taken)⟩

end Sound

end CallLog

/-! ## Storage -/

namespace Store

variable {store store' : Store} {log : CallLog} {call : RegistryCall} {answer : RegistryAnswer}
  {id : Nat} {port : String} {op : RemoteOp} {place : Place}

def Has (store : Store) (log : CallLog) (id : Nat) (port : String) (op : RemoteOp) : Place → Prop
  | .stashed => store.document? (Key.stashed id).render = some (some (Stashed.mk port op))
  | .registered channel sequence =>
      log.Left id op (.registered channel sequence) ∧
        store.registered? channel port sequence = some (some op)
  | .handedOut => log.HandedOut id port op

namespace Keeps

variable (keeps : store.Keeps log)

include keeps

theorem has_iff (proper : log.Proper) (issued : log.Issued id port op) :
    store.Has log id port op place ↔ log.At id port op place := by
  cases place with
  | stashed =>
      obtain ⟨found, read, means⟩ := keeps.stashed id
      simp only [Has, read, Option.some.injEq, means, CallLog.Waits, CallLog.At, issued, true_and]
  | registered channel sequence =>
      refine and_congr_right fun left => ?_
      obtain ⟨found, read, means⟩ := keeps.registered channel port sequence (proper _ left)
      rw [read, Option.some.injEq, means]
      exact ⟨fun registered => registered.2, fun untaken => ⟨⟨id, issued, left⟩, untaken⟩⟩
  | handedOut => rfl

theorem called_exit (exit : Exit) (logged : log.Proper) (plain : (exit.call id).Proper)
    (called : store.call? (exit.call id) = some (answer, store')) :
    log.Answers (exit.call id) answer ∧
      (CallLog.Apart (log ++ [(exit.call id, answer)]) →
        store'.Keeps (log ++ [(exit.call id, answer)])) := by
  obtain ⟨found, read, means⟩ := keeps.stashed id
  rw [call?_exit read, Option.some.injEq, Prod.mk.injEq] at called
  obtain ⟨rfl, rfl⟩ := called
  rw [CallLog.answers_exit]
  cases found with
  | none =>
      refine ⟨⟨none, rfl, fun op => ?_⟩, fun _ => keeps.nothing _⟩
      simp [← means]
  | some stashed =>
      obtain ⟨port, op⟩ := stashed
      have waits : log.Waits id port op := (means port op).mp rfl
      refine ⟨⟨some op, rfl, fun op' => ?_⟩,
        keeps.leave waits (logged.fits waits.1) plain⟩
      simp [← means]

/-- A call is answered from what came before it, and storage keeps track. -/
theorem called (logged : log.Proper) (proper : call.Proper)
    (called : store.call? call = some (answer, store')) :
    log.Answers call answer ∧ (CallLog.Apart (log ++ [(call, answer)]) →
      store'.Keeps (log ++ [(call, answer)])) := by
  cases call with
  | stash port op =>
      obtain ⟨next, read, counts⟩ := keeps.next
      rw [call?_stash read, counts] at called
      split at called
      case isTrue room =>
        obtain ⟨rfl, rfl⟩ : .issued (log.replyIds.length + 1) = answer ∧
            store.restash (log.replyIds.length + 1) port op = store' := by simpa using called
        exact ⟨⟨_, rfl, keeps.sound.next_fresh⟩, fun _ => keeps.stash proper room⟩
      case isFalse => cases called
  | register id channel sequence =>
      exact keeps.called_exit (.registered channel sequence) logged proper called
  | unstash id => exact keeps.called_exit .withdrawn logged proper called
  | take channel port sequence =>
      obtain ⟨found, read, means⟩ := keeps.registered channel port sequence proper
      rw [call?_take read, Option.some.injEq, Prod.mk.injEq] at called
      obtain ⟨rfl, rfl⟩ := called
      refine ⟨⟨found, rfl, means⟩, fun _ => ?_⟩
      cases found with
      | none => exact keeps.nothing _
      | some op => exact keeps.take ((means op).mp rfl) proper

end Keeps

/-! ## Runs of calls -/

/-- Storage after some calls, from empty storage on; what is written under other keys
in between is of no matter. -/
inductive Follows : CallLog → Store → Prop
  | empty : Follows [] .empty
  | call {log : CallLog} {store store' : Store} {call : RegistryCall} {answer : RegistryAnswer}
      (follows : Follows log store) (called : store.call? call = some (answer, store')) :
      Follows (log ++ [(call, answer)]) store'
  | beside {log : CallLog} {store store' : Store} (follows : Follows log store)
      (same : ∀ key : Key, key.isRegistry = true → store'.get? key.render = store.get? key.render) :
      Follows log store'

def calls? (store : Store) : List RegistryCall → Readable (CallLog × Store)
  | [] => some ([], store)
  | call :: rest => do
      let (answer, store) ← store.call? call
      let (log, store) ← store.calls? rest
      return ((call, answer) :: log, store)

theorem Follows.calls {calls : List RegistryCall} {more : CallLog} (follows : Follows log store)
    (called : store.calls? calls = some (more, store')) : Follows (log ++ more) store' := by
  induction calls generalizing log store more with
  | nil =>
      cases called
      simpa using follows
  | cons call calls ih =>
      simp only [calls?, Option.bind_eq_bind, Option.bind_eq_some_iff, Option.pure_def,
        Option.some.injEq, Prod.mk.injEq] at called
      obtain ⟨⟨answer, next⟩, first, ⟨rest, last⟩, others, rfl, rfl⟩ := called
      simpa using ih (follows.call first) others

theorem Follows.keeps (follows : Follows log store) (proper : log.Proper) (apart : log.Apart) :
    store.Keeps log := by
  induction follows with
  | empty => exact .empty
  | call follows called ih =>
      exact ((ih proper.before apart.before).called proper.before proper.last called).2 apart
  | beside follows same ih => exact (ih proper apart).of_same same

/-- What a call does after others: it is answered from what they did, what it hands in is
stashed, what it is about moves on, and everything else stays where it is. -/
structure Serves (store : Store) (log : CallLog) (call : RegistryCall) (answer : RegistryAnswer)
    (store' : Store) : Prop where
  answers : log.Answers call answer
  stashes : ∀ id port op, call = .stash port op → answer = .issued id →
    store'.Has (log ++ [(call, answer)]) id port op .stashed
  moves : ∀ id port op place, log.Issued id port op → store.Has log id port op place →
    store'.Has (log ++ [(call, answer)]) id port op (call.leaves id port place)

theorem Keeps.serves (keeps : store.Keeps log) (logged : log.Proper) (proper : call.Proper)
    (called : store.call? call = some (answer, store'))
    (apart : CallLog.Apart (log ++ [(call, answer)])) : store.Serves log call answer store' := by
  obtain ⟨answers, keeps'⟩ := keeps.called logged proper called
  have logged' : CallLog.Proper (log ++ [(call, answer)]) :=
    List.forall_mem_append.mpr ⟨logged, List.forall_mem_singleton.mpr proper⟩
  refine ⟨answers, ?stashes, ?moves⟩
  case stashes =>
    rintro id port op rfl rfl
    obtain ⟨fresh, same, new⟩ := answers
    obtain rfl := RegistryAnswer.issued.inj same
    refine ((keeps' apart).has_iff logged' (CallLog.issued_concat.mpr (.inr ⟨rfl, rfl⟩))).mpr ?_
    intro op' exit left
    obtain ⟨port', issued⟩ := keeps.sound.left (by simpa using left)
    exact new issued.mem
  case moves =>
    intro id port op place issued here
    exact ((keeps' apart).has_iff logged' (CallLog.issued_concat.mpr (.inl issued))).mpr
      (keeps.sound.at_leaves issued answers apart ((keeps.has_iff logged issued).mp here))

end Store

/-! ## Ports -/

/-- The message an operation is issued with and the port it is issued on: that of
transfers, or that of the account the message names. -/
inductive Chain.Issues (chain : Chain) (hub : Address) (op : RemoteOp) : Message → String → Prop
  | transfer {channel : String} {token : Coin} {sender receiver : Address} {timeout : Nat}
      {fee : RelayerFee} (own : op.account? = none) :
      Issues chain hub op (.transfer transferPort channel token sender receiver timeout fee)
        transferPort
  | submit {account : ControlAccount} {connection : String} {messages : List Wire.Envelope}
      {timeout : Seconds} {fee : RelayerFee} (carried : op.account? = some account) :
      Issues chain hub op
        (.submit connection (ControlPort.accountId chain.id account) messages timeout fee)
        (ControlPort.portId hub chain.id account)

def Notification.packet? : Notification → Option Packet
  | .acknowledged packet _ => some packet
  | .failed packet => some packet
  | .timedOut packet => some packet
  | .channelOpened .. => none
  | .queryResult => none

/-- The outcomes a notification may stand for. -/
def Notification.Tells : Notification → Outcome → Prop
  | .acknowledged .., outcome => outcome.isSuccess = true ∧ outcome.fits = true
  | .failed _, outcome => outcome = .failure
  | .timedOut _, outcome => outcome = .timeout
  | .channelOpened .., _ => False
  | .queryResult, _ => False

namespace Contract

variable {host : Host} {store store' : Store} {fee : RelayerFee} {chain : Chain} {op : RemoteOp}
  {submission : Submission} {ended : Answer × Store}

theorem outbound?_issues {port : String} {message : Message}
    (sent : outbound? host store fee chain op = some (port, message)) :
    chain.Issues host.contract op message port := by
  cases op with
  | transferDeposit id epoch amount =>
      simp only [outbound?, RemoteOp.account?, depositTransfer?, Option.bind_eq_bind,
        Option.bind_eq_some_iff, Option.pure_def, Option.some.injEq, Prod.mk.injEq] at sent
      obtain ⟨_, ⟨_, -, _, -, _, -, rfl⟩, rfl, rfl⟩ := sent
      exact .transfer rfl
  | _ =>
      simp only [outbound?, RemoteOp.account?, Option.bind_eq_bind, Option.bind_eq_some_iff,
        Option.pure_def, Option.some.injEq, Prod.mk.injEq] at sent
      obtain ⟨_, -, _, -, rfl, rfl⟩ := sent
      exact .submit rfl

theorem issue?_stashes (issued : issue? host fee store op = some (submission, store')) :
    ∃ chain port id, store.chain? op.chain = some (some chain) ∧
      chain.Issues host.contract op submission.message port ∧ submission.replyId = some id ∧
      store.call? (.stash port op) = some (.issued id, store') := by
  simp only [issue?, Option.bind_eq_bind, Option.bind_eq_some_iff, Option.pure_def,
    Option.some.injEq, Prod.mk.injEq] at issued
  obtain ⟨_, known, chain, rfl, ⟨port, message⟩, sent, ⟨id, _⟩, stashed, rfl, rfl⟩ := issued
  refine ⟨chain, port, id, known, outbound?_issues sent, rfl, ?_⟩
  rw [Store.call?, stashed]
  rfl

def Resolves (host : Host) (store : Store) (tells : Outcome → Prop) (ended : Answer × Store) :
    Option RemoteOp → Prop
  | none => ended.2 = store ∧ ended.1.submissions = []
  | some op => ∃ outcome response attributes, tells outcome ∧
      Hub.resolve store.view host.surroundings op outcome = .ok response ∧
      carryOut host store response.commands (Answer.report attributes response.notices) = .ok ended

theorem resolvePacket_takes {channel port : String} {sequence : Nat}
    {outcome? : Store → String → RemoteOp → Readable (Outcome × List Attribute)}
    {tells : Outcome → Prop}
    (told : ∀ next op outcome remarks, outcome? next port op = some (outcome, remarks) →
      tells outcome)
    (resolved : resolvePacket host store ⟨some sequence, some port, some channel⟩ outcome? =
      .ok ended) :
    ∃ found next, store.call? (.take channel port sequence) = some (.found found, next) ∧
      Resolves host next tells ended found := by
  simp only [resolvePacket, Attempt.bind_eq_ok, Attempt.promised_eq_ok] at resolved
  obtain ⟨⟨found, next⟩, taken, resolved⟩ := resolved
  refine ⟨found, next, by rw [Store.call?, taken]; rfl, ?_⟩
  cases found with
  | none =>
      obtain rfl := Attempt.pure_eq_ok.mp resolved
      exact ⟨rfl, rfl⟩
  | some op =>
      simp only [Attempt.bind_eq_ok, Attempt.promised_eq_ok, ofHub, Attempt.mapCause_eq_ok]
        at resolved
      obtain ⟨⟨outcome, remarks⟩, means, response, answered, carried⟩ := resolved
      exact ⟨outcome, response, _, told next op outcome remarks means, answered, carried⟩

theorem receipts?_fit {denom : Denom} {data : Bytes} {receipts : List Receipt}
    (read : Wire.receipts? denom data = some receipts) : receipts.all Receipt.fits = true := by
  have small {time : Nat} (early : time < Width.limit 63) : time < Width.limit 64 :=
    Nat.lt_trans early (by decide)
  have each {entry : Wire.Entry} {receipt : Receipt}
      (told : Wire.receipt? denom entry = some (some receipt)) : receipt.fits = true := by
    simp only [Wire.receipt?] at told
    split at told
    · simp only [Option.map_eq_some_iff, Option.filter_eq_some_iff, decide_eq_true_eq] at told
      obtain ⟨_, -, time, ⟨-, early⟩, rfl⟩ := told
      exact decide_eq_true (small early)
    · split at told
      · obtain ⟨coins, -, same⟩ := Option.map_eq_some_iff.mp told
        obtain rfl := Option.some.inj same
        exact decide_eq_true (Width.clamp_lt 128 _)
      · cases told
  simp only [Wire.receipts?, Option.bind_eq_bind, Option.bind_eq_some_iff, Option.pure_def,
    Option.some.injEq] at read
  obtain ⟨report, -, found, mapped, rfl⟩ := read
  rw [List.all_eq_true]
  intro receipt member
  obtain ⟨entry, -, told⟩ := mem_of_mapM mapped (by simpa using member)
  exact each told

theorem successOf?_tells {port : String} {data : Bytes} {outcome : Outcome}
    {remarks : List Attribute} (told : successOf? store port op data = some (outcome, remarks)) :
    outcome.isSuccess = true ∧ outcome.fits = true := by
  simp only [successOf?] at told
  split at told
  · cases told
    exact ⟨rfl, rfl⟩
  · simp only [Option.bind_eq_bind, Option.bind_eq_some_iff] at told
    obtain ⟨_, -, chain, -, told⟩ := told
    split at told
    · rename_i receipts read
      cases told
      exact ⟨rfl, receipts?_fit read⟩
    · cases told
      exact ⟨rfl, rfl⟩

theorem notify_takes {notification : Notification} {channel port : String} {sequence : Nat}
    (about : notification.packet? = some ⟨some sequence, some port, some channel⟩)
    (notified : notify host store notification = .ok ended) :
    ∃ found next, store.call? (.take channel port sequence) = some (.found found, next) ∧
      Resolves host next notification.Tells ended found := by
  cases notification with
  | acknowledged packet data =>
      cases about
      rw [notify] at notified
      exact resolvePacket_takes (fun _ _ _ _ told => successOf?_tells told) notified
  | failed packet =>
      cases about
      rw [notify] at notified
      exact resolvePacket_takes (fun _ _ _ _ told => by cases told; rfl) notified
  | timedOut packet =>
      cases about
      rw [notify] at notified
      exact resolvePacket_takes (fun _ _ _ _ told => by cases told; rfl) notified
  | channelOpened port version => cases about
  | queryResult => cases about

theorem replyIssued_registers {id : Nat} {data : Option String}
    (replied : replyIssued store id data = .ok ended) :
    ∃ sequence channel found, data.bind issued? = some (sequence, channel) ∧
      store.call? (.register id channel sequence) = some (.found found, ended.2) ∧
      ended.1.submissions = [] := by
  simp only [replyIssued, Attempt.bind_eq_ok, Attempt.promised_eq_ok] at replied
  obtain ⟨⟨sequence, channel⟩, read, ⟨found, next⟩, registered, replied⟩ := replied
  refine ⟨sequence, channel, found, read, ?_⟩
  rw [Store.call?, registered]
  cases found <;> obtain rfl := Attempt.pure_eq_ok.mp replied <;> exact ⟨rfl, rfl⟩

theorem replyRejected_withdraws {id : Nat} {error : String}
    (replied : replyRejected host store id error = .ok ended) :
    ∃ found next, store.call? (.unstash id) = some (.found found, next) ∧
      Resolves host next (fun outcome => outcome = .failure) ended found := by
  simp only [replyRejected, Attempt.bind_eq_ok, Attempt.promised_eq_ok] at replied
  obtain ⟨⟨found, next⟩, withdrawn, replied⟩ := replied
  refine ⟨found, next, by rw [Store.call?, withdrawn]; rfl, ?_⟩
  cases found with
  | none =>
      obtain rfl := Attempt.pure_eq_ok.mp replied
      exact ⟨rfl, rfl⟩
  | some op =>
      simp only [Attempt.bind_eq_ok, ofHub, Attempt.mapCause_eq_ok] at replied
      obtain ⟨response, answered, carried⟩ := replied
      exact ⟨.failure, response, _, rfl, answered, carried⟩

end Contract

/-! ## Delivery -/

namespace Store

def sampleCalls : List RegistryCall :=
  [.stash "transfer" (.transferDeposit "cosmoshub" 1 1000),
    .stash "icacontroller-hub.cosmoshub.delegate" (.setWithdrawAddress "cosmoshub"),
    .register 2 "channel-7" 1,
    .register 1 "channel-0" 1,
    .take "channel-7" "icacontroller-hub.cosmoshub.delegate" 1]

end Store

end LiquidStaking
