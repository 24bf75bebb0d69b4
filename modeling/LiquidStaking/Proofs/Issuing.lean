import LiquidStaking.Contract.Effects
import LiquidStaking.Proofs.Dispatches
import LiquidStaking.Proofs.Widths

/-!
# Operations are issued

What a step starts is issued once its commands are recorded.  To issue an operation
takes its chain and the accounts it needs, which are there; the timeouts, which are
stored beside the books and which no command of the hub touches; and a reply id.
-/

namespace LiquidStaking

variable {host : Host} {store store' : Store} {b : Books} {op : RemoteOp} {chain : Chain}
  {count : Nat}

theorem Host.later?_of_le {short long : Seconds} (le : short ≤ long)
    (later : (host.later? long).isSome = true) : (host.later? short).isSome = true := by
  obtain ⟨time, reached⟩ := Option.isSome_iff_exists.mp later
  have inTime := (Width.narrow?_eq_some.mp reached).2
  have sooner := Nat.mul_le_mul_right Host.nanosPerSecond le
  rw [later?, Width.add?, Width.narrow?_of_lt (by omega)]
  rfl

/-! ## What issuing takes -/

/-- What issuing so many operations takes, their accounts apart: timeouts that end
within 64 bits, and as many reply ids. -/
structure Store.CanIssue (store : Store) (host : Host) (count : Nat) : Prop where
  timeouts : ∃ execution transfer, store.accountTimeout? = some execution ∧
    store.transferTimeout? = some transfer ∧ (host.later? (execution + transfer)).isSome = true
  replyIds : ∃ next, store.number? Key.nextReplyId.render = some next ∧
    next.getD 1 + count < Width.limit 64

def Store.Equips (store : Store) (op : RemoteOp) : Prop :=
  ∃ chain, store.chain? op.chain = some (some chain) ∧
    ∀ account ∈ op.needs, (chain.address? account).isSome = true

namespace Store

theorem Holds.equips (holds : store.Holds b) (equipped : op.Equipped b) : store.Equips op := by
  cases known : b.chain? op.chain with
  | none => simpa [Books.address?, known] using equipped .delegate op.delegate_needed
  | some chain =>
      refine ⟨chain, by rw [holds.chain?, known], fun account needed => ?_⟩
      rw [← Books.address?_of_known known]
      exact equipped account needed

theorem CanIssue.of_same (can : store.CanIssue host count)
    (account : store'.get? Key.accountTimeout.render = store.get? Key.accountTimeout.render)
    (transfer : store'.get? Key.transferTimeout.render = store.get? Key.transferTimeout.render)
    {count' : Nat} (replyIds : ∃ next, store'.number? Key.nextReplyId.render = some next ∧
      next.getD 1 + count' < Width.limit 64) : store'.CanIssue host count' where
  timeouts := by
    simpa only [accountTimeout?, transferTimeout?, number?_of_get? account,
      number?_of_get? transfer] using can.timeouts
  replyIds := replyIds

theorem CanIssue.beside (can : store.CanIssue host count) (beside : store.SameBeside store') :
    store'.CanIssue host count := by
  refine can.of_same (beside .accountTimeout rfl) (beside .transferTimeout rfl) ?_
  rw [number?_of_get? (beside .nextReplyId rfl)]
  exact can.replyIds

theorem Holds.put_beside (holds : store.Holds b) (key : Key) (beside : key.isBooks = false)
    (value : Bytes) : (store.put key.render value).Holds b :=
  holds.of_same fun _ books => get?_put_of_ne (Key.render_ne_of_books books beside) value

theorem stash_spec (holds : store.Holds b) (can : store.CanIssue host (count + 1))
    (port : String) (op : RemoteOp) :
    ∃ replyId store', store.stash port op = some (replyId, store') ∧ store'.Holds b ∧
      store'.CanIssue host count := by
  obtain ⟨next, read, room⟩ := can.replyIds
  have fits : next.getD 1 + 1 < Width.limit 64 := by omega
  let numbered := store.setNumber Key.nextReplyId.render (next.getD 1 + 1)
  let stashed := numbered.setDocument (Key.stashed (next.getD 1)).render (Stashed.mk port op)
  have kept {key : String} (other : Key.nextReplyId.render ≠ key)
      (apart : (Key.stashed (next.getD 1)).render ≠ key) : stashed.get? key = store.get? key :=
    (get?_put_of_ne apart _).trans (get?_put_of_ne other _)
  refine ⟨next.getD 1, stashed, ?stash, ?holds, ?can⟩
  case stash =>
    simp only [stash, read, Option.bind_eq_bind, Option.bind_some, Width.add?,
      Width.narrow?_of_lt fits]
    rfl
  case holds => exact (holds.put_beside .nextReplyId rfl _).put_beside (.stashed _) rfl _
  case can =>
    have apart {key : Key} (apart : Key.Apart "callback::stashed" key.family) :
        (Key.stashed (next.getD 1)).render ≠ key.render := Key.render_ne_of_apart apart
    refine can.of_same (kept (by decide) (apart (by decide))) (kept (by decide) (apart (by decide)))
      ⟨some (next.getD 1 + 1), ?_, ?_⟩
    · have same : stashed.number? Key.nextReplyId.render =
          numbered.number? Key.nextReplyId.render :=
        number?_of_get? (get?_put_of_ne (apart (by decide)) _)
      exact same.trans (number?_setNumber store _ fits)
    · rw [Option.getD_some]
      omega

end Store

/-! ## Messages -/

namespace Chain

variable (isOpen : chain.delegateAddress.isSome = true)

include isOpen

theorem stakeMessages?_isSome
    (change : Address → Address → Amount → Denom → Wire.Envelope) (shares : Allocation) :
    (chain.stakeMessages? change shares).isSome = true := by
  obtain ⟨delegator, isOpen⟩ := Option.isSome_iff_exists.mp isOpen
  simp only [stakeMessages?, isOpen, Option.bind_eq_bind, Option.bind_some, Option.pure_def,
    Option.isSome_bind]
  refine mapM_isSome fun share _ => ?_
  split <;> rfl

theorem rewardMessages?_isSome (validators : List Address) :
    (chain.rewardMessages? validators).isSome = true := by
  obtain ⟨delegator, isOpen⟩ := Option.isSome_iff_exists.mp isOpen
  simp only [rewardMessages?, isOpen, Option.bind_eq_bind, Option.bind_some, Option.pure_def]
  exact mapM_isSome fun _ _ => rfl

end Chain

namespace Contract

section Needs

variable (can : store.CanIssue host count)
  (isOpen : ∀ account ∈ op.needs, (chain.address? account).isSome = true)

include can

-- The time a timeout ends at is kept closed: opened, it is a product by repeated addition.
theorem returnMessage?_isSome (isOpen : chain.delegateAddress.isSome = true) (amount : Amount) :
    (returnMessage? host store chain amount).isSome = true := by
  obtain ⟨execution, transfer, accountRead, transferRead, later⟩ := can.timeouts
  obtain ⟨timeout, reached⟩ := Option.isSome_iff_exists.mp later
  obtain ⟨delegator, delegated⟩ := Option.isSome_iff_exists.mp isOpen
  refine Option.isSome_iff_exists.mpr ⟨Wire.transfer transferPort chain.remoteTransferChannel amount
    chain.nativeDenom delegator chain.escrow timeout, ?_⟩
  simp only [returnMessage?, Option.bind_eq_bind, Option.bind_eq_some_iff]
  exact ⟨execution, accountRead, transfer, transferRead, delegator, delegated, timeout, reached,
    rfl⟩

theorem depositTransfer?_isSome (isOpen : chain.delegateAddress.isSome = true) (fee : RelayerFee)
    (amount : Amount) : (depositTransfer? host store fee chain amount).isSome = true := by
  obtain ⟨execution, transfer, -, transferRead, later⟩ := can.timeouts
  obtain ⟨timeout, reached⟩ := Option.isSome_iff_exists.mp
    (Host.later?_of_le (Nat.le_add_left transfer execution) later)
  obtain ⟨delegator, delegated⟩ := Option.isSome_iff_exists.mp isOpen
  refine Option.isSome_iff_exists.mpr ⟨.transfer transferPort chain.transferChannel
    ⟨chain.voucherDenom, amount⟩ host.contract delegator timeout fee, ?_⟩
  simp only [depositTransfer?, Option.bind_eq_bind, Option.bind_eq_some_iff]
  exact ⟨transfer, transferRead, delegator, delegated, timeout, reached, rfl⟩

include isOpen

theorem accountMessages?_isSome : (accountMessages? host store chain op).isSome = true := by
  have delegates : chain.delegateAddress.isSome = true := isOpen .delegate op.delegate_needed
  have ⟨delegator, delegated⟩ := Option.isSome_iff_exists.mp delegates
  cases op with
  | transferDeposit id epoch amount => rfl
  | delegate id epoch shares => exact Chain.stakeMessages?_isSome delegates _ shares
  | undelegate id epoch shares => exact Chain.stakeMessages?_isSome delegates _ shares
  | withdrawUnbonded id epoch amount =>
      rw [accountMessages?, Option.isSome_map]
      exact returnMessage?_isSome can delegates amount
  | withdrawRewards id validators => exact Chain.rewardMessages?_isSome delegates validators
  | transferRewards id amount | setWithdrawAddress id =>
      have ⟨receiver, unbonds⟩ : ∃ receiver, chain.unbondAddress = some receiver :=
        Option.isSome_iff_exists.mp (isOpen .unbond (List.mem_cons_of_mem _ List.mem_cons_self))
      rw [accountMessages?, delegated, unbonds]
      rfl

theorem outbound?_isSome (fee : RelayerFee) :
    (outbound? host store fee chain op).isSome = true := by
  obtain ⟨execution, transfer, accountRead, -⟩ := can.timeouts
  obtain ⟨messages, written⟩ := Option.isSome_iff_exists.mp (accountMessages?_isSome can isOpen)
  cases op with
  | transferDeposit id epoch amount =>
      obtain ⟨message, written⟩ := Option.isSome_iff_exists.mp
        (depositTransfer?_isSome can (isOpen .delegate List.mem_cons_self) fee amount)
      simp only [outbound?, RemoteOp.account?, written, Option.bind_eq_bind, Option.bind_some,
        Option.pure_def, Option.isSome_some]
  | _ =>
      simp only [outbound?, RemoteOp.account?, written, accountRead, Option.bind_eq_bind,
        Option.bind_some, Option.pure_def, Option.isSome_some]

end Needs

theorem issue?_spec (holds : store.Holds b) (can : store.CanIssue host (count + 1))
    (fee : RelayerFee) (equipped : op.Equipped b) :
    ∃ submission store', issue? host fee store op = some (submission, store') ∧
      store'.Holds b ∧ store'.CanIssue host count := by
  obtain ⟨chain, known, isOpen⟩ := holds.equips equipped
  obtain ⟨⟨port, message⟩, sent⟩ := Option.isSome_iff_exists.mp (outbound?_isSome can isOpen fee)
  obtain ⟨replyId, store', stashed, holds', can'⟩ := Store.stash_spec holds can port op
  refine ⟨⟨message, some replyId⟩, store', ?_, holds', can'⟩
  simp only [issue?, known, sent, stashed, Option.bind_eq_bind, Option.bind_some, Option.pure_def]

theorem issueAll?_spec {ops : List RemoteOp} (holds : store.Holds b)
    (can : store.CanIssue host ops.length) (fee : RelayerFee)
    (equipped : ∀ op ∈ ops, op.Equipped b) :
    ∃ submissions store', issueAll? host fee store ops = some (submissions, store') ∧
      store'.Holds b := by
  induction ops generalizing store with
  | nil => exact ⟨[], store, rfl, holds⟩
  | cons op ops ih =>
      obtain ⟨submission, next, issued, holds, can⟩ :=
        issue?_spec holds can fee (equipped op List.mem_cons_self)
      obtain ⟨submissions, last, rest, holds⟩ := ih holds can fun other later =>
        equipped other (List.mem_cons_of_mem _ later)
      refine ⟨submission :: submissions, last, ?_, holds⟩
      simp only [issueAll?, issued, rest, Option.bind_eq_bind, Option.bind_some, Option.pure_def]

theorem operations_effects (commands : List Command) (notices : List Notice) :
    operations (commands.filterMap Command.effect?) =
      Response.dispatched ⟨commands, notices⟩ := by
  rw [operations, Response.dispatched, List.filterMap_filterMap]
  congr 1
  funext command
  cases command <;> rfl

end Contract

/-! ## Runs -/

namespace HubState

/-- Storage that holds no books yet can be brought to hold those of any run. -/
theorem after_stored {steps : List Step} (typed : ∀ step ∈ steps, step.fits = true)
    (fresh : store.Holds .empty) :
    ∃ store', store'.Holds (after steps).books ∧ store.SameBeside store' := by
  induction steps using List.reverseRecOn with
  | nil => exact ⟨store, fresh, .refl store⟩
  | append_singleton steps step ih =>
      have earlier : ∀ step ∈ steps, step.fits = true := fun step member =>
        typed step (List.mem_append_left _ member)
      obtain ⟨before, holds, beside⟩ := ih earlier
      rw [after_append]
      cases occurs : (after steps).occurrence? step with
      | none => exact ⟨before, by rwa [(after steps).step_of_none occurs], beside⟩
      | some occurrence =>
          obtain ⟨cause, r⟩ := occurrence
          obtain ⟨recorded, -, holds, beside'⟩ := holds.applyAll
            (occurrence?_commands_fit (after_wellKept steps) (after_fits earlier)
              (typed step (by simp)) occurs)
          exact ⟨recorded, by rwa [(after steps).step_of_some occurs], beside.trans beside'⟩

/-- The hub always carries on: it has an answer to word of all that is outstanding,
whatever the word; and what a step starts can be issued once its commands are
recorded, as the chain is there and so is every account that is needed. -/
theorem always_carries_on {steps : List Step} (typed : ∀ step ∈ steps, step.fits = true) :
    (∀ op ∈ (after steps).outstanding, ∀ s outcome,
      ∃ r, Hub.resolve (after steps).books.view s op outcome = .ok r) ∧
    ∀ step r, step.fits = true → (after steps).answer? step = some (.ok r) →
      ∀ (store : Store) (host : Host) (fee : RelayerFee), store.Holds (after steps).books →
        store.CanIssue host r.dispatched.length →
        ∃ recorded effects submissions issued,
          store.applyAll r.commands = some (recorded, effects) ∧
          Contract.operations effects = r.dispatched ∧
          (∀ op ∈ r.dispatched, recorded.Equips op) ∧
          Contract.issueAll? host fee recorded r.dispatched = some (submissions, issued) ∧
          issued.Holds ((after steps).step step).books := by
  refine ⟨fun op member s outcome =>
    after_answers (fun step early => Step.sized_of_fits (typed step early)) member outcome, ?_⟩
  intro step r fits answered store host fee holds can
  have kept := after_wellKept steps
  obtain ⟨cause, occurs⟩ := answer?_occurs answered
  obtain ⟨recorded, applied, holds, beside⟩ := holds.applyAll
    (occurrence?_commands_fit kept (after_fits typed) fits occurs)
  have equipped : ∀ op ∈ r.dispatched, op.Equipped ((after steps).books.applyAll r.commands) :=
    fun op started => answer?_equipped kept answered started
  obtain ⟨submissions, issued, sent, holds'⟩ :=
    Contract.issueAll?_spec holds (can.beside beside) fee equipped
  refine ⟨recorded, _, submissions, issued, applied,
    Contract.operations_effects r.commands r.notices,
    fun op started => holds.equips (equipped op started), sent, ?_⟩
  rw [(after steps).step_of_some occurs]
  exact holds'

def sampleStore : Store := (Store.empty.setAccountTimeout 300).setTransferTimeout 600

def sampleHost : Host where
  contract := "hub"
  nanos := 1700000000000000000
  supply := fun _ => 0
  balance := fun _ => 0
  minFee := none
  registerFee := none
  addressFault := fun text => if text = "" then some .invalid else none

/-- A deposit is on its way; word comes that it has arrived, and the delegation that
is started then is issued. -/
theorem always_carries_on_sample :
    (∃ r, Hub.resolve (after (Step.sampleRun.take 5)).books.view (.sample 0 0)
      (.transferDeposit "cosmoshub" 1 1000) .timeout = .ok r) ∧
    ∃ r, (after (Step.sampleRun.take 5)).answer? (.acknowledge (.sample 1000 0) 0 (.success [])) =
        some (.ok r) ∧
      r.dispatched = [.delegate "cosmoshub" 1 [⟨"alice", 333⟩, ⟨"bob", 667⟩]] ∧
      ∃ store : Store, store.Holds (after (Step.sampleRun.take 5)).books ∧
        store.CanIssue sampleHost r.dispatched.length ∧
        ∃ recorded effects submissions issued,
          store.applyAll r.commands = some (recorded, effects) ∧
          Contract.issueAll? sampleHost ⟨[], [], []⟩ recorded r.dispatched =
            some (submissions, issued) := by
  have typed : ∀ step ∈ Step.sampleRun.take 5, step.fits = true := by decide +kernel
  have outstanding : (after (Step.sampleRun.take 5)).outstanding =
      [.transferDeposit "cosmoshub" 1 1000] := by decide +kernel
  obtain ⟨answers, issues⟩ := always_carries_on typed
  obtain ⟨r, answered, dispatched⟩ : ∃ r, (after (Step.sampleRun.take 5)).answer?
        (.acknowledge (.sample 1000 0) 0 (.success [])) = some (.ok r) ∧
      r.dispatched = [.delegate "cosmoshub" 1 [⟨"alice", 333⟩, ⟨"bob", 667⟩]] := by
    have told : ((after (Step.sampleRun.take 5)).answer?
          (.acknowledge (.sample 1000 0) 0 (.success []))).map
            (fun answer => answer.toOption.map Response.dispatched) =
        some (some [.delegate "cosmoshub" 1 [⟨"alice", 333⟩, ⟨"bob", 667⟩]]) := by decide +kernel
    obtain ⟨answer, answered, told⟩ := Option.map_eq_some_iff.mp told
    cases answer with
    | ok r => exact ⟨r, answered, Option.some.inj told⟩
    | error stop => cases told
  have fresh : sampleStore.Holds .empty :=
    (Store.holds_empty.put_beside .accountTimeout rfl _).put_beside .transferTimeout rfl _
  have set : sampleStore.CanIssue sampleHost 1 :=
    ⟨⟨300, 600, by decide +kernel, by decide +kernel, by decide +kernel⟩,
      none, by decide +kernel, by decide⟩
  obtain ⟨store, holds, beside⟩ := after_stored typed fresh
  have can : store.CanIssue sampleHost r.dispatched.length := by
    rw [dispatched]
    exact set.beside beside
  obtain ⟨recorded, effects, submissions, issued, applied, -, -, sent, -⟩ :=
    issues _ r rfl answered store sampleHost ⟨[], [], []⟩ holds can
  exact ⟨answers _ (by rw [outstanding]; exact List.mem_cons_self) _ _, r, answered, dispatched,
    store, holds, can, recorded, effects, submissions, issued, applied, sent⟩

end HubState

end LiquidStaking
