import LiquidStaking.Contract.Dispatch
import LiquidStaking.Proofs.Changes
import LiquidStaking.Proofs.Json.Operations
import LiquidStaking.Proofs.Wire.Contents

/-!
# Instructions to accounts

An interchain transaction tells an account what to do, message by message.  Each message is of
the type of its instruction, and its fields hold what the instruction is about, so the message
tells the instruction.  A change of stake is one instruction for every share of something, in
the order of the shares, each right after a withdrawal of the rewards that it would pay out.
What an operation that is about something is written as moves something, and as much as the
operation says.
-/

namespace LiquidStaking

theorem Allocation.sum_eq_zero {shares : Allocation} (none : ∀ share ∈ shares, share.amount = 0) :
    sum shares = 0 := by
  induction shares with
  | nil => rfl
  | cons share shares ih =>
      rw [sum_cons, none share List.mem_cons_self, Nat.zero_add]
      exact ih fun other later => none other (List.mem_cons_of_mem _ later)

/-! ## Instructions -/

inductive Instruction where
  | delegate (delegator validator : Address) (amount : Amount) (denom : Denom)
  | undelegate (delegator validator : Address) (amount : Amount) (denom : Denom)
  | withdrawReward (delegator validator : Address)
  | setWithdrawAddress (delegator receiver : Address)
  | send (sender receiver : Address) (amount : Amount) (denom : Denom)
  | transfer (port channel : String) (amount : Amount) (denom : Denom)
      (sender receiver : Address) (timeout : Nat)
  deriving DecidableEq, Repr

namespace Instruction

def typeUrl : Instruction → String
  | .delegate .. => "/cosmos.staking.v1beta1.MsgDelegate"
  | .undelegate .. => "/cosmos.staking.v1beta1.MsgUndelegate"
  | .withdrawReward .. => "/cosmos.distribution.v1beta1.MsgWithdrawDelegatorReward"
  | .setWithdrawAddress .. => "/cosmos.distribution.v1beta1.MsgSetWithdrawAddress"
  | .send .. => "/cosmos.bank.v1beta1.MsgSend"
  | .transfer .. => "/ibc.applications.transfer.v1.MsgTransfer"

/-- The fields of the message.  A transfer has no timeout height, which would be the sixth. -/
def entries : Instruction → List (Nat × Wire.Content)
  | .delegate delegator validator amount denom | .undelegate delegator validator amount denom =>
      [(1, .text delegator), (2, .text validator), (3, .coin amount denom)]
  | .withdrawReward delegator validator => [(1, .text delegator), (2, .text validator)]
  | .setWithdrawAddress delegator receiver => [(1, .text delegator), (2, .text receiver)]
  | .send sender receiver amount denom =>
      [(1, .text sender), (2, .text receiver), (3, .coin amount denom)]
  | .transfer port channel amount denom sender receiver timeout =>
      [(1, .text port), (2, .text channel), (3, .coin amount denom), (4, .text sender),
        (5, .text receiver), (7, .number timeout)]

def contents (instruction : Instruction) : Wire.Contents where
  entries := instruction.entries
  distinct := by cases instruction <;> simp [entries]
  numbered := by cases instruction <;> simp [entries, Wire.Numbered, Width.limit]

def Storable (instruction : Instruction) : Prop :=
  ∀ entry ∈ instruction.entries, entry.2.Storable

instance (instruction : Instruction) : Decidable instruction.Storable :=
  inferInstanceAs (Decidable (∀ entry ∈ instruction.entries, entry.2.Storable))

/-- The envelope holds the message of the instruction. -/
structure Tells (instruction : Instruction) (envelope : Wire.Envelope) : Prop where
  typeUrl : envelope.typeUrl = instruction.typeUrl
  value : instruction.Storable →
    Wire.Encodes Wire.maxDepth Wire.Contents.Stated instruction.contents envelope.value

theorem alike_of_typeUrl {instruction other : Instruction}
    (same : instruction.typeUrl = other.typeUrl) :
    instruction.contents.Alike other.contents := by
  cases instruction <;> cases other <;> simp [typeUrl] at same <;>
    simp [Wire.Contents.Alike, contents, entries, Wire.Content.Alike]

/-- A message tells one instruction. -/
theorem Tells.unique {instruction other : Instruction} {envelope : Wire.Envelope}
    (tells : instruction.Tells envelope) (again : other.Tells envelope)
    (storable : instruction.Storable) (storable' : other.Storable) : instruction = other := by
  have types := tells.typeUrl.symm.trans again.typeUrl
  have same : instruction.contents = other.contents :=
    Wire.Contents.unique (alike_of_typeUrl types) (tells.value storable) (again.value storable')
  have entries : instruction.entries = other.entries := congrArg Wire.Contents.entries same
  cases instruction <;> cases other <;> simp [Instruction.typeUrl] at types <;>
    simpa [Instruction.entries, and_assoc] using entries

def envelope : Instruction → Wire.Envelope
  | .delegate delegator validator amount denom => Wire.delegate delegator validator amount denom
  | .undelegate delegator validator amount denom =>
      Wire.undelegate delegator validator amount denom
  | .withdrawReward delegator validator => Wire.withdrawReward delegator validator
  | .setWithdrawAddress delegator receiver => Wire.setWithdrawAddress delegator receiver
  | .send sender receiver amount denom => Wire.send sender receiver amount denom
  | .transfer port channel amount denom sender receiver timeout =>
      Wire.transfer port channel amount denom sender receiver timeout

def Fits : Instruction → Prop
  | .delegate _ _ amount _ | .undelegate _ _ amount _ | .send _ _ amount _ =>
      amount < Width.limit 128
  | .withdrawReward .. | .setWithdrawAddress .. => True
  | .transfer _ _ amount _ _ _ timeout => amount < Width.limit 128 ∧ timeout < Width.limit 64

theorem Fits.entries {instruction : Instruction} (fits : instruction.Fits) :
    ∀ entry ∈ instruction.entries, entry.2.Fits := by
  cases instruction <;> simp [Instruction.entries, Wire.Content.Fits] <;> exact fits

theorem value_envelope (instruction : Instruction) :
    instruction.envelope.value = instruction.contents.put := by
  cases instruction <;>
    simp [envelope, Wire.delegate, Wire.undelegate, Wire.withdrawReward, Wire.setWithdrawAddress,
      Wire.send, Wire.transfer, Wire.Contents.put, contents, entries, Wire.Content.put]

theorem tells_envelope {instruction : Instruction} (fits : instruction.Fits) :
    instruction.Tells instruction.envelope where
  typeUrl := by cases instruction <;> rfl
  value storable := by
    rw [value_envelope]
    exact Wire.Contents.encodes_put storable fits.entries

theorem tells_envelopes {instructions : List Instruction}
    (fits : ∀ instruction ∈ instructions, instruction.Fits) :
    List.Forall₂ Tells instructions (instructions.map envelope) := by
  rw [List.forall₂_map_right_iff, List.forall₂_same]
  exact fun instruction member => tells_envelope (fits instruction member)

def amount? : Instruction → Option Amount
  | .delegate _ _ amount _ => some amount
  | .undelegate _ _ amount _ => some amount
  | .send _ _ amount _ => some amount
  | .transfer _ _ amount _ _ _ _ => some amount
  | .withdrawReward .. => none
  | .setWithdrawAddress .. => none

def total (instructions : List Instruction) : Amount :=
  Width.total (instructions.filterMap amount?)

end Instruction

variable {chain : Chain} {delegator : Address} {shares : Allocation}
  {instructions : List Instruction} {op : RemoteOp}

/-! ## Changes of stake -/

namespace Chain

def Rewards (chain : Chain) (validator : Address) : Prop :=
  chain.withdrawAddressSet = true ∧
    ∃ v ∈ chain.validators, v.address = validator ∧ 0 < v.delegated

theorem paysRewards_iff {validator : Address} :
    chain.paysRewards validator = true ↔ chain.Rewards validator := by
  simp [paysRewards, Rewards]

inductive Stakes (chain : Chain) (delegator : Address) (change : Address → Amount → Instruction) :
    Allocation → List Instruction → Prop
  | done : Stakes chain delegator change [] []
  | skipped {share : Share} {shares : Allocation} {instructions : List Instruction}
      (nothing : share.amount = 0) (rest : Stakes chain delegator change shares instructions) :
      Stakes chain delegator change (share :: shares) instructions
  | changed {share : Share} {shares : Allocation} {instructions : List Instruction}
      (something : share.amount ≠ 0) (unpaid : ¬chain.Rewards share.validator)
      (rest : Stakes chain delegator change shares instructions) :
      Stakes chain delegator change (share :: shares)
        (change share.validator share.amount :: instructions)
  | rewarded {share : Share} {shares : Allocation} {instructions : List Instruction}
      (something : share.amount ≠ 0) (pays : chain.Rewards share.validator)
      (rest : Stakes chain delegator change shares instructions) :
      Stakes chain delegator change (share :: shares)
        (.withdrawReward delegator share.validator ::
          change share.validator share.amount :: instructions)

namespace Stakes

variable {change : Address → Amount → Instruction}
  (moves : ∀ validator amount, (change validator amount).amount? = some amount)
  (stakes : chain.Stakes delegator change shares instructions)

include moves stakes

theorem total : Instruction.total instructions = Allocation.sum shares := by
  simp only [Instruction.total]
  induction stakes with
  | done => rfl
  | skipped nothing rest ih => rw [ih, Allocation.sum_cons, nothing, Nat.zero_add]
  | changed something unpaid rest ih =>
      rw [List.filterMap_cons_some (moves _ _), Width.total_cons, ih, Allocation.sum_cons]
  | rewarded something pays rest ih =>
      rw [List.filterMap_cons_none rfl, List.filterMap_cons_some (moves _ _), Width.total_cons, ih,
        Allocation.sum_cons]

theorem moving : ∀ instruction ∈ instructions, instruction.amount? ≠ some 0 := by
  induction stakes with
  | done => nofun
  | skipped nothing rest ih => exact ih
  | changed something unpaid rest ih =>
      exact List.forall_mem_cons.mpr ⟨by simpa [moves] using something, ih⟩
  | rewarded something pays rest ih =>
      exact List.forall_mem_cons.mpr ⟨nofun,
        List.forall_mem_cons.mpr ⟨by simpa [moves] using something, ih⟩⟩

theorem present (something : Allocation.sum shares ≠ 0) : instructions ≠ [] := by
  rintro rfl
  exact something (stakes.total moves).symm

omit moves

theorem fits (sized : ∀ share ∈ shares, share.Fits)
    (each : ∀ validator amount, amount < Width.limit 128 → (change validator amount).Fits) :
    ∀ instruction ∈ instructions, instruction.Fits := by
  induction stakes with
  | done => nofun
  | skipped nothing rest ih => exact ih (List.forall_mem_cons.mp sized).2
  | changed something unpaid rest ih =>
      obtain ⟨own, later⟩ := List.forall_mem_cons.mp sized
      exact List.forall_mem_cons.mpr ⟨each _ _ own, ih later⟩
  | rewarded something pays rest ih =>
      obtain ⟨own, later⟩ := List.forall_mem_cons.mp sized
      exact List.forall_mem_cons.mpr ⟨trivial, List.forall_mem_cons.mpr ⟨each _ _ own, ih later⟩⟩

end Stakes

def shareMessages (chain : Chain) (delegator : Address)
    (change : Address → Address → Amount → Denom → Wire.Envelope) (share : Share) :
    List Wire.Envelope :=
  if chain.paysRewards share.validator then
    [Wire.withdrawReward delegator share.validator,
      change delegator share.validator share.amount chain.nativeDenom]
  else [change delegator share.validator share.amount chain.nativeDenom]

section Writing

variable (isOpen : chain.delegateAddress = some delegator)

include isOpen

theorem stakeMessages?_eq (change : Address → Address → Amount → Denom → Wire.Envelope)
    (shares : Allocation) : chain.stakeMessages? change shares =
      some ((shares.filter fun share => 0 < share.amount).flatMap
        (chain.shareMessages delegator change)) := by
  have written (share : Share) : (if chain.paysRewards share.validator then
      some [Wire.withdrawReward delegator share.validator,
        change delegator share.validator share.amount chain.nativeDenom]
      else some [change delegator share.validator share.amount chain.nativeDenom]) =
        some (chain.shareMessages delegator change share) := by
    rw [shareMessages]
    split <;> rfl
  simp only [stakeMessages?, isOpen, Option.bind_eq_bind, Option.bind_some, Option.pure_def,
    written, mapM_eq_map fun _ _ => rfl, List.flatMap_def]

theorem stakeMessages?_stakes {change : Address → Address → Amount → Denom → Wire.Envelope}
    {stake : Address → Amount → Instruction}
    (writes : ∀ validator amount, (stake validator amount).envelope =
      change delegator validator amount chain.nativeDenom) (shares : Allocation) :
    ∃ instructions, chain.Stakes delegator stake shares instructions ∧
      chain.stakeMessages? change shares = some (instructions.map Instruction.envelope) := by
  rw [stakeMessages?_eq isOpen]
  induction shares with
  | nil => exact ⟨[], .done, rfl⟩
  | cons share shares ih =>
      obtain ⟨instructions, stakes, written⟩ := ih
      have written := Option.some.inj written
      by_cases nothing : share.amount = 0
      · refine ⟨instructions, .skipped nothing stakes, ?_⟩
        rw [List.filter_cons_of_neg (by simp [nothing]), written]
      have something : 0 < share.amount := Nat.pos_of_ne_zero nothing
      rw [List.filter_cons_of_pos (by simpa using something), List.flatMap_cons, written]
      by_cases pays : chain.Rewards share.validator
      · refine ⟨_, .rewarded nothing pays stakes, ?_⟩
        rw [shareMessages, if_pos (paysRewards_iff.mpr pays), List.map_cons, List.map_cons, writes]
        rfl
      · refine ⟨_, .changed nothing pays stakes, ?_⟩
        rw [shareMessages, if_neg (mt paysRewards_iff.mp pays), List.map_cons, writes]
        rfl

theorem rewardMessages?_eq (validators : List Address) : chain.rewardMessages? validators =
    some ((validators.map fun validator => Instruction.withdrawReward delegator validator).map
      Instruction.envelope) := by
  rw [List.map_map]
  refine mapM_eq_map fun validator _ => ?_
  rw [isOpen]
  rfl

end Writing

end Chain

/-! ## Operations -/

namespace RemoteOp

def Gainful : RemoteOp → Prop
  | .withdrawRewards _ validators => validators ≠ []
  | .transferRewards _ amount => amount ≠ 0
  | _ => True

end RemoteOp

namespace Chain

inductive Instructs (chain : Chain) : RemoteOp → ControlAccount → List Instruction → Prop
  | delegate {id : ChainId} {epoch : Epoch} {shares : Allocation} {delegator : Address}
      {instructions : List Instruction} (isOpen : chain.delegateAddress = some delegator)
      (stakes : chain.Stakes delegator
        (fun validator amount => .delegate delegator validator amount chain.nativeDenom)
        shares instructions) :
      Instructs chain (.delegate id epoch shares) .delegate instructions
  | undelegate {id : ChainId} {epoch : Epoch} {shares : Allocation} {delegator : Address}
      {instructions : List Instruction} (isOpen : chain.delegateAddress = some delegator)
      (stakes : chain.Stakes delegator
        (fun validator amount => .undelegate delegator validator amount chain.nativeDenom)
        shares instructions) :
      Instructs chain (.undelegate id epoch shares) .delegate instructions
  | withdrawUnbonded {id : ChainId} {epoch : Epoch} {amount : Amount} {delegator : Address}
      {timeout : Nat} (isOpen : chain.delegateAddress = some delegator) :
      Instructs chain (.withdrawUnbonded id epoch amount) .delegate
        [.transfer transferPort chain.remoteTransferChannel amount chain.nativeDenom delegator
          chain.escrow timeout]
  | withdrawRewards {id : ChainId} {validators : List Address} {delegator : Address}
      (isOpen : chain.delegateAddress = some delegator) :
      Instructs chain (.withdrawRewards id validators) .delegate
        (validators.map fun validator => .withdrawReward delegator validator)
  | transferRewards {id : ChainId} {amount : Amount} {sender receiver : Address}
      (unbonds : chain.unbondAddress = some sender)
      (delegates : chain.delegateAddress = some receiver) :
      Instructs chain (.transferRewards id amount) .unbond
        [.send sender receiver amount chain.nativeDenom]
  | setWithdrawAddress {id : ChainId} {delegator receiver : Address}
      (delegates : chain.delegateAddress = some delegator)
      (unbonds : chain.unbondAddress = some receiver) :
      Instructs chain (.setWithdrawAddress id) .delegate
        [.setWithdrawAddress delegator receiver]

/-- The message carries the operation out, and moves this much: it is a transfer of the hub's
own to the delegate account, or an interchain transaction whose messages tell an account its
instructions, neither without anything to do nor with an instruction about nothing. -/
inductive Sends (chain : Chain) (hub : Address) : RemoteOp → Message → Amount → Prop
  | transferred {id : ChainId} {epoch : Epoch} {amount : Amount} {receiver : Address}
      {timeout : Nat} {fee : RelayerFee} (isOpen : chain.delegateAddress = some receiver)
      (something : amount ≠ 0) :
      Sends chain hub (.transferDeposit id epoch amount)
        (.transfer transferPort chain.transferChannel ⟨chain.voucherDenom, amount⟩ hub receiver
          timeout fee) amount
  | executed {op : RemoteOp} {account : ControlAccount} {instructions : List Instruction}
      {envelopes : List Wire.Envelope} {timeout : Seconds} {fee : RelayerFee}
      (instructs : chain.Instructs op account instructions)
      (told : List.Forall₂ Instruction.Tells instructions envelopes)
      (something : instructions ≠ [])
      (moving : ∀ instruction ∈ instructions, instruction.amount? ≠ some 0) :
      Sends chain hub op
        (.submit chain.connection (ControlPort.accountId chain.id account) envelopes timeout fee)
        (Instruction.total instructions)

end Chain

namespace Contract

variable {host : Host} {store : Store} {fee : RelayerFee}

theorem delegateAddress_of_stakes {change : Address → Address → Amount → Denom → Wire.Envelope}
    {messages : List Wire.Envelope} (something : Allocation.sum shares ≠ 0)
    (written : chain.stakeMessages? change shares = some messages) :
    ∃ delegator, chain.delegateAddress = some delegator := by
  refine Option.ne_none_iff_exists'.mp fun isClosed => something (Allocation.sum_eq_zero ?_)
  intro share member
  by_contra nothing
  simp only [Chain.stakeMessages?, isClosed, Option.bind_eq_bind, Option.bind_none,
    Option.bind_eq_some_iff] at written
  obtain ⟨results, mapped, -⟩ := written
  have listed : share ∈ shares.filter fun share => 0 < share.amount :=
    List.mem_filter.mpr ⟨member, decide_eq_true (Nat.pos_of_ne_zero nothing)⟩
  cases remaining : shares.filter fun share => 0 < share.amount with
  | nil => simp [remaining] at listed
  | cons first rest =>
      rw [remaining, List.mapM_cons] at mapped
      cases mapped

theorem stakeMessages?_instructs
    {change : Address → Address → Amount → Denom → Wire.Envelope}
    {stake : Address → Address → Amount → Instruction} {messages : List Wire.Envelope}
    (writes : ∀ delegator validator amount, (stake delegator validator amount).envelope =
      change delegator validator amount chain.nativeDenom)
    (moves : ∀ delegator validator amount, (stake delegator validator amount).amount? = some amount)
    (keeps : ∀ delegator validator amount, amount < Width.limit 128 →
      (stake delegator validator amount).Fits)
    (something : Allocation.sum shares ≠ 0) (sized : ∀ share ∈ shares, share.Fits)
    (written : chain.stakeMessages? change shares = some messages) :
    ∃ delegator instructions, chain.delegateAddress = some delegator ∧
      chain.Stakes delegator (stake delegator) shares instructions ∧
      List.Forall₂ Instruction.Tells instructions messages ∧ instructions ≠ [] ∧
      ∀ instruction ∈ instructions, instruction.amount? ≠ some 0 := by
  obtain ⟨delegator, isOpen⟩ := delegateAddress_of_stakes something written
  obtain ⟨instructions, stakes, same⟩ :=
    Chain.stakeMessages?_stakes isOpen (writes delegator) shares
  obtain rfl := Option.some.inj (written.symm.trans same)
  exact ⟨delegator, instructions, isOpen, stakes,
    Instruction.tells_envelopes (stakes.fits sized (keeps delegator)),
    stakes.present (moves delegator) something,
    stakes.moving (moves delegator)⟩

theorem accountMessages?_instructs {account : ControlAccount} {messages : List Wire.Envelope}
    (fits : op.Fits) (laden : op.Laden) (gainful : op.Gainful)
    (carried : op.account? = some account)
    (written : accountMessages? host store chain op = some messages) :
    ∃ instructions, chain.Instructs op account instructions ∧
      List.Forall₂ Instruction.Tells instructions messages ∧ instructions ≠ [] ∧
      ∀ instruction ∈ instructions, instruction.amount? ≠ some 0 := by
  have alone {instruction : Instruction} (keeps : instruction.Fits) :
      List.Forall₂ Instruction.Tells [instruction] [instruction.envelope] :=
    .cons (Instruction.tells_envelope keeps) .nil
  cases op with
  | transferDeposit id epoch amount => cases carried
  | delegate id epoch shares =>
      cases carried
      have writes (delegator validator : Address) (amount : Amount) :
          (Instruction.delegate delegator validator amount chain.nativeDenom).envelope =
            Wire.delegate delegator validator amount chain.nativeDenom := rfl
      obtain ⟨delegator, instructions, isOpen, stakes, rest⟩ :=
        stakeMessages?_instructs writes (fun _ _ _ => rfl) (fun _ _ _ fits => fits) laden fits.2
          written
      exact ⟨instructions, .delegate isOpen stakes, rest⟩
  | undelegate id epoch shares =>
      cases carried
      have writes (delegator validator : Address) (amount : Amount) :
          (Instruction.undelegate delegator validator amount chain.nativeDenom).envelope =
            Wire.undelegate delegator validator amount chain.nativeDenom := rfl
      obtain ⟨delegator, instructions, isOpen, stakes, rest⟩ :=
        stakeMessages?_instructs writes (fun _ _ _ => rfl) (fun _ _ _ fits => fits) laden fits.2
          written
      exact ⟨instructions, .undelegate isOpen stakes, rest⟩
  | withdrawUnbonded id epoch amount =>
      cases carried
      simp only [accountMessages?, returnMessage?, Host.later?, Width.add?, Option.map_eq_some_iff,
        Option.bind_eq_bind, Option.bind_eq_some_iff, Option.pure_def, Option.some.injEq,
        Width.narrow?_eq_some] at written
      obtain ⟨_, ⟨execution, -, transfer, -, delegator, isOpen, timeout, ⟨rfl, room⟩, rfl⟩, rfl⟩ :=
        written
      refine ⟨_, .withdrawUnbonded isOpen, alone ⟨fits.2, room⟩, List.cons_ne_nil _ _, ?_⟩
      exact List.forall_mem_singleton.mpr fun nothing => laden (Option.some.inj nothing)
  | withdrawRewards id validators =>
      cases carried
      -- With a validator to withdraw from, nothing is written for an account that is closed.
      obtain ⟨delegator, isOpen⟩ : ∃ delegator, chain.delegateAddress = some delegator := by
        refine Option.ne_none_iff_exists'.mp fun isClosed => ?_
        obtain ⟨first, rest, rfl⟩ := List.exists_cons_of_ne_nil gainful
        rw [accountMessages?, Chain.rewardMessages?, List.mapM_cons, isClosed] at written
        cases written
      rw [accountMessages?, Chain.rewardMessages?_eq isOpen, Option.some.injEq] at written
      subst written
      refine ⟨_, .withdrawRewards isOpen, Instruction.tells_envelopes ?_,
        mt List.map_eq_nil_iff.mp gainful, ?_⟩
      all_goals
        intro instruction member
        obtain ⟨validator, -, rfl⟩ := List.mem_map.mp member
      · trivial
      · exact nofun
  | transferRewards id amount =>
      cases carried
      simp only [accountMessages?, Option.bind_eq_bind, Option.bind_eq_some_iff, Option.pure_def,
        Option.some.injEq] at written
      obtain ⟨sender, unbonds, receiver, delegates, rfl⟩ := written
      refine ⟨_, .transferRewards unbonds delegates, alone fits, List.cons_ne_nil _ _, ?_⟩
      exact List.forall_mem_singleton.mpr fun nothing => gainful (Option.some.inj nothing)
  | setWithdrawAddress id =>
      cases carried
      simp only [accountMessages?, Option.bind_eq_bind, Option.bind_eq_some_iff, Option.pure_def,
        Option.some.injEq] at written
      obtain ⟨delegator, delegates, receiver, unbonds, rfl⟩ := written
      exact ⟨_, .setWithdrawAddress delegates unbonds, alone trivial, List.cons_ne_nil _ _,
        List.forall_mem_singleton.mpr nofun⟩

/-- What is sent for an operation that is about something carries it out. -/
theorem outbound?_sends {port : String} {message : Message} (fits : op.Fits) (laden : op.Laden)
    (gainful : op.Gainful)
    (sent : outbound? host store fee chain op = some (port, message)) :
    ∃ moved, chain.Sends host.contract op message moved := by
  cases carried : op.account? with
  | none =>
      cases op with
      | transferDeposit id epoch amount =>
          simp only [outbound?, RemoteOp.account?, depositTransfer?, Option.bind_eq_bind,
            Option.bind_eq_some_iff, Option.pure_def, Option.some.injEq, Prod.mk.injEq] at sent
          obtain ⟨_, ⟨_, -, receiver, isOpen, _, -, rfl⟩, rfl, rfl⟩ := sent
          exact ⟨amount, .transferred isOpen laden⟩
      | _ => cases carried
  | some account =>
      simp only [outbound?, carried, Option.bind_eq_bind, Option.bind_eq_some_iff, Option.pure_def,
        Option.some.injEq, Prod.mk.injEq] at sent
      obtain ⟨messages, written, timeout, -, -, rfl⟩ := sent
      obtain ⟨instructions, instructs, told, something, moving⟩ :=
        accountMessages?_instructs fits laden gainful carried written
      exact ⟨_, .executed instructs told something moving⟩

end Contract

end LiquidStaking
