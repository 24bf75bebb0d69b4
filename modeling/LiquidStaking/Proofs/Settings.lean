import LiquidStaking.Proofs.Succession

/-!
# Settings

Roles and the configuration are recorded when the contract is set up, can be read ever
after, and stay as they are whatever the contract is called for, unless it is asked to
change them.
-/

namespace LiquidStaking

variable {host : Host} {store store' : Store} {caller : Contract.Caller} {ended : Answer × Store}

/-! ## What is recorded beside them -/

namespace Store

namespace SameSettings

theorem refl (store : Store) : store.SameSettings store := fun _ _ => rfl

theorem trans {store'' : Store} (same : store.SameSettings store')
    (same' : store'.SameSettings store'') : store.SameSettings store'' :=
  fun key setting => (same' key setting).trans (same key setting)

end SameSettings

section Recording

variable {effect : Option Effect} {effects : List Effect}

theorem SameBeside.setDocument {α : Type} [Document α] (key : Key) (books : key.isBooks = true)
    (store : Store) (value : α) : store.SameBeside (store.setDocument key.render value) :=
  (agreeExcept_put key books store _).beside (by simp [books])

theorem updateIndex_beside {index : Key} (books : index.isBooks = true) {epoch : Epoch}
    {isOpen : Bool} (updated : store.updateIndex index epoch isOpen = some store') :
    store.SameBeside store' := by
  simp only [updateIndex, Option.bind_eq_bind, Option.bind_eq_some_iff, Option.pure_def] at updated
  obtain ⟨epochs, -, updated⟩ := updated
  split at updated <;> split at updated <;> cases updated
  all_goals first | exact .refl _ | exact .setDocument _ books _ _

theorem apply_beside {command : Command} (applied : store.apply command = some (store', effect)) :
    store.SameBeside store' := by
  cases command with
  | chain record =>
      simp only [apply, putChain, Option.bind_eq_bind, Option.pure_def, Option.map_eq_some_iff,
        Option.bind_eq_some_iff, Option.some.injEq, Prod.mk.injEq] at applied
      obtain ⟨_, ⟨ids, -, rfl⟩, rfl, -⟩ := applied
      refine SameBeside.trans ?_ (.setDocument (.chain record.id) rfl _ _)
      split
      · exact .refl _
      · exact .setDocument .chainIds rfl _ _
  | epoch kind number =>
      cases applied
      exact (agreeExcept_put (.epoch kind) rfl store _).beside rfl
  | deposit record =>
      simp only [apply, putDeposit, Option.bind_eq_bind, Option.pure_def, Option.map_eq_some_iff,
        Option.bind_eq_some_iff, Option.some.injEq, Prod.mk.injEq] at applied
      obtain ⟨_, ⟨indexed, updated, rfl⟩, rfl, -⟩ := applied
      exact (updateIndex_beside rfl updated).trans
        (.setDocument (.deposit record.chain record.epoch) rfl _ _)
  | redemption record =>
      simp only [apply, putRedemption, Option.bind_eq_bind, Option.pure_def,
        Option.map_eq_some_iff, Option.bind_eq_some_iff, Option.some.injEq,
        Prod.mk.injEq] at applied
      obtain ⟨_, ⟨indexed, updated, rfl⟩, rfl, -⟩ := applied
      exact (updateIndex_beside rfl updated).trans
        (.setDocument (.redemption record.chain record.epoch) rfl _ _)
  | claim record =>
      simp only [apply, putClaim, Option.bind_eq_bind, Option.pure_def, Option.map_eq_some_iff,
        Prod.mk.injEq] at applied
      obtain ⟨_, written, rfl, -⟩ := applied
      split at written
      · cases written
        exact .setDocument (.claim record.id) rfl _ _
      · simp only [Option.bind_eq_some_iff, Option.some.injEq] at written
        obtain ⟨ids, -, rfl⟩ := written
        exact (SameBeside.setDocument (.claimIds record.owner) rfl _ _).trans
          (.setDocument (.claim record.id) rfl _ _)
  | token order | dispatch op =>
      cases applied
      exact .refl _

theorem applyAll_beside {commands : List Command}
    (applied : store.applyAll commands = some (store', effects)) : store.SameBeside store' := by
  induction commands generalizing store effects with
  | nil =>
      cases applied
      exact .refl _
  | cons command commands ih =>
      simp only [applyAll, Option.bind_eq_bind, Option.pure_def, Option.bind_eq_some_iff,
        Option.some.injEq, Prod.mk.injEq] at applied
      obtain ⟨⟨next, effect⟩, first, ⟨last, others⟩, rest, rfl, -⟩ := applied
      exact (apply_beside first).trans (ih rest)

end Recording

end Store

/-! ## Carrying out -/

namespace Contract

open Store (SameSettings)

variable {commands : List Command} {begun : Answer} {fee : RelayerFee}

theorem issueAll?_settings {ops : List RemoteOp} {submissions : List Submission}
    (issued : issueAll? host fee store ops = some (submissions, store')) :
    store.SameSettings store' := by
  induction ops generalizing store submissions with
  | nil =>
      cases issued
      exact .refl _
  | cons op ops ih =>
      simp only [issueAll?, Option.bind_eq_bind, Option.bind_eq_some_iff, Option.pure_def,
        Option.some.injEq, Prod.mk.injEq] at issued
      obtain ⟨⟨submission, next⟩, first, ⟨others, last⟩, rest, -, rfl⟩ := issued
      obtain ⟨_, _, _, -, -, -, called⟩ := issue?_stashes first
      exact (SameSettings.of_called called).trans (ih rest)

theorem carryOut_settings (carried : carryOut host store commands begun = .ok ended) :
    store.SameSettings ended.2 := by
  obtain ⟨recorded, effects, fee, submissions, applied, issued, -⟩ := carryOut_issues carried
  exact (SameSettings.of_beside (Store.applyAll_beside applied)).trans (issueAll?_settings issued)

theorem carryOutPaid_settings {r : Response}
    (carried : carryOutPaid host caller store r begun = .ok ended) :
    store.SameSettings ended.2 := by
  obtain ⟨cost, paid, unpaid, last, -, -, -, whole, rfl⟩ := carryOutPaid_iff.mp carried
  have same := carryOut_settings whole
  exact same

/-! ## Calls -/

theorem resolves_settings {tells : Outcome → Prop} {found : Option RemoteOp}
    (resolves : Resolves host store tells ended found) : store.SameSettings ended.2 := by
  cases found with
  | none =>
      rw [resolves.1]
      exact .refl _
  | some op =>
      obtain ⟨outcome, response, attributes, -, -, carried⟩ := resolves
      exact carryOut_settings carried

/-- Whatever else the contract is called for, it leaves roles and configuration alone. -/
theorem Call.settings {call : Call} (other : call.isSetting = false)
    (done : call.answer host store = .ok ended) : store.SameSettings ended.2 := by
  cases Call.way done with
  | sets setting =>
      rw [setting] at other
      cases other
  | restores | ignored => exact .refl _
  | asks _ _ _ carried => exact carryOut_settings carried
  | pays _ _ _ carried => exact carryOutPaid_settings carried
  | registers called => exact .of_called called
  | tells _ _ called resolves =>
      exact (SameSettings.of_called called).trans (resolves_settings resolves)

end Contract

/-! ## Settled stores -/

namespace Store

def epochNameKeys : List Key := [.delegationEpoch, .undelegationEpoch]

def timeoutKeys : List Key := [.accountTimeout, .transferTimeout]

theorem name_ne_timeout : ∀ key ∈ timeoutKeys, ∀ name ∈ epochNameKeys,
    key.render ≠ name.render := by
  decide

theorem applyRole?_config {command : RoleCommand}
    (applied : store.applyRole? command = some store') :
    ∀ key ∈ configKeys, store'.get? key.render = store.get? key.render := by
  have put {role : Key} (isRole : role ∈ roleKeys) (value : Bytes) : ∀ key ∈ configKeys,
      (store.put role.render value).get? key.render = store.get? key.render :=
    fun key config => get?_put_of_ne (config_ne_role key config role isRole).symm value
  cases command with
  | setAdmin admin =>
      rw [setText?_eq_some applied]
      exact put (by decide : Key.admin ∈ roleKeys) _
  | setPendingAdmin nominee =>
      cases nominee with
      | none =>
          cases applied
          exact fun key config =>
            get?_remove_of_ne (config_ne_role key config .pendingAdmin (by decide)).symm
      | some nominee =>
          rw [setText?_eq_some applied]
          exact put (by decide : Key.pendingAdmin ∈ roleKeys) _
  | setKeeper keeper =>
      rw [setText?_eq_some applied]
      exact put (by decide : Key.keeper ∈ roleKeys) _

theorem applyRoles?_config {commands : List RoleCommand}
    (applied : store.applyRoles? commands = some store') :
    ∀ key ∈ configKeys, store'.get? key.render = store.get? key.render := by
  induction commands generalizing store with
  | nil =>
      cases applied
      exact fun _ _ => rfl
  | cons command commands ih =>
      simp only [applyRoles?, List.foldlM_cons, Option.bind_eq_bind,
        Option.bind_eq_some_iff] at applied
      obtain ⟨next, first, rest⟩ := applied
      exact fun key config => (ih rest key config).trans (applyRole?_config first key config)

def SameNames (store store' : Store) : Prop :=
  ∀ key ∈ epochNameKeys, store'.get? key.render = store.get? key.render

namespace SameNames

theorem trans {store'' : Store} (same : store.SameNames store')
    (same' : store'.SameNames store'') : store.SameNames store'' :=
  fun key name => (same' key name).trans (same key name)

theorem put (key : Key) (timeout : key ∈ timeoutKeys) (store : Store) (value : Bytes) :
    store.SameNames (store.put key.render value) :=
  fun name isName => get?_put_of_ne (name_ne_timeout key timeout name isName) value

section Names

variable (same : store.SameNames store')

include same

theorem delegationEpoch? : store'.delegationEpoch? = store.delegationEpoch? := by
  simp only [Store.delegationEpoch?, text?_of_get? (same .delegationEpoch (by decide))]

theorem undelegationEpoch? : store'.undelegationEpoch? = store.undelegationEpoch? := by
  simp only [Store.undelegationEpoch?, text?_of_get? (same .undelegationEpoch (by decide))]

theorem epochKind? (identifier : String) :
    store'.epochKind? identifier = store.epochKind? identifier := by
  simp only [Store.epochKind?, same.delegationEpoch?, same.undelegationEpoch?]

end Names

end SameNames

structure Settled (store : Store) : Prop where
  seats : ∃ seats, store.seats? = some seats
  names : ∃ delegation undelegation, store.delegationEpoch? = some delegation ∧
    store.undelegationEpoch? = some undelegation

namespace Settled

variable (settled : store.Settled)

include settled

theorem of_same (seats : ∃ seats, store'.seats? = some seats) (names : store.SameNames store') :
    store'.Settled where
  seats := seats
  names := by
    rw [names.delegationEpoch?, names.undelegationEpoch?]
    exact settled.names

theorem epochKind? (identifier : String) : ∃ kind, store.epochKind? identifier = some kind := by
  obtain ⟨delegation, undelegation, first, second⟩ := settled.names
  simp only [Store.epochKind?, first, second, Option.bind_eq_bind, Option.bind_some]
  split
  · exact ⟨_, rfl⟩
  · split <;> exact ⟨_, rfl⟩

end Settled

theorem SameSettings.roles (same : store.SameSettings store') : store.SameRoles store' :=
  fun key role => same key ((by decide : ∀ key ∈ roleKeys, key.isSetting = true) key role)

theorem SameSettings.names (same : store.SameSettings store') : store.SameNames store' :=
  fun key name => same key ((by decide : ∀ key ∈ epochNameKeys, key.isSetting = true) key name)

end Store

namespace Contract

theorem setUp_settled {sender : Address} {setup : Setup}
    (done : setUp host sender .empty setup = .ok ended) : ended.2.Settled where
  seats := ⟨_, setUp_seats done⟩
  names := by
    simp only [setUp, recordConfig?, Attempt.bind_eq_ok, Attempt.promised_eq_ok,
      Option.bind_eq_bind, Option.bind_eq_some_iff, Option.pure_def, Option.some.injEq] at done
    obtain ⟨-, -, created, -, kept, -, _, ⟨first, delegation, second, undelegation, rfl⟩, done⟩ :=
      done
    obtain rfl := Attempt.pure_eq_ok.mp done
    have timeouts : second.SameNames ((second.setAccountTimeout setup.config.accountTimeout)
        |>.setTransferTimeout setup.config.transferTimeout) :=
      (Store.SameNames.put .accountTimeout (by decide) second _).trans
        (.put .transferTimeout (by decide) _ _)
    refine ⟨setup.config.delegationEpoch, setup.config.undelegationEpoch, ?_, ?_⟩
    · rw [Store.delegationEpoch?, Store.text?_of_get? (timeouts .delegationEpoch (by decide)),
        Store.text?_setText?_of_ne undelegation (by decide), Store.text?_setText? delegation]
      rfl
    · rw [Store.undelegationEpoch?, Store.text?_of_get? (timeouts .undelegationEpoch (by decide)),
        Store.text?_setText? undelegation]
      rfl

theorem changeRoles_settled (settled : store.Settled) {request : RoleRequest}
    (done : changeRoles host caller store request = .ok ended) : ended.2.Settled := by
  obtain ⟨seats, seated⟩ := settled.seats
  obtain ⟨after, moved, -⟩ := changeRoles_step seated done
  simp only [changeRoles, Attempt.bind_eq_ok, Attempt.promised_eq_ok] at done
  obtain ⟨commands, -, next, applied, done⟩ := done
  obtain rfl := Attempt.pure_eq_ok.mp done
  exact settled.of_same ⟨after, moved⟩ fun key name =>
    Store.applyRoles?_config applied key (List.mem_append_left Store.timeoutKeys name)

theorem updateConfig_settled (settled : store.Settled)
    {accountTimeout transferTimeout : Option Seconds}
    (done : updateConfig caller store accountTimeout transferTimeout = .ok ended) :
    ended.2.Settled := by
  simp only [updateConfig, Attempt.bind_eq_ok] at done
  obtain ⟨-, -, -, -, -, -, done⟩ := done
  obtain rfl := Attempt.pure_eq_ok.mp done
  have written {store : Store} (settled : store.Settled) (key : Key)
      (timeout : key ∈ Store.timeoutKeys) (value : Bytes) :
      (store.put key.render value).Settled := by
    obtain ⟨seats, seated⟩ := settled.seats
    have config : key ∈ Store.configKeys := List.mem_append_right Store.epochNameKeys timeout
    exact settled.of_same ⟨seats, (Store.SameRoles.put config store value).seats?.trans seated⟩
      (.put key timeout store value)
  have account : (accountTimeout.elim store store.setAccountTimeout).Settled := by
    cases accountTimeout with
    | none => exact settled
    | some seconds => exact written settled .accountTimeout (by decide) _
  cases transferTimeout with
  | none => exact account
  | some seconds => exact written account .transferTimeout (by decide) _

theorem Call.settled {call : Call} (settled : store.Settled)
    (done : call.answer host store = .ok ended) : ended.2.Settled := by
  obtain ⟨seats, seated⟩ := settled.seats
  have others (other : call.isSetting = false) : ended.2.Settled :=
    have same := call.settings other done
    settled.of_same ⟨seats, same.roles.seats?.trans seated⟩ same.names
  cases call with
  | execute caller request =>
      cases request with
      | role => exact changeRoles_settled settled done
      | updateConfig => exact updateConfig_settled settled done
      | _ => exact others rfl
  | _ => exact others rfl

end Contract

/-! ## Timed stores -/

namespace Store

def Timed (store : Store) : Prop :=
  ∃ account transfer, store.accountTimeout? = some account ∧
    store.transferTimeout? = some transfer

theorem number?_of_setNumber (store : Store) (key : String) (n : Nat) :
    ∃ found, (store.setNumber key n).number? key = some (some found) := by
  refine ⟨Bytes.ofBigEndian (Bytes.bigEndian 8 n), ?_⟩
  simp only [number?, read?, setNumber, get?_put, if_true, Bytes.toNumber?,
    if_pos (Bytes.length_bigEndian 8 n), Option.map_some]

theorem accountTimeout?_set (store : Store) (seconds : Seconds) :
    ∃ found, (store.setAccountTimeout seconds).accountTimeout? = some found := by
  obtain ⟨found, read⟩ := store.number?_of_setNumber Key.accountTimeout.render seconds
  exact ⟨found, by rw [accountTimeout?, setAccountTimeout, read]; rfl⟩

theorem transferTimeout?_set (store : Store) (seconds : Seconds) :
    ∃ found, (store.setTransferTimeout seconds).transferTimeout? = some found := by
  obtain ⟨found, read⟩ := store.number?_of_setNumber Key.transferTimeout.render seconds
  exact ⟨found, by rw [transferTimeout?, setTransferTimeout, read]; rfl⟩

theorem accountTimeout?_setTransferTimeout (store : Store) (seconds : Seconds) :
    (store.setTransferTimeout seconds).accountTimeout? = store.accountTimeout? := by
  have differ : Key.transferTimeout.render ≠ Key.accountTimeout.render := by decide
  rw [accountTimeout?, setTransferTimeout, setNumber,
    number?_of_get? (get?_put_of_ne differ _), accountTimeout?]

theorem transferTimeout?_setAccountTimeout (store : Store) (seconds : Seconds) :
    (store.setAccountTimeout seconds).transferTimeout? = store.transferTimeout? := by
  have differ : Key.accountTimeout.render ≠ Key.transferTimeout.render := by decide
  rw [transferTimeout?, setAccountTimeout, setNumber,
    number?_of_get? (get?_put_of_ne differ _), transferTimeout?]

namespace Timed

theorem of_same (timed : store.Timed)
    (same : ∀ key ∈ timeoutKeys, store'.get? key.render = store.get? key.render) :
    store'.Timed := by
  simpa only [Timed, accountTimeout?, transferTimeout?,
    number?_of_get? (same .accountTimeout (by decide)),
    number?_of_get? (same .transferTimeout (by decide))] using timed

theorem of_set (store : Store) (account transfer : Seconds) :
    ((store.setAccountTimeout account).setTransferTimeout transfer).Timed := by
  obtain ⟨execution, first⟩ := store.accountTimeout?_set account
  obtain ⟨last, second⟩ := (store.setAccountTimeout account).transferTimeout?_set transfer
  exact ⟨execution, last, by rw [accountTimeout?_setTransferTimeout, first], second⟩

theorem setAccountTimeout (timed : store.Timed) (seconds : Seconds) :
    (store.setAccountTimeout seconds).Timed := by
  obtain ⟨-, transfer, -, second⟩ := timed
  obtain ⟨execution, first⟩ := store.accountTimeout?_set seconds
  exact ⟨execution, transfer, first, by rw [transferTimeout?_setAccountTimeout, second]⟩

theorem setTransferTimeout (timed : store.Timed) (seconds : Seconds) :
    (store.setTransferTimeout seconds).Timed := by
  obtain ⟨execution, -, first, -⟩ := timed
  obtain ⟨transfer, second⟩ := store.transferTimeout?_set seconds
  exact ⟨execution, transfer, by rw [accountTimeout?_setTransferTimeout, first], second⟩

end Timed

end Store

namespace Contract

theorem setUp_timed {sender : Address} {setup : Setup}
    (done : setUp host sender store setup = .ok ended) : ended.2.Timed := by
  simp only [setUp, recordConfig?, Attempt.bind_eq_ok, Attempt.promised_eq_ok,
    Option.bind_eq_bind, Option.bind_eq_some_iff, Option.pure_def, Option.some.injEq] at done
  obtain ⟨-, -, created, -, kept, -, _, ⟨first, -, second, -, rfl⟩, done⟩ := done
  obtain rfl := Attempt.pure_eq_ok.mp done
  exact .of_set second _ _

theorem updateConfig_timed (timed : store.Timed) {accountTimeout transferTimeout : Option Seconds}
    (done : updateConfig caller store accountTimeout transferTimeout = .ok ended) :
    ended.2.Timed := by
  simp only [updateConfig, Attempt.bind_eq_ok] at done
  obtain ⟨-, -, -, -, -, -, done⟩ := done
  obtain rfl := Attempt.pure_eq_ok.mp done
  have account : (accountTimeout.elim store store.setAccountTimeout).Timed := by
    cases accountTimeout with
    | none => exact timed
    | some seconds => exact timed.setAccountTimeout seconds
  cases transferTimeout with
  | none => exact account
  | some seconds => exact account.setTransferTimeout seconds

theorem changeRoles_timed (timed : store.Timed) {request : RoleRequest}
    (done : changeRoles host caller store request = .ok ended) : ended.2.Timed := by
  simp only [changeRoles, Attempt.bind_eq_ok, Attempt.promised_eq_ok] at done
  obtain ⟨commands, -, next, applied, done⟩ := done
  obtain rfl := Attempt.pure_eq_ok.mp done
  exact timed.of_same fun key timeout =>
    Store.applyRoles?_config applied key (List.mem_append_right Store.epochNameKeys timeout)

theorem Call.timed {call : Call} (timed : store.Timed)
    (done : call.answer host store = .ok ended) : ended.2.Timed := by
  have others (other : call.isSetting = false) : ended.2.Timed :=
    timed.of_same fun key timeout => Call.settings other done key
      ((by decide : ∀ key ∈ Store.timeoutKeys, key.isSetting = true) key timeout)
  cases call with
  | execute caller request =>
      cases request with
      | role => exact changeRoles_timed timed done
      | updateConfig => exact updateConfig_timed timed done
      | _ => exact others rfl
  | _ => exact others rfl

end Contract

end LiquidStaking
