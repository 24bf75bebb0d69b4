import LiquidStaking.Proofs.Json.Operations
import LiquidStaking.Proofs.Storage

/-!
# Operations under way are handed out once

What is stashed is at one place at a time: under the id of its reply, at the channel,
port and sequence that the reply named, or handed out.  A log of the calls and of what
they answered tells which, whatever the order of the calls, and storage says the same.
-/

namespace LiquidStaking

/-! ## Keys of the registry -/

namespace Key

def isRegistry : Key → Bool
  | .nextReplyId => true
  | .stashed _ => true
  | .registered .. => true
  | _ => false

def isSetting : Key → Bool
  | .creator => true
  | .admin => true
  | .pendingAdmin => true
  | .keeper => true
  | .delegationEpoch => true
  | .undelegationEpoch => true
  | .accountTimeout => true
  | .transferTimeout => true
  | _ => false

theorem sorted (key : Key) :
    key.isBooks = true ∨ key.isRegistry = true ∨ key.isSetting = true := by
  cases key <;> simp [isBooks, isRegistry, isSetting]

section Kinds

variable {key : Key}

theorem apart_of_books (books : key.isBooks = true) :
    key.isRegistry = false ∧ key.isSetting = false := by
  cases key <;> first | exact Bool.noConfusion books | exact ⟨rfl, rfl⟩

theorem apart_of_registry (registry : key.isRegistry = true) :
    key.isBooks = false ∧ key.isSetting = false := by
  cases key <;> first | exact Bool.noConfusion registry | exact ⟨rfl, rfl⟩

theorem apart_of_setting (setting : key.isSetting = true) :
    key.isBooks = false ∧ key.isRegistry = false := by
  cases key <;> first | exact Bool.noConfusion setting | exact ⟨rfl, rfl⟩

end Kinds

def registryFamilies : List String :=
  ["callback::next_reply_id", "callback::stashed", "callback::registered"]

def settingFamilies : List String :=
  ["access::creator", "access::admin", "access::pending_admin", "access::epoch_keeper",
    "staking_hub::delegation_epoch", "staking_hub::undelegation_epoch",
    "staking_hub::ica_timeout_seconds", "staking_hub::transfer_timeout_seconds"]

theorem registry_apart_from_settings : ∀ first ∈ registryFamilies, ∀ second ∈ settingFamilies,
    Apart first second := by
  decide

theorem render_ne_of_setting {key other : Key} (registry : key.isRegistry = true)
    (setting : other.isSetting = true) : key.render ≠ other.render := by
  refine render_ne_of_apart (registry_apart_from_settings _ ?_ _ ?_)
  · cases key <;> first | exact Bool.noConfusion registry | simp [family, registryFamilies]
  · cases other <;> first | exact Bool.noConfusion setting | simp [family, settingFamilies]

theorem render_ne_of_registry (key : Key) {other : Key} (registry : key.isRegistry = true)
    (elsewhere : other.isRegistry = false) : key.render ≠ other.render := by
  rcases other.sorted with books | inside | setting
  · exact render_ne_of_books books (apart_of_registry registry).1
  · exact Bool.noConfusion (inside.symm.trans elsewhere)
  · exact render_ne_of_setting registry setting

section Families

variable (id : Nat) (channel port : String) (sequence : Nat)

theorem nextReplyId_ne_stashed : Key.nextReplyId.render ≠ (Key.stashed id).render :=
  render_ne_of_apart (by decide : Apart "callback::next_reply_id" "callback::stashed")

theorem nextReplyId_ne_registered :
    Key.nextReplyId.render ≠ (Key.registered channel port sequence).render :=
  render_ne_of_apart (by decide : Apart "callback::next_reply_id" "callback::registered")

theorem stashed_ne_registered :
    (Key.stashed id).render ≠ (Key.registered channel port sequence).render :=
  render_ne_of_apart (by decide : Apart "callback::stashed" "callback::registered")

end Families

theorem stashed_injective {id other : Nat}
    (same : (Key.stashed id).render = (Key.stashed other).render) : id = other := by
  have texts := congrArg String.toList same
  rw [toList_render, toList_render] at texts
  exact Digits.ofNat_injective (closed_single (List.append_cancel_left texts))

theorem registered_injective {channel port channel' port' : String} {sequence sequence' : Nat}
    (plain : ':' ∉ channel.toList) (plain' : ':' ∉ channel'.toList)
    (same : (Key.registered channel port sequence).render =
      (Key.registered channel' port' sequence').render) :
    channel = channel' ∧ port = port' ∧ sequence = sequence' := by
  have texts := congrArg String.toList same
  rw [toList_render, toList_render] at texts
  have parts := List.append_cancel_left texts
  have apart (channel port : String) (n : Nat) : closed [channel, port, Digits.ofNat n] =
      ((channel.toList ++ ':' :: port.toList) ++ ':' :: Digits.render n) ++ [':'] := by
    simp [closed, Digits.ofNat]
  -- The port may hold colons, so the sequence is cut off at the last one and the channel at the
  -- first.
  simp only [components] at parts
  rw [apart, apart] at parts
  obtain ⟨place, numbers⟩ := split_at_last (colon_notMem_render sequence)
    (colon_notMem_render sequence') (List.append_cancel_right parts)
  obtain ⟨channels, ports⟩ := split_at_first plain plain' place
  exact ⟨String.toList_injective channels, String.toList_injective ports,
    Digits.ofNat_injective (congrArg String.ofList numbers)⟩

end Key

/-! ## Calls -/

inductive RegistryCall where
  | stash (port : String) (op : RemoteOp)
  | register (replyId : Nat) (channel : String) (sequence : Nat)
  | unstash (replyId : Nat)
  | take (channel port : String) (sequence : Nat)
  deriving DecidableEq

inductive RegistryAnswer where
  | issued (replyId : Nat)
  | found (op : Option RemoteOp)
  deriving DecidableEq

def RegistryAnswer.replyId? : RegistryAnswer → Option Nat
  | .issued replyId => some replyId
  | .found _ => none

def Store.call? (store : Store) : RegistryCall → Readable (RegistryAnswer × Store)
  | .stash port op => (store.stash port op).map (Prod.map .issued id)
  | .register replyId channel sequence =>
      (store.register replyId channel sequence).map (Prod.map .found id)
  | .unstash replyId => (store.unstash replyId).map (Prod.map .found id)
  | .take channel port sequence => (store.take channel port sequence).map (Prod.map .found id)

inductive Exit where
  | withdrawn
  | registered (channel : String) (sequence : Nat)
  deriving DecidableEq

def Exit.call (replyId : Nat) : Exit → RegistryCall
  | .withdrawn => .unstash replyId
  | .registered channel sequence => .register replyId channel sequence

namespace Exit

variable {id id' : Nat} {exit exit' : Exit} {channel port : String} {sequence : Nat}
  {op : RemoteOp}

@[simp] theorem call_inj : exit.call id = exit'.call id' ↔ id = id' ∧ exit = exit' := by
  cases exit <;> cases exit' <;> simp [call]

@[simp] theorem stash_ne_call : RegistryCall.stash port op ≠ exit.call id := by
  cases exit <;> nofun

@[simp] theorem call_ne_stash : exit.call id ≠ RegistryCall.stash port op := by
  cases exit <;> nofun

@[simp] theorem take_ne_call : RegistryCall.take channel port sequence ≠ exit.call id := by
  cases exit <;> nofun

@[simp] theorem call_ne_take : exit.call id ≠ RegistryCall.take channel port sequence := by
  cases exit <;> nofun

end Exit

def RegistryCall.Proper : RegistryCall → Prop
  | .stash _ op => op.Fits
  | .register _ channel _ => ':' ∉ channel.toList
  | .unstash _ => True
  | .take channel _ _ => ':' ∉ channel.toList

/-! ## Logs -/

abbrev CallLog := List (RegistryCall × RegistryAnswer)

namespace CallLog

def replyIds (log : CallLog) : List Nat := log.filterMap fun entry => entry.2.replyId?

def Issued (log : CallLog) (id : Nat) (port : String) (op : RemoteOp) : Prop :=
  (.stash port op, .issued id) ∈ log

def Left (log : CallLog) (id : Nat) (op : RemoteOp) (exit : Exit) : Prop :=
  (exit.call id, .found (some op)) ∈ log

def Taken (log : CallLog) (channel port : String) (sequence : Nat) (op : RemoteOp) : Prop :=
  (.take channel port sequence, .found (some op)) ∈ log

def Waits (log : CallLog) (id : Nat) (port : String) (op : RemoteOp) : Prop :=
  log.Issued id port op ∧ ∀ op' exit, ¬log.Left id op' exit

def Registered (log : CallLog) (channel port : String) (sequence : Nat) (op : RemoteOp) : Prop :=
  (∃ id, log.Issued id port op ∧ log.Left id op (.registered channel sequence)) ∧
    ∀ op', ¬log.Taken channel port sequence op'

def Apart (log : CallLog) : Prop :=
  ∀ id id' op op' port channel sequence, log.Issued id port op → log.Issued id' port op' →
    log.Left id op (.registered channel sequence) →
    log.Left id' op' (.registered channel sequence) → id = id'

variable {log : CallLog} {call : RegistryCall} {answer : RegistryAnswer} {id : Nat}
  {port channel : String} {sequence : Nat} {op : RemoteOp} {exit : Exit}

@[simp] theorem issued_concat : Issued (log ++ [(call, answer)]) id port op ↔
    log.Issued id port op ∨ (call = .stash port op ∧ answer = .issued id) := by
  simp [Issued, eq_comm]

@[simp] theorem left_concat : Left (log ++ [(call, answer)]) id op exit ↔
    log.Left id op exit ∨ (call = exit.call id ∧ answer = .found (some op)) := by
  simp [Left, eq_comm]

@[simp] theorem taken_concat : Taken (log ++ [(call, answer)]) channel port sequence op ↔
    log.Taken channel port sequence op ∨
      (call = .take channel port sequence ∧ answer = .found (some op)) := by
  simp [Taken, eq_comm]

@[simp] theorem replyIds_concat :
    replyIds (log ++ [(call, answer)]) = log.replyIds ++ answer.replyId?.toList := by
  cases answer <;> simp [replyIds, RegistryAnswer.replyId?]

theorem Issued.mem (issued : log.Issued id port op) : id ∈ log.replyIds :=
  List.mem_filterMap.mpr ⟨_, issued, rfl⟩

theorem Apart.before (apart : Apart (log ++ [(call, answer)])) : log.Apart :=
  fun id id' op op' port channel sequence issued issued' left left' =>
    apart id id' op op' port channel sequence (List.mem_append_left _ issued)
      (List.mem_append_left _ issued') (List.mem_append_left _ left) (List.mem_append_left _ left')

/-- Ids are given once, and what left the stash, or was taken, had been there. -/
structure Sound (log : CallLog) : Prop where
  distinct : log.replyIds.Nodup
  bounded : ∀ id ∈ log.replyIds, id ≤ log.replyIds.length
  issued : ∀ {id port op port' op'}, log.Issued id port op → log.Issued id port' op' →
    port = port' ∧ op = op'
  left : ∀ {id op exit}, log.Left id op exit → ∃ port, log.Issued id port op
  once : ∀ {id op op' exit exit'}, log.Left id op exit → log.Left id op' exit' → exit = exit'
  taken : ∀ {channel port sequence op}, log.Taken channel port sequence op →
    ∃ id, log.Issued id port op ∧ log.Left id op (.registered channel sequence)

namespace Sound

theorem next_fresh (sound : log.Sound) : log.replyIds.length + 1 ∉ log.replyIds :=
  fun given => absurd (sound.bounded _ given) (by lia)

theorem stash (sound : log.Sound) (port : String) (op : RemoteOp) :
    Sound (log ++ [(.stash port op, .issued (log.replyIds.length + 1))]) where
  distinct := by
    have apart : ∀ id ∈ log.replyIds, id ≠ log.replyIds.length + 1 := by
      rintro id given rfl
      exact sound.next_fresh given
    simpa [RegistryAnswer.replyId?, List.nodup_append, sound.distinct] using apart
  bounded id given := by
    simp only [replyIds_concat, RegistryAnswer.replyId?, Option.toList_some, List.mem_append,
      List.mem_singleton, List.length_append, List.length_singleton] at given ⊢
    rcases given with old | rfl
    · exact Nat.le_succ_of_le (sound.bounded id old)
    · exact Nat.le_refl _
  issued {id port op port' op'} first second := by
    simp only [issued_concat, RegistryCall.stash.injEq, RegistryAnswer.issued.injEq] at first second
    rcases first with first | ⟨⟨rfl, rfl⟩, rfl⟩ <;> rcases second with second | ⟨⟨rfl, rfl⟩, new⟩
    · exact sound.issued first second
    · exact absurd (new ▸ first.mem) sound.next_fresh
    · exact absurd second.mem sound.next_fresh
    · exact ⟨rfl, rfl⟩
  left {id op exit} left := by
    obtain ⟨port, issued⟩ := sound.left (by simpa using left)
    exact ⟨port, issued_concat.mpr (.inl issued)⟩
  once first second := sound.once (by simpa using first) (by simpa using second)
  taken {channel port sequence op} taken := by
    obtain ⟨id, issued, left⟩ := sound.taken (by simpa using taken)
    exact ⟨id, issued_concat.mpr (.inl issued), left_concat.mpr (.inl left)⟩

theorem leave (sound : log.Sound) (waits : log.Waits id port op) (exit : Exit) :
    Sound (log ++ [(exit.call id, .found (some op))]) where
  distinct := by simpa [RegistryAnswer.replyId?] using sound.distinct
  bounded := by simpa [RegistryAnswer.replyId?] using sound.bounded
  issued first second := sound.issued (by simpa using first) (by simpa using second)
  left {id' op' exit'} left := by
    simp only [issued_concat, left_concat, Exit.call_inj, RegistryAnswer.found.injEq,
      Option.some.injEq, Exit.call_ne_stash, false_and, or_false] at left ⊢
    rcases left with old | ⟨⟨rfl, -⟩, rfl⟩
    · exact sound.left old
    · exact ⟨port, waits.1⟩
  once {id' op' op'' exit' exit''} first second := by
    simp only [left_concat, Exit.call_inj] at first second
    rcases first with first | ⟨⟨rfl, same⟩, -⟩ <;> rcases second with second | ⟨⟨new, same'⟩, -⟩
    · exact sound.once first second
    · exact absurd (new ▸ first) (waits.2 _ _)
    · exact absurd second (waits.2 _ _)
    · exact same.symm.trans same'
  taken {channel' port' sequence' op'} taken := by
    obtain ⟨id', issued, left⟩ := sound.taken (by simpa using taken)
    exact ⟨id', issued_concat.mpr (.inl issued), left_concat.mpr (.inl left)⟩

/-- Whatever was taken had been registered there before, so nothing was taken yet where
something is registered that waited. -/
theorem untaken (sound : log.Sound) (waits : log.Waits id port op)
    (apart : Apart (log ++ [((Exit.registered channel sequence).call id, .found (some op))]))
    (op' : RemoteOp) : ¬log.Taken channel port sequence op' := by
  intro taken
  obtain ⟨id', issued, left⟩ := sound.taken taken
  have own : Left (log ++ [((Exit.registered channel sequence).call id, .found (some op))]) id op
      (.registered channel sequence) := by simp
  obtain rfl := apart _ _ _ _ _ _ _ (issued_concat.mpr (.inl waits.1))
    (issued_concat.mpr (.inl issued)) own (left_concat.mpr (.inl left))
  exact waits.2 _ _ left

theorem take (sound : log.Sound) (registered : log.Registered channel port sequence op) :
    Sound (log ++ [(.take channel port sequence, .found (some op))]) where
  distinct := by simpa [RegistryAnswer.replyId?] using sound.distinct
  bounded := by simpa [RegistryAnswer.replyId?] using sound.bounded
  issued first second := sound.issued (by simpa using first) (by simpa using second)
  left left := by simpa using sound.left (by simpa using left)
  once first second := sound.once (by simpa using first) (by simpa using second)
  taken {channel' port' sequence' op'} taken := by
    simp only [taken_concat, issued_concat, left_concat, RegistryCall.take.injEq,
      RegistryAnswer.found.injEq, Option.some.injEq, reduceCtorEq, Exit.take_ne_call, false_and,
      or_false] at taken ⊢
    rcases taken with old | ⟨⟨rfl, rfl, rfl⟩, rfl⟩
    · exact sound.taken old
    · exact registered.1

end Sound

end CallLog

/-! ## What storage keeps -/

namespace Store

variable {store store' : Store} {log : CallLog} {id : Nat} {port channel : String}
  {sequence : Nat} {op : RemoteOp}

/-- Storage keeps what waits and what is registered, and nothing else of the kind. -/
structure Keeps (store : Store) (log : CallLog) : Prop where
  sound : log.Sound
  next : ∃ next, store.number? Key.nextReplyId.render = some next ∧
    next.getD 1 = log.replyIds.length + 1
  stashed : ∀ id, ∃ found : Option Stashed, store.document? (Key.stashed id).render = some found ∧
    ∀ port op, found = some ⟨port, op⟩ ↔ log.Waits id port op
  registered : ∀ channel port sequence, ':' ∉ channel.toList →
    ∃ found, store.registered? channel port sequence = some found ∧
      ∀ op, found = some op ↔ log.Registered channel port sequence op

/-! ## Calls on storage -/

def leave (store : Store) (id : Nat) (stashed : Stashed) : Exit → Store
  | .withdrawn => store.remove (Key.stashed id).render
  | .registered channel sequence =>
      (store.remove (Key.stashed id).render).setDocument
        (Key.registered channel stashed.port sequence).render stashed.op

def restash (store : Store) (id : Nat) (port : String) (op : RemoteOp) : Store :=
  (store.setNumber Key.nextReplyId.render (id + 1)).setDocument (Key.stashed id).render
    (Stashed.mk port op)

theorem call?_stash {next : Option Nat} (read : store.number? Key.nextReplyId.render = some next) :
    store.call? (.stash port op) = if next.getD 1 + 1 < Width.limit 64 then
      some (.issued (next.getD 1), store.restash (next.getD 1) port op) else none := by
  simp only [call?, stash, read, Option.bind_eq_bind, Option.bind_some, Width.add?, Width.narrow?]
  split <;> rfl

theorem call?_exit {found : Option Stashed}
    (read : store.document? (Key.stashed id).render = some found) (exit : Exit) :
    store.call? (exit.call id) = some (.found (found.map Stashed.op),
      found.elim store fun stashed => store.leave id stashed exit) := by
  cases exit with
  | withdrawn =>
      simp only [call?, Exit.call, unstash, read, Option.bind_eq_bind, Option.bind_some]
      cases found <;> rfl
  | registered channel sequence =>
      simp only [call?, Exit.call, register, read, Option.bind_eq_bind, Option.bind_some]
      cases found <;> rfl

theorem call?_take {found : Option RemoteOp}
    (read : store.registered? channel port sequence = some found) :
    store.call? (.take channel port sequence) = some (.found found,
      found.elim store fun _ =>
        store.remove (Key.registered channel port sequence).render) := by
  simp only [call?, take, read, Option.bind_eq_bind, Option.bind_some]
  cases found <;> rfl

section Called

variable {answer : RegistryAnswer}

theorem stash_called (called : store.call? (.stash port op) = some (answer, store')) :
    ∃ id, answer = .issued id ∧ store' = store.restash id port op := by
  cases read : store.number? Key.nextReplyId.render with
  | none => simp [call?, stash, read] at called
  | some next =>
      rw [call?_stash read] at called
      split at called
      case isTrue => cases called; exact ⟨next.getD 1, rfl, rfl⟩
      case isFalse => cases called

theorem exit_called (exit : Exit) (called : store.call? (exit.call id) = some (answer, store')) :
    ∃ found : Option Stashed, store.document? (Key.stashed id).render = some found ∧
      answer = .found (found.map Stashed.op) ∧
      store' = found.elim store fun stashed => store.leave id stashed exit := by
  cases read : (store.document? (Key.stashed id).render : Readable (Option Stashed)) with
  | none => cases exit <;> simp [Exit.call, call?, unstash, register, read] at called
  | some found =>
      rw [call?_exit read] at called
      cases called
      exact ⟨found, rfl, rfl, rfl⟩

theorem take_called (called : store.call? (.take channel port sequence) = some (answer, store')) :
    ∃ found, store.registered? channel port sequence = some found ∧ answer = .found found ∧
      store' = found.elim store fun _ =>
        store.remove (Key.registered channel port sequence).render := by
  cases read : store.registered? channel port sequence with
  | none => simp [call?, take, read] at called
  | some found =>
      rw [call?_take read] at called
      cases called
      exact ⟨found, rfl, rfl, rfl⟩

end Called

section Restash

theorem get?_restash {key : String} (number : Key.nextReplyId.render ≠ key)
    (own : (Key.stashed id).render ≠ key) :
    (store.restash id port op).get? key = store.get? key :=
  (get?_put_of_ne own _).trans (get?_put_of_ne number _)

theorem number?_restash (fits : id + 1 < Width.limit 64) :
    (store.restash id port op).number? Key.nextReplyId.render = some (some (id + 1)) := by
  have same : (store.restash id port op).number? Key.nextReplyId.render =
      (store.setNumber Key.nextReplyId.render (id + 1)).number? Key.nextReplyId.render :=
    number?_of_get? (get?_put_of_ne (Key.nextReplyId_ne_stashed id).symm _)
  exact same.trans (number?_setNumber store _ fits)

theorem stashed_restash (fits : op.Fits) :
    (store.restash id port op).document? (Key.stashed id).render =
      some (some (Stashed.mk port op)) :=
  document?_setDocument _ _ (Document.faithful_stashed fits)

theorem stashed_restash_of_ne {other : Nat} (differ : other ≠ id) :
    ((store.restash id port op).document? (Key.stashed other).render : Readable (Option Stashed)) =
      store.document? (Key.stashed other).render :=
  document?_of_get? (get?_restash (Key.nextReplyId_ne_stashed other) fun same =>
    differ (Key.stashed_injective same).symm)

theorem registered?_restash (channel port' : String) (sequence : Nat) :
    (store.restash id port op).registered? channel port' sequence =
      store.registered? channel port' sequence :=
  document?_of_get? (get?_restash (Key.nextReplyId_ne_registered channel port' sequence)
    (Key.stashed_ne_registered id channel port' sequence))

end Restash

section Leave

variable {stashed : Stashed} {exit : Exit}

theorem get?_leave {key : String} (own : (Key.stashed id).render ≠ key)
    (place : ∀ channel sequence, exit = .registered channel sequence →
      (Key.registered channel stashed.port sequence).render ≠ key) :
    (store.leave id stashed exit).get? key = store.get? key := by
  cases exit with
  | withdrawn => exact get?_remove_of_ne own
  | registered channel sequence =>
      exact (get?_put_of_ne (place channel sequence rfl) _).trans (get?_remove_of_ne own)

theorem number?_leave : (store.leave id stashed exit).number? Key.nextReplyId.render =
    store.number? Key.nextReplyId.render :=
  number?_of_get? (get?_leave (Key.nextReplyId_ne_stashed id).symm fun channel sequence _ =>
    (Key.nextReplyId_ne_registered channel stashed.port sequence).symm)

theorem stashed_leave : ((store.leave id stashed exit).document? (Key.stashed id).render :
    Readable (Option Stashed)) = some none := by
  cases exit with
  | withdrawn => exact document?_remove _
  | registered channel sequence =>
      have differ := (Key.stashed_ne_registered id channel stashed.port sequence).symm
      exact (document?_of_get? (get?_put_of_ne differ _)).trans (document?_remove _)

theorem stashed_leave_of_ne {other : Nat} (differ : other ≠ id) :
    ((store.leave id stashed exit).document? (Key.stashed other).render :
      Readable (Option Stashed)) = store.document? (Key.stashed other).render :=
  document?_of_get? (get?_leave (fun same => differ (Key.stashed_injective same).symm)
    fun channel sequence _ =>
      (Key.stashed_ne_registered other channel stashed.port sequence).symm)

theorem registered?_leave (stashed : Stashed) (fits : stashed.op.Fits) :
    (store.leave id stashed (.registered channel sequence)).registered? channel stashed.port
      sequence = some (some stashed.op) :=
  document?_setDocument _ _ (Document.faithful_op fits)

theorem registered?_leave_of_ne {channel' port' : String} {sequence' : Nat}
    (plain : (exit.call id).Proper) (plain' : ':' ∉ channel'.toList)
    (elsewhere : ¬(exit = .registered channel' sequence' ∧ stashed.port = port')) :
    (store.leave id stashed exit).registered? channel' port' sequence' =
      store.registered? channel' port' sequence' := by
  refine document?_of_get? (get?_leave (Key.stashed_ne_registered id channel' port' sequence') ?_)
  rintro channel sequence rfl same
  obtain ⟨rfl, samePort, rfl⟩ := Key.registered_injective plain plain' same
  exact elsewhere ⟨rfl, samePort⟩

end Leave

section Take

theorem number?_remove_registered :
    (store.remove (Key.registered channel port sequence).render).number? Key.nextReplyId.render =
      store.number? Key.nextReplyId.render :=
  number?_of_get? (get?_remove_of_ne (Key.nextReplyId_ne_registered channel port sequence).symm)

theorem registered?_remove : (store.remove
    (Key.registered channel port sequence).render).registered? channel port sequence =
      some none :=
  document?_remove _

theorem registered?_remove_of_ne {channel' port' : String} {sequence' : Nat}
    (plain : ':' ∉ channel.toList) (plain' : ':' ∉ channel'.toList)
    (elsewhere : ¬(channel = channel' ∧ port = port' ∧ sequence = sequence')) :
    (store.remove (Key.registered channel port sequence).render).registered? channel' port'
      sequence' = store.registered? channel' port' sequence' :=
  document?_of_get? (get?_remove_of_ne fun same =>
    elsewhere (Key.registered_injective plain plain' same))

end Take

theorem call?_beside {call : RegistryCall} {answer : RegistryAnswer}
    (called : store.call? call = some (answer, store')) {key : Key}
    (elsewhere : key.isRegistry = false) : store'.get? key.render = store.get? key.render := by
  have exits {id : Nat} (exit : Exit)
      (called : store.call? (exit.call id) = some (answer, store')) :
      store'.get? key.render = store.get? key.render := by
    obtain ⟨found, -, -, rfl⟩ := exit_called exit called
    cases found with
    | none => rfl
    | some stashed =>
        exact get?_leave (Key.render_ne_of_registry (.stashed _) rfl elsewhere)
          fun channel sequence _ =>
            Key.render_ne_of_registry (.registered channel stashed.port sequence) rfl elsewhere
  cases call with
  | stash port op =>
      obtain ⟨id, -, rfl⟩ := stash_called called
      exact get?_restash (Key.render_ne_of_registry .nextReplyId rfl elsewhere)
        (Key.render_ne_of_registry (.stashed id) rfl elsewhere)
  | register id channel sequence => exact exits (.registered channel sequence) called
  | unstash id => exact exits .withdrawn called
  | take channel port sequence =>
      obtain ⟨found, -, -, rfl⟩ := take_called called
      cases found with
      | none => rfl
      | some op =>
          exact get?_remove_of_ne
            (Key.render_ne_of_registry (.registered channel port sequence) rfl elsewhere)

/-! ## What a call does -/

namespace Keeps

theorem empty : Store.empty.Keeps [] where
  sound := ⟨List.nodup_nil, nofun, nofun, nofun, nofun, nofun⟩
  next := ⟨none, rfl, rfl⟩
  stashed id := ⟨none, rfl, fun port op => by simp [CallLog.Waits, CallLog.Issued]⟩
  registered channel port sequence plain :=
    ⟨none, rfl, fun op => by simp [CallLog.Registered, CallLog.Issued]⟩

theorem of_same (keeps : store.Keeps log)
    (same : ∀ key : Key, key.isRegistry = true → store'.get? key.render = store.get? key.render) :
    store'.Keeps log where
  sound := keeps.sound
  next := by
    rw [number?_of_get? (same .nextReplyId rfl)]
    exact keeps.next
  stashed id := by
    rw [document?_of_get? (same (.stashed id) rfl)]
    exact keeps.stashed id
  registered channel port sequence plain := by
    rw [registered?, document?_of_get? (same (.registered channel port sequence) rfl)]
    exact keeps.registered channel port sequence plain

theorem nothing (keeps : store.Keeps log) (call : RegistryCall) :
    store.Keeps (log ++ [(call, .found none)]) where
  sound := by
    obtain ⟨distinct, bounded, issued, left, once, taken⟩ := keeps.sound
    constructor <;> simpa [RegistryAnswer.replyId?]
  next := by simpa [RegistryAnswer.replyId?] using keeps.next
  stashed := by simpa [CallLog.Waits] using keeps.stashed
  registered := by simpa [CallLog.Registered] using keeps.registered

theorem stash (keeps : store.Keeps log) (fits : op.Fits)
    (room : log.replyIds.length + 2 < Width.limit 64) :
    (store.restash (log.replyIds.length + 1) port op).Keeps
      (log ++ [(.stash port op, .issued (log.replyIds.length + 1))]) := by
  have sound := keeps.sound.stash port op
  have fresh := keeps.sound.next_fresh
  generalize new : log.replyIds.length + 1 = own at sound fresh ⊢
  have unissued (port op) : ¬log.Issued own port op := fun issued => fresh issued.mem
  have unleft (op exit) : ¬log.Left own op exit := fun left =>
    have ⟨_, issued⟩ := keeps.sound.left left
    fresh issued.mem
  refine ⟨sound, ?next, fun id => ?stashed, ?registered⟩
  case next =>
    exact ⟨some (own + 1), number?_restash (by lia), by simp [RegistryAnswer.replyId?, new]⟩
  case stashed =>
    by_cases same : id = own
    · subst same
      exact ⟨_, stashed_restash fits, fun port' op' => by simp [CallLog.Waits, unissued, unleft]⟩
    · obtain ⟨found, read, means⟩ := keeps.stashed id
      refine ⟨found, (stashed_restash_of_ne same).trans read, fun port' op' => ?_⟩
      simp [means, CallLog.Waits, Ne.symm same]
  case registered =>
    intro channel port' sequence plain
    obtain ⟨found, read, means⟩ := keeps.registered channel port' sequence plain
    refine ⟨found, (registered?_restash channel port' sequence).trans read, fun op' => ?_⟩
    rw [means, CallLog.Registered, CallLog.Registered]
    refine and_congr (exists_congr fun id => ?_) (by simp)
    simp only [CallLog.issued_concat, CallLog.left_concat, RegistryAnswer.issued.injEq,
      Exit.stash_ne_call, false_and, or_false]
    constructor
    · exact fun ⟨issued, left⟩ => ⟨.inl issued, left⟩
    · rintro ⟨issued | ⟨-, rfl⟩, left⟩
      · exact ⟨issued, left⟩
      · exact absurd left (unleft _ _)

theorem leave (keeps : store.Keeps log) (waits : log.Waits id port op) (fits : op.Fits)
    {exit : Exit} (plain : (exit.call id).Proper)
    (apart : CallLog.Apart (log ++ [(exit.call id, .found (some op))])) :
    (store.leave id ⟨port, op⟩ exit).Keeps (log ++ [(exit.call id, .found (some op))]) := by
  have sound := keeps.sound.leave waits exit
  have left : CallLog.Left (log ++ [(exit.call id, .found (some op))]) id op exit := by simp
  have issued : CallLog.Issued (log ++ [(exit.call id, .found (some op))]) id port op := by
    simpa using waits.1
  refine ⟨sound, ?next, fun other => ?stashed, ?registered⟩
  case next => simpa [number?_leave, RegistryAnswer.replyId?] using keeps.next
  case stashed =>
    by_cases same : other = id
    · subst same
      refine ⟨none, stashed_leave, fun port' op' => ?_⟩
      simp only [reduceCtorEq, false_iff]
      exact fun waits => waits.2 op exit left
    · obtain ⟨found, read, means⟩ := keeps.stashed other
      refine ⟨found, (stashed_leave_of_ne same).trans read, fun port' op' => ?_⟩
      simp [means, CallLog.Waits, Ne.symm same]
  case registered =>
    intro channel port' sequence plain'
    by_cases here : exit = .registered channel sequence ∧ port = port'
    · obtain ⟨rfl, rfl⟩ := here
      refine ⟨some op, registered?_leave ⟨port, op⟩ fits, fun op' => ?_⟩
      constructor
      · rintro ⟨⟩
        refine ⟨⟨id, issued, left⟩, fun op' taken => ?_⟩
        exact keeps.sound.untaken waits apart op' (by simpa using taken)
      · rintro ⟨⟨id', issued', left'⟩, -⟩
        obtain rfl := apart _ _ _ _ _ _ _ issued issued' left left'
        rw [(sound.issued issued issued').2]
    · obtain ⟨found, read, means⟩ := keeps.registered channel port' sequence plain'
      refine ⟨found, (registered?_leave_of_ne plain plain' here).trans read, fun op' => ?_⟩
      rw [means, CallLog.Registered, CallLog.Registered]
      refine and_congr (exists_congr fun id' => ?_) (by simp)
      simp only [CallLog.issued_concat, CallLog.left_concat, Exit.call_inj, Exit.call_ne_stash,
        false_and, or_false]
      constructor
      · exact fun ⟨issued, left⟩ => ⟨issued, .inl left⟩
      · rintro ⟨issued', old | ⟨⟨rfl, equal⟩, -⟩⟩
        · exact ⟨issued', old⟩
        · exact absurd ⟨equal, (keeps.sound.issued waits.1 issued').1⟩ here

theorem take (keeps : store.Keeps log) (registered : log.Registered channel port sequence op)
    (plain : ':' ∉ channel.toList) :
    (store.remove (Key.registered channel port sequence).render).Keeps
      (log ++ [(.take channel port sequence, .found (some op))]) := by
  refine ⟨keeps.sound.take registered, ?next, fun id => ?stashed, ?registered⟩
  case next => simpa [number?_remove_registered, RegistryAnswer.replyId?] using keeps.next
  case stashed =>
    obtain ⟨found, read, means⟩ := keeps.stashed id
    have apart := (Key.stashed_ne_registered id channel port sequence).symm
    refine ⟨found, (document?_of_get? (get?_remove_of_ne apart)).trans read, fun port' op' => ?_⟩
    simp [means, CallLog.Waits]
  case registered =>
    intro channel' port' sequence' plain'
    by_cases here : channel = channel' ∧ port = port' ∧ sequence = sequence'
    · obtain ⟨rfl, rfl, rfl⟩ := here
      refine ⟨none, registered?_remove, fun op' => ?_⟩
      simp only [reduceCtorEq, false_iff]
      exact fun still => still.2 op (by simp)
    · obtain ⟨found, read, means⟩ := keeps.registered channel' port' sequence' plain'
      refine ⟨found, (registered?_remove_of_ne plain plain' here).trans read, fun op' => ?_⟩
      simp [means, CallLog.Registered, here]

end Keeps

end Store

end LiquidStaking
