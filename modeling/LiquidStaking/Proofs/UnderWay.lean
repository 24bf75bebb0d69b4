import LiquidStaking.Proofs.Delivery
import LiquidStaking.Proofs.Issuing
import LiquidStaking.Proofs.Started

/-!
# Operations under way in storage

The registry holds no operation that was not issued, and none twice: whatever is handed
out is one of those outstanding, and what is left in storage are others.  This takes no
promise about channels and sequences; where two operations are registered at one place
the earlier one is lost.
-/

namespace LiquidStaking

def RegistryCall.handsOut : RegistryCall → Bool
  | .unstash _ => true
  | .take .. => true
  | _ => false

namespace Store

variable {store store' : Store} {ops : List RemoteOp} {op : RemoteOp} {b : Books} {id : Nat}
  {channel port : String} {sequence : Nat}

def opAt? (store : Store) : Key → Readable (Option RemoteOp)
  | .stashed id =>
      (store.document? (Key.stashed id).render).map fun found => found.map Stashed.op
  | .registered channel port sequence => store.registered? channel port sequence
  | _ => some none

theorem opAt?_of_get? {key : Key} (same : store'.get? key.render = store.get? key.render) :
    store'.opAt? key = store.opAt? key := by
  cases key with
  | stashed id => simp only [opAt?, document?_of_get? same]
  | registered channel port sequence => exact document?_of_get? same
  | _ => rfl

/-- Every operation in storage is another one of those listed. -/
def Carries (store : Store) (ops : List RemoteOp) : Prop :=
  ∃ held : List (String × RemoteOp),
    (∀ key op, store.opAt? key = some (some op) → (key.render, op) ∈ held) ∧
    (held.map Prod.snd).Subperm ops

namespace Carries

theorem empty : Store.empty.Carries [] := by
  refine ⟨[], fun key op stored => ?_, .refl _⟩
  cases key <;> simp [opAt?, registered?, document?, read?, get?, Store.empty] at stored

theorem mono (carries : store.Carries ops) {ops' : List RemoteOp} (more : ops.Subperm ops') :
    store.Carries ops' := by
  obtain ⟨held, lists, fewer⟩ := carries
  exact ⟨held, lists, fewer.trans more⟩

theorem of_same (carries : store.Carries ops)
    (same : ∀ key : Key, key.isRegistry = true → store'.get? key.render = store.get? key.render) :
    store'.Carries ops := by
  obtain ⟨held, lists, fewer⟩ := carries
  refine ⟨held, fun key op stored => lists key op ?_, fewer⟩
  cases key with
  | stashed id => rwa [opAt?_of_get? (same (.stashed id) rfl)] at stored
  | registered channel port sequence =>
      rwa [opAt?_of_get? (same (.registered channel port sequence) rfl)] at stored
  | _ => exact stored

theorem put (carries : store.Carries ops) (key : String)
    (own : ∀ other op', other.render = key → store'.opAt? other = some (some op') → op' = op)
    (rest : ∀ other : Key, other.render ≠ key → store'.opAt? other = store.opAt? other) :
    store'.Carries (op :: ops) := by
  obtain ⟨held, lists, fewer⟩ := carries
  refine ⟨(key, op) :: held, fun other op' stored => ?_, (List.subperm_cons op).mpr fewer⟩
  by_cases here : other.render = key
  · rw [here, own other op' here stored]
    exact List.mem_cons_self
  · rw [rest other here] at stored
    exact List.mem_cons_of_mem _ (lists other op' stored)

theorem drop (carries : store.Carries ops) (key : Key) (stored : store.opAt? key = some (some op))
    (own : ∀ other op', other.render = key.render → store'.opAt? other ≠ some (some op'))
    (rest : ∀ other : Key, other.render ≠ key.render → store'.opAt? other = store.opAt? other) :
    op ∈ ops ∧ store'.Carries (ops.erase op) := by
  obtain ⟨held, lists, fewer⟩ := carries
  have member := lists key op stored
  have split := (List.perm_cons_erase member).map Prod.snd
  have fewer' : (op :: (held.erase (key.render, op)).map Prod.snd).Subperm ops :=
    split.symm.subperm.trans fewer
  refine ⟨fewer'.subset List.mem_cons_self, held.erase (key.render, op), ?_, ?_⟩
  · intro other op' still
    have elsewhere : other.render ≠ key.render := fun here => own other op' here still
    rw [rest other elsewhere] at still
    exact (List.mem_erase_of_ne fun same => elsewhere (Prod.mk.inj same).1).mpr
      (lists other op' still)
  · simpa using fewer'.erase op

/-! ## Calls -/

theorem restash (carries : store.Carries ops) (fits : op.Fits) :
    (store.restash id port op).Carries (op :: ops) := by
  refine carries.put (Key.stashed id).render (fun other op' here stored => ?_)
    fun other elsewhere => ?_
  · cases other with
    | stashed other =>
        obtain rfl := Key.stashed_injective here
        rw [opAt?, stashed_restash fits] at stored
        simpa using stored.symm
    | registered channel port sequence =>
        exact absurd here.symm (Key.stashed_ne_registered _ _ _ _)
    | _ => simp [opAt?] at stored
  · cases other with
    | stashed other =>
        exact opAt?_of_get? (get?_restash (Key.nextReplyId_ne_stashed _) (Ne.symm elsewhere))
    | registered channel port sequence => exact registered?_restash channel port sequence
    | _ => rfl

theorem leave (carries : store.Carries ops) {stashed : Stashed}
    (found : store.document? (Key.stashed id).render = some (some stashed)) :
    stashed.op ∈ ops ∧ (store.remove (Key.stashed id).render).Carries (ops.erase stashed.op) := by
  have stored : store.opAt? (.stashed id) = some (some stashed.op) := by
    rw [opAt?, found]
    rfl
  refine carries.drop (.stashed id) stored (fun other op' here still => ?_) fun other elsewhere =>
    opAt?_of_get? (get?_remove_of_ne (Ne.symm elsewhere))
  cases other with
  | stashed other =>
      obtain rfl := Key.stashed_injective here
      rw [opAt?, document?_remove] at still
      cases still
  | registered channel port sequence =>
      exact absurd here.symm (Key.stashed_ne_registered _ _ _ _)
  | _ => simp [opAt?] at still

theorem register (carries : store.Carries ops) (fits : op.Fits) :
    (store.setDocument (Key.registered channel port sequence).render op).Carries (op :: ops) := by
  refine carries.put (Key.registered channel port sequence).render
    (fun other op' here stored => ?_) fun other elsewhere =>
    opAt?_of_get? (get?_put_of_ne (Ne.symm elsewhere) _)
  cases other with
  | stashed other => exact absurd here (Key.stashed_ne_registered _ _ _ _)
  | registered channel' port' sequence' =>
      rw [opAt?, registered?, here, document?_setDocument _ _ (Document.faithful_op fits)] at stored
      simpa using stored.symm
  | _ => simp [opAt?] at stored

theorem take (carries : store.Carries ops)
    (found : store.registered? channel port sequence = some (some op)) :
    op ∈ ops ∧
      (store.remove (Key.registered channel port sequence).render).Carries (ops.erase op) := by
  refine carries.drop (.registered channel port sequence) found
    (fun other op' here still => ?_) fun other elsewhere =>
    opAt?_of_get? (get?_remove_of_ne (Ne.symm elsewhere))
  cases other with
  | stashed other => exact absurd here (Key.stashed_ne_registered _ _ _ _)
  | registered channel' port' sequence' =>
      rw [opAt?, registered?, here, document?_remove] at still
      cases still
  | _ => simp [opAt?] at still

end Carries

/-! ## Storage and the hub -/

theorem Holds.call (holds : store.Holds b) {call : RegistryCall} {answer : RegistryAnswer}
    (called : store.call? call = some (answer, store')) : store'.Holds b :=
  holds.of_same fun _ books => call?_beside called (Key.apart_of_books books).1

def SameRecords (store store' : Store) : Prop :=
  ∀ key : Key, key.isSetting = false → store'.get? key.render = store.get? key.render

namespace SameRecords

theorem refl (store : Store) : store.SameRecords store := fun _ _ => rfl

theorem trans {store'' : Store} (same : store.SameRecords store')
    (same' : store'.SameRecords store'') : store.SameRecords store'' :=
  fun key record => (same' key record).trans (same key record)

theorem setting_ne {setting key : Key} (isSetting : setting.isSetting = true)
    (record : key.isSetting = false) : setting.render ≠ key.render := by
  rcases key.sorted with books | registry | inside
  · exact Key.render_ne_of_books books (Key.apart_of_setting isSetting).1
  · exact (Key.render_ne_of_setting registry isSetting).symm
  · exact Bool.noConfusion (inside.symm.trans record)

theorem put (setting : Key) (isSetting : setting.isSetting = true) (store : Store)
    (value : Bytes) : store.SameRecords (store.put setting.render value) :=
  fun _ record => get?_put_of_ne (setting_ne isSetting record) value

theorem remove (setting : Key) (isSetting : setting.isSetting = true) (store : Store) :
    store.SameRecords (store.remove setting.render) :=
  fun _ record => get?_remove_of_ne (setting_ne isSetting record)

theorem setText? (setting : Key) (isSetting : setting.isSetting = true) {text : String}
    (written : store.setText? setting.render text = some store') : store.SameRecords store' := by
  simp only [Store.setText?, set?] at written
  split at written
  · cases written
  · cases written
    exact put setting isSetting store _

end SameRecords

/-- Storage holds the books of the hub, and no operations but outstanding ones. -/
structure Mirrors (store : Store) (h : HubState) : Prop where
  holds : store.Holds h.books
  carries : store.Carries h.outstanding

namespace Mirrors

variable {h : HubState} {answer : RegistryAnswer} {found : Option RemoteOp}

theorem empty : Store.empty.Mirrors .initial := ⟨holds_empty, .empty⟩

theorem of_same (mirrors : store.Mirrors h) (same : store.SameRecords store') :
    store'.Mirrors h where
  holds := mirrors.holds.of_same fun key books => same key (Key.apart_of_books books).2
  carries := mirrors.carries.of_same fun key registry =>
    same key (Key.apart_of_registry registry).2

theorem stash (mirrors : store.Mirrors h) (fits : op.Fits)
    (called : store.call? (.stash port op) = some (answer, store')) :
    store'.Mirrors ⟨h.books, h.outstanding ++ [op]⟩ := by
  refine ⟨mirrors.holds.call called, ?_⟩
  obtain ⟨id, -, rfl⟩ := stash_called called
  exact (mirrors.carries.restash fits).mono (List.perm_append_singleton _ _).symm.subperm

theorem register (mirrors : store.Mirrors h) (fits : ∀ op ∈ h.outstanding, op.Fits)
    (called : store.call? (.register id channel sequence) = some (answer, store')) :
    store'.Mirrors h := by
  refine ⟨mirrors.holds.call called, ?_⟩
  obtain ⟨stashed, found, -, rfl⟩ := exit_called (.registered channel sequence) called
  cases stashed with
  | none => exact mirrors.carries
  | some stashed =>
      obtain ⟨member, left⟩ := mirrors.carries.leave found
      exact (left.register (fits _ member)).mono (List.perm_cons_erase member).symm.subperm

theorem handOut (mirrors : store.Mirrors h) {call : RegistryCall} (hands : call.handsOut = true)
    (called : store.call? call = some (.found found, store')) :
    (found = none ∧ store' = store) ∨ ∃ op, found = some op ∧ op ∈ h.outstanding ∧
      store'.Mirrors ⟨h.books, h.outstanding.erase op⟩ := by
  have holds := mirrors.holds.call called
  cases call with
  | stash port op | register id channel sequence => cases hands
  | unstash id =>
      obtain ⟨stashed, stored, same, rfl⟩ := exit_called .withdrawn called
      obtain rfl := RegistryAnswer.found.inj same
      cases stashed with
      | none => exact .inl ⟨rfl, rfl⟩
      | some stashed =>
          obtain ⟨member, left⟩ := mirrors.carries.leave stored
          exact .inr ⟨stashed.op, rfl, member, holds, left⟩
  | take channel port sequence =>
      obtain ⟨stored, read, same, rfl⟩ := take_called called
      obtain rfl := RegistryAnswer.found.inj same
      cases found with
      | none => exact .inl ⟨rfl, rfl⟩
      | some op =>
          obtain ⟨member, left⟩ := mirrors.carries.take read
          exact .inr ⟨op, rfl, member, holds, left⟩

end Mirrors

end Store

end LiquidStaking
