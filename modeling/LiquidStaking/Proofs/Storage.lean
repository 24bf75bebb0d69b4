import LiquidStaking.Proofs.Books
import LiquidStaking.Proofs.Json.Records
import LiquidStaking.Proofs.Keys
import LiquidStaking.Store.Records

/-!
# Storage holds the books

Everything that is read from storage is what the books say, and every command
whose numbers keep to their widths carries that over: storage takes it, and holds
the books as the command leaves them.  The index of open batches is the list of
their epochs in ascending order, which a batch joins when it opens and leaves when
it is done.
-/

namespace LiquidStaking

/-! ## The index of open batches -/

section Index

variable {α : Type} {epoch : α → Epoch}

def openIndex (epoch : α → Epoch) (isOpen : α → Bool) (records : List α) : List Epoch :=
  (records.filter isOpen).map epoch

def reindex (isOpen : Bool) (e : Epoch) (epochs : List Epoch) : List Epoch :=
  if isOpen then putByEpoch id e epochs else epochs.erase e

theorem InOrder.openIndex {records : List α} (ordered : InOrder epoch records)
    (isOpen : α → Bool) : InOrder id (openIndex epoch isOpen records) :=
  List.pairwise_map.mpr (List.Pairwise.filter isOpen ordered)

theorem openIndex_cons (epoch : α → Epoch) (isOpen : α → Bool) (record : α) (records : List α) :
    openIndex epoch isOpen (record :: records) =
      if isOpen record then epoch record :: openIndex epoch isOpen records
      else openIndex epoch isOpen records := by
  cases opens : isOpen record <;> simp [openIndex, opens]

theorem openIndex_after {records : List α} {e : Epoch}
    (after : ∀ record ∈ records, e < epoch record)
    (isOpen : α → Bool) : ∀ other ∈ openIndex epoch isOpen records, e < other := by
  intro other member
  obtain ⟨record, kept, rfl⟩ := List.mem_map.mp member
  exact after record (List.mem_filter.mp kept).1

theorem reindex_of_lt {e : Epoch} {epochs : List Epoch} (before : ∀ other ∈ epochs, e < other)
    (isOpen : Bool) : reindex isOpen e epochs = if isOpen then e :: epochs else epochs := by
  cases epochs with
  | nil => rfl
  | cons first rest =>
      have absent : e ∉ first :: rest := fun member => Nat.lt_irrefl e (before e member)
      have lower : id e < id first := before first List.mem_cons_self
      cases isOpen <;> simp only [reindex, putByEpoch, if_pos lower, List.erase_of_not_mem absent,
        Bool.false_eq_true, if_false, if_true]

theorem reindex_head (isOpen : Bool) (e : Epoch) (epochs : List Epoch) :
    reindex isOpen e (e :: epochs) = if isOpen then e :: epochs else epochs := by
  cases isOpen <;> simp [reindex, putByEpoch]

theorem reindex_cons {first e : Epoch} (before : first < e) (isOpen : Bool)
    (epochs : List Epoch) :
    reindex isOpen e (first :: epochs) = first :: reindex isOpen e epochs := by
  have notLower : ¬id e < id first := Nat.lt_asymm before
  have differ : first ≠ e := Nat.ne_of_lt before
  have differ' : ¬id e = id first := Ne.symm differ
  cases isOpen with
  | true => simp only [reindex, putByEpoch, if_neg notLower, if_neg differ', if_true]
  | false => simp [reindex, differ]

theorem InOrder.openIndex_put {records : List α} (ordered : InOrder epoch records)
    (isOpen : α → Bool) (record : α) :
    LiquidStaking.openIndex epoch isOpen (LiquidStaking.putByEpoch epoch record records) =
      reindex (isOpen record) (epoch record) (LiquidStaking.openIndex epoch isOpen records) := by
  induction records with
  | nil => exact openIndex_cons epoch isOpen record []
  | cons first rest ih =>
      obtain ⟨below, restOrdered⟩ := List.pairwise_cons.mp ordered
      rw [LiquidStaking.putByEpoch]
      split
      · rename_i before
        have after : ∀ other ∈ first :: rest, epoch record < epoch other := by
          intro other member
          rcases List.mem_cons.mp member with rfl | later
          · exact before
          · exact Nat.lt_trans before (below other later)
        rw [openIndex_cons, reindex_of_lt (openIndex_after after isOpen)]
      split
      · rename_i same
        have after := openIndex_after below isOpen
        rw [← same] at after
        rw [openIndex_cons, openIndex_cons epoch isOpen first, ← same]
        cases isOpen first with
        | true => exact (reindex_head (isOpen record) _ _).symm
        | false => exact (reindex_of_lt after (isOpen record)).symm
      · rename_i notBefore differ
        have past : epoch first < epoch record := by lia
        rw [openIndex_cons, openIndex_cons, ih restOrdered]
        split
        · rw [reindex_cons past]
        · rfl

theorem InOrder.reindex_of_right {e : Epoch} {epochs : List Epoch} (ordered : InOrder id epochs)
    {isOpen : Bool} (right : isOpen = true ↔ e ∈ epochs) : reindex isOpen e epochs = epochs := by
  cases isOpen with
  | false => exact List.erase_of_not_mem fun member => Bool.noConfusion (right.mpr member)
  | true =>
      have member := right.mp rfl
      clear right
      induction epochs with
      | nil => cases member
      | cons first rest ih =>
          obtain ⟨below, restOrdered⟩ := List.pairwise_cons.mp ordered
          rcases List.mem_cons.mp member with rfl | later
          · exact reindex_head true e rest
          · have past : first < e := below e later
            rw [reindex_cons past, ih restOrdered later]

end Index

namespace Store

variable {store store' store'' : Store}

/-! ## One entry -/

section Entry

variable {key other : String}

theorem get?_put_of_ne (differ : key ≠ other) (value : Bytes) :
    (store.put key value).get? other = store.get? other := by
  rw [get?_put, if_neg differ]

theorem get?_remove_of_ne (differ : key ≠ other) :
    (store.remove key).get? other = store.get? other := by
  rw [get?_remove, if_neg differ]

theorem number?_of_get? (same : store'.get? key = store.get? key) :
    store'.number? key = store.number? key := by
  simp only [number?, read?, same]

theorem document?_of_get? {α : Type} [Document α] (same : store'.get? key = store.get? key) :
    (store'.document? key : Readable (Option α)) = store.document? key := by
  simp only [document?, read?, same]

theorem document?_remove {α : Type} [Document α] (key : String) :
    ((store.remove key).document? key : Readable (Option α)) = some none := by
  simp only [document?, read?, get?_remove, if_true]

end Entry

theorem document?_setDocument {α : Type} [Document α] (store : Store) (key : String) {value : α}
    (faithful : Document.Faithful value) :
    (store.setDocument key value).document? key = some (some value) := by
  simp [document?, read?, setDocument, get?_put, Document.ofBytes?_toBytes faithful]

theorem number?_setNumber (store : Store) (key : String) {n : Nat} (fits : n < Width.limit 64) :
    (store.setNumber key n).number? key = some (some n) := by
  simp [number?, read?, setNumber, get?_put, Bytes.toNumber?_bigEndian fits]

def AgreeExcept (store store' : Store) (written : List Key) : Prop :=
  ∀ key, key ∉ written → store'.get? key.render = store.get? key.render

theorem AgreeExcept.refl (store : Store) (written : List Key) : store.AgreeExcept store written :=
  fun _ _ => rfl

theorem AgreeExcept.trans {first second : List Key} (agree : store.AgreeExcept store' first)
    (agree' : store'.AgreeExcept store'' second) : store.AgreeExcept store'' (first ++ second) := by
  intro key untouched
  obtain ⟨first, second⟩ := not_or.mp (mt List.mem_append.mpr untouched)
  exact (agree' key second).trans (agree key first)

theorem agreeExcept_put (key : Key) (books : key.isBooks = true) (store : Store) (value : Bytes) :
    store.AgreeExcept (store.put key.render value) [key] := by
  intro other untouched
  have differ : key.render ≠ other.render := fun same =>
    untouched (List.mem_singleton.mpr (Key.render_injective books same).symm)
  exact get?_put_of_ne differ value

def SameBeside (store store' : Store) : Prop :=
  ∀ key : Key, key.isBooks = false → store'.get? key.render = store.get? key.render

theorem SameBeside.refl (store : Store) : store.SameBeside store := fun _ _ => rfl

theorem SameBeside.trans (same : store.SameBeside store') (same' : store'.SameBeside store'') :
    store.SameBeside store'' :=
  fun key other => (same' key other).trans (same key other)

theorem AgreeExcept.beside {written : List Key} (agree : store.AgreeExcept store' written)
    (books : written.all Key.isBooks = true) : store.SameBeside store' :=
  fun key other => agree key fun member =>
    Bool.noConfusion (other.symm.trans (List.all_eq_true.mp books key member))

section Agree

variable {written : List Key} (agree : store.AgreeExcept store' written) {key : Key}
  (untouched : key ∉ written)

include agree untouched

theorem AgreeExcept.document? {α : Type} [Document α] :
    (store'.document? key.render : Readable (Option α)) = store.document? key.render :=
  document?_of_get? (agree key untouched)

theorem AgreeExcept.number? : store'.number? key.render = store.number? key.render :=
  number?_of_get? (agree key untouched)

theorem AgreeExcept.openEpochs : store'.openEpochs key = store.openEpochs key := by
  simp only [Store.openEpochs, agree.document? untouched]

omit untouched

theorem AgreeExcept.chainIds (untouched : Key.chainIds ∉ written) :
    store'.chainIds = store.chainIds := by
  simp only [Store.chainIds, agree.document? untouched]

theorem AgreeExcept.claimIds {owner : Address} (untouched : Key.claimIds owner ∉ written) :
    store'.claimIds owner = store.claimIds owner := by
  simp only [Store.claimIds, agree.document? untouched]

end Agree

/-! ## Batches -/

def putBatch {α : Type} [Document α] (store : Store) (index entry : Key) (epoch : Epoch)
    (isOpen : Bool) (record : α) : Readable Store := do
  let store ← store.updateIndex index epoch isOpen
  return store.setDocument entry.render record

theorem putDeposit_eq (store : Store) (record : DepositBatch) :
    store.putDeposit record = store.putBatch (.openDeposits record.chain)
      (.deposit record.chain record.epoch) record.epoch record.isOpen record := rfl

theorem putRedemption_eq (store : Store) (record : RedemptionBatch) :
    store.putRedemption record = store.putBatch (.openRedemptions record.chain)
      (.redemption record.chain record.epoch) record.epoch record.isOpen record := rfl

theorem updateIndex_spec {index : Key} (books : index.isBooks = true) {epochs : List Epoch}
    (indexed : store.openEpochs index = some epochs) (ordered : InOrder id epochs)
    {e : Epoch} {isOpen : Bool} (fits : ∀ other ∈ reindex isOpen e epochs, other < Width.limit 64) :
    ∃ store', store.updateIndex index e isOpen = some store' ∧
      store'.openEpochs index = some (reindex isOpen e epochs) ∧
      store.AgreeExcept store' [index] := by
  have rewritten : (store.setDocument index.render (reindex isOpen e epochs)).openEpochs index =
      some (reindex isOpen e epochs) := by
    rw [Store.openEpochs, document?_setDocument _ _ (Document.faithful_epochs fits)]
    rfl
  by_cases right : isOpen = true ↔ e ∈ epochs
  · refine ⟨store, ?_, by rw [ordered.reindex_of_right right, indexed], .refl _ _⟩
    simp only [updateIndex, indexed, Option.bind_eq_bind, Option.bind_some]
    cases isOpen <;> simp_all
  · refine ⟨_, ?_, rewritten, agreeExcept_put index books _ _⟩
    simp only [updateIndex, indexed, Option.bind_eq_bind, Option.bind_some, reindex]
    cases isOpen <;> simp_all

structure BatchKeys (entry : Epoch → Key) (index : Key) : Prop where
  entryBooks : ∀ e, (entry e).isBooks = true
  indexBooks : index.isBooks = true
  injective : ∀ {e e'}, entry e = entry e' → e = e'
  apart : ∀ e, entry e ≠ index

theorem depositKeys (id : ChainId) : BatchKeys (.deposit id) (.openDeposits id) where
  entryBooks _ := rfl
  indexBooks := rfl
  injective same := (Key.deposit.inj same).2
  apart _ := nofun

theorem redemptionKeys (id : ChainId) : BatchKeys (.redemption id) (.openRedemptions id) where
  entryBooks _ := rfl
  indexBooks := rfl
  injective same := (Key.redemption.inj same).2
  apart _ := nofun

/-- Storage holds these batches under their keys, and the index lists the open ones. -/
structure HoldsBatches {α : Type} [Document α] (epoch : α → Epoch) (isOpen : α → Bool)
    (entry : Epoch → Key) (index : Key) (store : Store) (records : List α) : Prop where
  found : ∀ e, store.document? (entry e).render = some (atEpoch? epoch records e)
  indexed : store.openEpochs index = some (openIndex epoch isOpen records)
  ordered : InOrder epoch records
  fits : ∀ record ∈ records, epoch record < Width.limit 64

namespace HoldsBatches

variable {α : Type} [Document α] {epoch : α → Epoch} {isOpen : α → Bool} {entry : Epoch → Key}
  {index : Key} {records : List α}

theorem agree (holds : HoldsBatches epoch isOpen entry index store records) {written : List Key}
    (agree : store.AgreeExcept store' written) (entries : ∀ e, entry e ∉ written)
    (untouched : index ∉ written) : HoldsBatches epoch isOpen entry index store' records where
  found e := (agree.document? (entries e)).trans (holds.found e)
  indexed := (agree.openEpochs untouched).trans holds.indexed
  ordered := holds.ordered
  fits := holds.fits

theorem openRecords (holds : HoldsBatches epoch isOpen entry index store records) :
    (do
      let epochs ← store.openEpochs index
      epochs.mapM fun e => (store.document? (entry e).render).bind id) =
      some (records.filter isOpen) := by
  have stored : ∀ record ∈ records.filter isOpen,
      (store.document? (entry (epoch record)).render).bind id = some record := by
    intro record member
    rw [holds.found, holds.ordered.atEpoch? (List.mem_filter.mp member).1]
    rfl
  rw [holds.indexed]
  exact mapM_eq_some.mpr (List.forall₂_map_left_iff.mpr (List.forall₂_same.mpr stored))

theorem put (holds : HoldsBatches epoch isOpen entry index store records)
    (keys : BatchKeys entry index) {record : α} (faithful : Document.Faithful record)
    (fits : epoch record < Width.limit 64) :
    ∃ store', store.putBatch index (entry (epoch record)) (epoch record) (isOpen record) record =
        some store' ∧
      HoldsBatches epoch isOpen entry index store' (putByEpoch epoch record records) ∧
      store.AgreeExcept store' [index, entry (epoch record)] := by
  have allFit : ∀ other ∈ putByEpoch epoch record records, epoch other < Width.limit 64 := by
    intro other member
    rcases mem_putByEpoch member with rfl | old
    · exact fits
    · exact holds.fits other old
  have indexFits : ∀ e ∈ reindex (isOpen record) (epoch record) (openIndex epoch isOpen records),
      e < Width.limit 64 := by
    rw [← holds.ordered.openIndex_put isOpen record]
    intro e member
    obtain ⟨other, kept, rfl⟩ := List.mem_map.mp member
    exact allFit other (List.mem_filter.mp kept).1
  obtain ⟨indexedStore, updated, indexed, agree⟩ := updateIndex_spec keys.indexBooks holds.indexed
    (holds.ordered.openIndex isOpen) indexFits
  have agree' := agreeExcept_put _ (keys.entryBooks (epoch record)) indexedStore
    (Document.toBytes record)
  refine ⟨_, by simp only [putBatch, updated]; rfl, ⟨fun e => ?_, ?_, ?_, allFit⟩,
    agree.trans agree'⟩
  · rw [atEpoch?_putByEpoch]
    by_cases same : epoch record = e
    · rw [← same, if_pos rfl]
      exact document?_setDocument _ _ faithful
    · have other : entry e ∉ [entry (epoch record)] := fun member =>
        same (keys.injective (List.mem_singleton.mp member)).symm
      rw [if_neg same, ← holds.found e]
      refine (agree'.document? other).trans (agree.document? fun member => ?_)
      exact keys.apart e (List.mem_singleton.mp member)
  · rw [holds.ordered.openIndex_put isOpen record, ← indexed]
    exact agree'.openEpochs fun member =>
      keys.apart (epoch record) (List.mem_singleton.mp member).symm
  · exact holds.ordered.putByEpoch record

end HoldsBatches

end Store

/-! ## Commands -/

def Command.Fits : Command → Prop
  | .chain record => record.Fits
  | .epoch _ number => number < Width.limit 64
  | .deposit record => record.Fits
  | .redemption record => record.Fits
  | .claim record => record.Fits
  | .token _ => True
  | .dispatch _ => True

def Command.effect? : Command → Option Store.Effect
  | .token order => some (.token order)
  | .dispatch op => some (.dispatch op)
  | _ => none

namespace Store

variable {store store' : Store} {b : Books}

/-- All that is read from storage is what the books say. -/
structure Holds (store : Store) (b : Books) : Prop where
  chainIds : store.chainIds = some b.chainIds
  chain? : ∀ id, store.chain? id = some (b.chain? id)
  epoch? : ∀ kind, store.epoch? kind = some (b.epoch? kind)
  deposits : ∀ id, HoldsBatches DepositBatch.epoch DepositBatch.isOpen (.deposit id)
    (.openDeposits id) store (b.deposits id)
  redemptions : ∀ id, HoldsBatches RedemptionBatch.epoch RedemptionBatch.isOpen (.redemption id)
    (.openRedemptions id) store (b.redemptions id)
  claim? : ∀ id, store.claim? id = some (b.claim? id)
  claimIds : ∀ owner, store.claimIds owner = some (b.claimIds owner)

theorem holds_empty : Store.empty.Holds .empty where
  chainIds := rfl
  chain? _ := rfl
  epoch? _ := rfl
  deposits _ := ⟨fun _ => rfl, rfl, List.Pairwise.nil, nofun⟩
  redemptions _ := ⟨fun _ => rfl, rfl, List.Pairwise.nil, nofun⟩
  claim? _ := rfl
  claimIds _ := rfl

namespace Holds

theorem openDeposits (holds : store.Holds b) (id : ChainId) :
    store.openDeposits id = some (b.openDeposits id) :=
  (holds.deposits id).openRecords

theorem openRedemptions (holds : store.Holds b) (id : ChainId) :
    store.openRedemptions id = some (b.openRedemptions id) :=
  (holds.redemptions id).openRecords

theorem view (holds : store.Holds b) : store.view = b.view := by
  simp only [Store.view, Books.view, View.mk.injEq]
  exact ⟨holds.chainIds, funext holds.chain?, funext holds.epoch?,
    funext fun id => funext (holds.deposits id).found, funext holds.openDeposits,
    funext fun id => funext (holds.redemptions id).found, funext holds.openRedemptions,
    funext holds.claim?⟩

theorem claimsOf (holds : store.Holds b) (owner : Address) (chain : Option ChainId) :
    store.claimsOf owner chain = some (b.claimsOf owner chain) := by
  have read (ids : List String) : ids.mapM store.claim? = some (ids.map b.claim?) :=
    mapM_eq_map fun id _ => holds.claim? id
  simp only [Store.claimsOf, holds.claimIds, read, Option.bind_eq_bind, Option.bind_some,
    Books.claimsOf, List.filterMap_map, Function.id_comp, Option.pure_def]

/-! ## Writing -/

theorem putChain (holds : store.Holds b) {record : Chain} (fits : record.Fits) :
    ∃ store', store.putChain record = some store' ∧ store'.Holds (b.putChain record) ∧
      store.SameBeside store' := by
  obtain ⟨listed, written, ids, agree⟩ : ∃ listed : Store,
      (if record.id ∈ b.chainIds then store
        else store.setDocument Key.chainIds.render (b.chainIds ++ [record.id])) = listed ∧
      listed.chainIds = some (b.putChain record).chainIds ∧
      store.AgreeExcept listed [.chainIds] := by
    refine ⟨_, rfl, ?_⟩
    simp only [Books.putChain]
    split
    · exact ⟨holds.chainIds, .refl _ _⟩
    · refine ⟨?_, agreeExcept_put .chainIds rfl _ _⟩
      rw [Store.chainIds, document?_setDocument _ _ (Document.faithful_texts _)]
      rfl
  have agree' := agreeExcept_put (.chain record.id) rfl listed (Document.toBytes record)
  have both := agree.trans agree'
  have stored : store.putChain record =
      some (listed.setDocument (Key.chain record.id).render record) := by
    simp only [Store.putChain, holds.chainIds, Option.bind_eq_bind, Option.bind_some, written]
    rfl
  refine ⟨_, stored, ?_, both.beside rfl⟩
  exact {
    chainIds := (agree'.chainIds (by simp)).trans ids
    chain? := fun id => by
      rw [Books.chain?_putChain]
      split
      · rename_i same
        rw [same]
        exact document?_setDocument _ _ (Document.faithful_chain fits)
      · rename_i differ
        exact (both.document? (by simp [differ])).trans (holds.chain? id)
    epoch? := fun kind => (both.number? (by simp)).trans (holds.epoch? kind)
    deposits := fun id => (holds.deposits id).agree both (by simp) (by simp)
    redemptions := fun id => (holds.redemptions id).agree both (by simp) (by simp)
    claim? := fun id => (both.document? (by simp)).trans (holds.claim? id)
    claimIds := fun owner => (both.claimIds (by simp)).trans (holds.claimIds owner) }

theorem putEpoch (holds : store.Holds b) (kind : EpochKind) {epoch : Epoch}
    (fits : epoch < Width.limit 64) :
    (store.setNumber (Key.epoch kind).render epoch).Holds (b.apply (.epoch kind epoch)) ∧
      store.SameBeside (store.setNumber (Key.epoch kind).render epoch) := by
  have agree := agreeExcept_put (.epoch kind) rfl store (Bytes.bigEndian 8 epoch)
  refine ⟨?_, agree.beside rfl⟩
  exact {
    chainIds := (agree.chainIds (by simp)).trans holds.chainIds
    chain? := fun id => (agree.document? (by simp)).trans (holds.chain? id)
    epoch? := fun other => by
      simp only [Books.apply, setAt]
      split
      · rename_i same
        rw [same]
        exact number?_setNumber _ _ fits
      · rename_i differ
        exact (agree.number? (by simp [differ])).trans (holds.epoch? other)
    deposits := fun id => (holds.deposits id).agree agree (by simp) (by simp)
    redemptions := fun id => (holds.redemptions id).agree agree (by simp) (by simp)
    claim? := fun id => (agree.document? (by simp)).trans (holds.claim? id)
    claimIds := fun owner => (agree.claimIds (by simp)).trans (holds.claimIds owner) }

theorem putDeposit (holds : store.Holds b) {record : DepositBatch} (fits : record.Fits) :
    ∃ store', store.putDeposit record = some store' ∧ store'.Holds (b.putDeposit record) ∧
      store.SameBeside store' := by
  obtain ⟨store', written, batches, agree⟩ := (holds.deposits record.chain).put
    (depositKeys record.chain) (Document.faithful_deposit fits) fits.epoch
  refine ⟨store', (store.putDeposit_eq record).trans written, ?_, agree.beside rfl⟩
  exact {
    chainIds := (agree.chainIds (by simp)).trans holds.chainIds
    chain? := fun id => (agree.document? (by simp)).trans (holds.chain? id)
    epoch? := fun kind => (agree.number? (by simp)).trans (holds.epoch? kind)
    deposits := fun id => by
      rw [Books.deposits_putDeposit]
      split
      · rename_i same
        rw [same]
        exact batches
      · rename_i differ
        exact (holds.deposits id).agree agree (by simp [differ]) (by simp [differ])
    redemptions := fun id => (holds.redemptions id).agree agree (by simp) (by simp)
    claim? := fun id => (agree.document? (by simp)).trans (holds.claim? id)
    claimIds := fun owner => (agree.claimIds (by simp)).trans (holds.claimIds owner) }

theorem putRedemption (holds : store.Holds b) {record : RedemptionBatch} (fits : record.Fits) :
    ∃ store', store.putRedemption record = some store' ∧
      store'.Holds (b.putRedemption record) ∧ store.SameBeside store' := by
  obtain ⟨store', written, batches, agree⟩ := (holds.redemptions record.chain).put
    (redemptionKeys record.chain) (Document.faithful_redemption fits) fits.epoch
  refine ⟨store', (store.putRedemption_eq record).trans written, ?_, agree.beside rfl⟩
  exact {
    chainIds := (agree.chainIds (by simp)).trans holds.chainIds
    chain? := fun id => (agree.document? (by simp)).trans (holds.chain? id)
    epoch? := fun kind => (agree.number? (by simp)).trans (holds.epoch? kind)
    deposits := fun id => (holds.deposits id).agree agree (by simp) (by simp)
    redemptions := fun id => by
      rw [Books.redemptions_putRedemption]
      split
      · rename_i same
        rw [same]
        exact batches
      · rename_i differ
        exact (holds.redemptions id).agree agree (by simp [differ]) (by simp [differ])
    claim? := fun id => (agree.document? (by simp)).trans (holds.claim? id)
    claimIds := fun owner => (agree.claimIds (by simp)).trans (holds.claimIds owner) }

theorem has_claim (holds : store.Holds b) (id : String) :
    store.has (Key.claim id).render = (b.claim? id).isSome := by
  have read := holds.claim? id
  simp only [Store.claim?, document?, read?] at read
  split at read
  · rename_i absent
    simp [has, absent, ← Option.some.inj read]
  · rename_i bytes found
    obtain ⟨claim, -, same⟩ := Option.map_eq_some_iff.mp read
    simp [has, found, ← same]

theorem putClaim (holds : store.Holds b) {record : Claim} (fits : record.Fits) :
    ∃ store', store.putClaim record = some store' ∧ store'.Holds (b.putClaim record) ∧
      store.SameBeside store' := by
  obtain ⟨listed, written, ids, agree⟩ : ∃ listed : Store,
      store.putClaim record =
        some (listed.setDocument (Key.claim record.id).render record) ∧
      (∀ owner, listed.claimIds owner = some ((b.putClaim record).claimIds owner)) ∧
      store.AgreeExcept listed [.claimIds record.owner] := by
    simp only [Store.putClaim, Books.putClaim, holds.has_claim]
    split
    · exact ⟨store, rfl, holds.claimIds, .refl _ _⟩
    · have agree := agreeExcept_put (.claimIds record.owner) rfl store
        (Document.toBytes (b.claimIds record.owner ++ [record.id]))
      refine ⟨_, by simp only [holds.claimIds]; rfl, fun owner => ?_, agree⟩
      simp only [setAt]
      split
      · rename_i same
        have read := document?_setDocument store (Key.claimIds record.owner).render
          (Document.faithful_texts (b.claimIds record.owner ++ [record.id]))
        rw [same]
        exact congrArg (Option.map fun ids => ids.getD []) read
      · rename_i differ
        exact (agree.claimIds (by simp [differ])).trans (holds.claimIds owner)
  have agree' := agreeExcept_put (.claim record.id) rfl listed (Document.toBytes record)
  have both := agree.trans agree'
  refine ⟨_, written, ?_, both.beside rfl⟩
  exact {
    chainIds := (both.chainIds (by simp)).trans holds.chainIds
    chain? := fun id => (both.document? (by simp)).trans (holds.chain? id)
    epoch? := fun kind => (both.number? (by simp)).trans (holds.epoch? kind)
    deposits := fun id => (holds.deposits id).agree both (by simp) (by simp)
    redemptions := fun id => (holds.redemptions id).agree both (by simp) (by simp)
    claim? := fun id => by
      rw [Books.claim?_putClaim]
      split
      · rename_i same
        rw [same]
        exact document?_setDocument _ _ (Document.faithful_claim fits)
      · rename_i differ
        exact (both.document? (by simp [differ])).trans (holds.claim? id)
    claimIds := fun owner => (agree'.claimIds (by simp)).trans (ids owner) }

/-- Storage takes every command whose numbers fit, hands back what it asks for, and
keeps all that is not the books'. -/
theorem apply (holds : store.Holds b) {command : Command} (fits : command.Fits) :
    ∃ store', store.apply command = some (store', command.effect?) ∧
      store'.Holds (b.apply command) ∧ store.SameBeside store' := by
  cases command with
  | chain record =>
      obtain ⟨store', written, holds, beside⟩ := holds.putChain fits
      exact ⟨store', by rw [Store.apply, written]; rfl, holds, beside⟩
  | epoch kind epoch => exact ⟨_, rfl, holds.putEpoch kind fits⟩
  | deposit record =>
      obtain ⟨store', written, holds, beside⟩ := holds.putDeposit fits
      exact ⟨store', by rw [Store.apply, written]; rfl, holds, beside⟩
  | redemption record =>
      obtain ⟨store', written, holds, beside⟩ := holds.putRedemption fits
      exact ⟨store', by rw [Store.apply, written]; rfl, holds, beside⟩
  | claim record =>
      obtain ⟨store', written, holds, beside⟩ := holds.putClaim fits
      exact ⟨store', by rw [Store.apply, written]; rfl, holds, beside⟩
  | token order => exact ⟨store, rfl, holds, .refl store⟩
  | dispatch op => exact ⟨store, rfl, holds, .refl store⟩

theorem applyAll (holds : store.Holds b) {commands : List Command}
    (fits : ∀ command ∈ commands, command.Fits) :
    ∃ store', store.applyAll commands = some (store', commands.filterMap Command.effect?) ∧
      store'.Holds (b.applyAll commands) ∧ store.SameBeside store' := by
  induction commands generalizing store b with
  | nil => exact ⟨store, rfl, holds, .refl store⟩
  | cons command commands ih =>
      obtain ⟨first, applied, holds, beside⟩ := holds.apply (fits command List.mem_cons_self)
      obtain ⟨last, rest, holds, beside'⟩ := ih holds fun other later =>
        fits other (List.mem_cons_of_mem _ later)
      refine ⟨last, ?_, holds, beside.trans beside'⟩
      rw [Store.applyAll, applied]
      simp only [Option.bind_eq_bind, Option.bind_some, rest, Option.pure_def]
      cases effect : command.effect? <;> simp [effect]

theorem of_same (holds : store.Holds b)
    (same : ∀ key : Key, key.isBooks = true → store'.get? key.render = store.get? key.render) :
    store'.Holds b := by
  have document {α : Type} [Document α] (key : Key) (books : key.isBooks = true) :
      (store'.document? key.render : Readable (Option α)) = store.document? key.render := by
    simp only [Store.document?, read?, same key books]
  have number (key : Key) (books : key.isBooks = true) :
      store'.number? key.render = store.number? key.render := by
    simp only [Store.number?, read?, same key books]
  have index (key : Key) (books : key.isBooks = true) :
      store'.openEpochs key = store.openEpochs key := congrArg _ (document key books)
  exact {
    chainIds := (congrArg _ (document .chainIds rfl)).trans holds.chainIds
    chain? := fun id => (document (.chain id) rfl).trans (holds.chain? id)
    epoch? := fun kind => (number (.epoch kind) rfl).trans (holds.epoch? kind)
    deposits := fun id =>
      { holds.deposits id with
        found := fun e => (document (.deposit id e) rfl).trans ((holds.deposits id).found e)
        indexed := (index (.openDeposits id) rfl).trans (holds.deposits id).indexed }
    redemptions := fun id =>
      { holds.redemptions id with
        found := fun e => (document (.redemption id e) rfl).trans ((holds.redemptions id).found e)
        indexed := (index (.openRedemptions id) rfl).trans (holds.redemptions id).indexed }
    claim? := fun id => (document (.claim id) rfl).trans (holds.claim? id)
    claimIds := fun owner =>
      (congrArg _ (document (.claimIds owner) rfl)).trans (holds.claimIds owner) }

end Holds

end Store

end LiquidStaking
