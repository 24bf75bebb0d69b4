import LiquidStaking.Books
import Mathlib.Data.List.Forall2

/-!
# Records ordered by epoch

Reading a list gives something where reading each of its members does.

The batches of a chain form a list with strictly increasing epochs, and a write
replaces the record of its epoch or goes in between two others.  A figure
summed over such a list changes by the new record's part less the part of the
record it replaces.
-/

namespace LiquidStaking

/-! ## Reads of a list -/

section Reads

variable {α β : Type} {read : α → Option β} {values : List α}

theorem mapM_eq_some {results : List β} :
    values.mapM read = some results ↔
      List.Forall₂ (fun v result => read v = some result) values results := by
  constructor
  · intro mapped
    induction values generalizing results with
    | nil =>
        cases mapped
        exact .nil
    | cons v values ih =>
        simp only [List.mapM_cons, Option.bind_eq_bind, Option.bind_eq_some_iff, Option.pure_def,
          Option.some.injEq] at mapped
        obtain ⟨first, own, later, rest, rfl⟩ := mapped
        exact .cons own (ih rest)
  · intro each
    induction each with
    | nil => rfl
    | cons own later ih =>
        rw [List.mapM_cons, own, ih]
        rfl

theorem mapM_congr {values' : List α}
    (alike : List.Forall₂ (fun v v' => read v = read v') values values') :
    values.mapM read = values'.mapM read := by
  induction alike with
  | nil => rfl
  | cons own later ih => rw [List.mapM_cons, List.mapM_cons, own, ih]

theorem mapM_eq_map {write : α → β} (each : ∀ v ∈ values, read v = some (write v)) :
    values.mapM read = some (values.map write) :=
  mapM_eq_some.mpr (List.forall₂_map_right_iff.mpr (List.forall₂_same.mpr each))

theorem mapM_eq_none : values.mapM read = none ↔ ∃ v ∈ values, read v = none := by
  induction values with
  | nil => simp
  | cons v values ih =>
      rw [List.mapM_cons, Option.bind_eq_bind, List.exists_mem_cons_iff, ← ih]
      cases read v <;> cases values.mapM read <;> simp

theorem mapM_isSome (each : ∀ v ∈ values, (read v).isSome = true) :
    (values.mapM read).isSome = true := by
  rw [Option.isSome_iff_ne_none, ne_eq, mapM_eq_none]
  rintro ⟨v, member, refused⟩
  exact Option.isSome_iff_ne_none.mp (each v member) refused

theorem mem_mapM {results : List β} (mapped : values.mapM read = some results) {result : β} :
    result ∈ results ↔ ∃ v ∈ values, read v = some result := by
  induction values generalizing results with
  | nil =>
      cases mapped
      simp
  | cons v values ih =>
      simp only [List.mapM_cons, Option.bind_eq_bind, Option.bind_eq_some_iff, Option.pure_def,
        Option.some.injEq] at mapped
      obtain ⟨first, own, rest, later, rfl⟩ := mapped
      simp only [List.mem_cons, ih later, exists_eq_or_imp, own, Option.some.injEq,
        eq_comm (a := result)]

theorem mem_of_mapM {results : List β} (mapped : values.mapM read = some results) {result : β}
    (member : result ∈ results) : ∃ v ∈ values, read v = some result :=
  (mem_mapM mapped).mp member

end Reads

/-! ## Records in order -/

variable {α : Type} {epoch : α → Epoch}

def InOrder (epoch : α → Epoch) (records : List α) : Prop :=
  records.Pairwise fun first second => epoch first < epoch second

/-- What one record adds to a sum over the records that count. -/
def part (counts : α → Bool) (figure : α → Nat) (record : α) : Nat :=
  if counts record then figure record else 0

theorem part_counted {counts : α → Bool} {figure : α → Nat} {record : α}
    (counted : counts record = true) : part counts figure record = figure record :=
  if_pos counted

theorem part_ignored {counts : α → Bool} {figure : α → Nat} {record : α}
    (ignored : counts record = false) : part counts figure record = 0 := by
  simp [part, ignored]

theorem part_same {counts : α → Bool} {figure : α → Nat} {record other : α}
    (counted : counts record = counts other) (equal : figure record = figure other) :
    part counts figure record = part counts figure other := by
  simp [part, counted, equal]

theorem Width.total_perm {first second : List Nat} (perm : first.Perm second) :
    Width.total first = Width.total second := by
  induction perm with
  | nil => rfl
  | cons n _ ih => simp [ih]
  | swap first second rest =>
      simp only [Width.total_cons]
      omega
  | trans _ _ first second => exact first.trans second

def totalWhere (counts : α → Bool) (figure : α → Nat) (records : List α) : Nat :=
  Width.total ((records.filter counts).map figure)

@[simp] theorem totalWhere_nil (counts : α → Bool) (figure : α → Nat) :
    totalWhere counts figure [] = 0 := rfl

theorem totalWhere_cons (counts : α → Bool) (figure : α → Nat) (record : α)
    (records : List α) :
    totalWhere counts figure (record :: records) =
      part counts figure record + totalWhere counts figure records := by
  cases h : counts record <;> simp [totalWhere, part, h]

theorem totalWhere_congr {counts counts' : α → Bool} {figure figure' : α → Nat}
    {records : List α}
    (same : ∀ record ∈ records, part counts figure record = part counts' figure' record) :
    totalWhere counts figure records = totalWhere counts' figure' records := by
  induction records with
  | nil => rfl
  | cons record records ih =>
      rw [totalWhere_cons, totalWhere_cons, same record (by simp),
        ih fun other member => same other (by simp [member])]

theorem totalWhere_eq_zero {counts : α → Bool} {figure : α → Nat} {records : List α}
    (nothing : ∀ record ∈ records, figure record = 0) : totalWhere counts figure records = 0 := by
  induction records with
  | nil => rfl
  | cons record records ih =>
      rw [totalWhere_cons, ih fun other member => nothing other (List.mem_cons_of_mem _ member)]
      simp [part, nothing record List.mem_cons_self]

theorem totalWhere_append (counts : α → Bool) (figure : α → Nat) (first second : List α) :
    totalWhere counts figure (first ++ second) =
      totalWhere counts figure first + totalWhere counts figure second := by
  simp [totalWhere]

theorem totalWhere_le {counts counts' : α → Bool} {figure figure' : α → Nat}
    {records : List α}
    (less : ∀ record ∈ records, part counts figure record ≤ part counts' figure' record) :
    totalWhere counts figure records ≤ totalWhere counts' figure' records := by
  induction records with
  | nil => exact Nat.le_refl 0
  | cons record records ih =>
      rw [totalWhere_cons, totalWhere_cons]
      exact Nat.add_le_add (less record (by simp))
        (ih fun other member => less other (by simp [member]))

theorem part_le_totalWhere (counts : α → Bool) (figure : α → Nat) {record : α}
    {records : List α} (member : record ∈ records) :
    part counts figure record ≤ totalWhere counts figure records := by
  induction records with
  | nil => cases member
  | cons first rest ih =>
      rw [totalWhere_cons]
      rcases List.mem_cons.mp member with rfl | later
      · omega
      · have := ih later
        omega

theorem totalWhere_split (counts second : α → Bool) (figure : α → Nat) (records : List α) :
    totalWhere counts figure records =
      totalWhere (fun record => counts record && second record) figure records +
        totalWhere (fun record => counts record && !second record) figure records := by
  induction records with
  | nil => rfl
  | cons record records ih =>
      simp only [totalWhere_cons, ih, part]
      split <;> split <;> split <;> simp_all <;> omega

theorem totalWhere_change (counts : α → Bool) {figure figure' : α → Nat} {record : α}
    {records : List α} (distinct : records.Nodup) (member : record ∈ records)
    (same : ∀ other ∈ records, other ≠ record → figure' other = figure other) :
    totalWhere counts figure' records + part counts figure record =
      totalWhere counts figure records + part counts figure' record := by
  induction records with
  | nil => cases member
  | cons first rest ih =>
      have ⟨fresh, restDistinct⟩ := List.nodup_cons.mp distinct
      rw [totalWhere_cons, totalWhere_cons]
      rcases List.mem_cons.mp member with rfl | later
      · have unchanged : totalWhere counts figure' rest = totalWhere counts figure rest := by
          refine totalWhere_congr fun other inRest => ?_
          have differ : other ≠ record := by
            rintro rfl
            exact fresh inRest
          simp only [part, same other (List.mem_cons_of_mem _ inRest) differ]
        omega
      · have differ : first ≠ record := by
          rintro rfl
          exact fresh later
        have unchanged : part counts figure' first = part counts figure first := by
          simp only [part, same first List.mem_cons_self differ]
        have := ih restDistinct later fun other inRest =>
          same other (List.mem_cons_of_mem _ inRest)
        omega

theorem InOrder.nodup {records : List α} (ordered : InOrder epoch records) : records.Nodup := by
  refine List.Pairwise.imp ?_ ordered
  rintro record other before rfl
  exact Nat.lt_irrefl _ before

/-! ## Writing a record -/

def atEpoch? (epoch : α → Epoch) (records : List α) (e : Epoch) : Option α :=
  records.find? fun record => epoch record == e

theorem atEpoch?_eq_some {records : List α} {e : Epoch} {record : α}
    (found : atEpoch? epoch records e = some record) : record ∈ records ∧ epoch record = e :=
  ⟨List.mem_of_find?_eq_some found, by simpa using List.find?_some found⟩

theorem InOrder.atEpoch? {records : List α} (ordered : InOrder epoch records) {record : α}
    (member : record ∈ records) : atEpoch? epoch records (epoch record) = some record := by
  induction records with
  | nil => cases member
  | cons first rest ih =>
      have ⟨below, restOrdered⟩ := List.pairwise_cons.mp ordered
      rcases List.mem_cons.mp member with rfl | later
      · simp [LiquidStaking.atEpoch?]
      · have := below record later
        have differ : (epoch first == epoch record) = false := by
          simp only [beq_eq_false_iff_ne, ne_eq]
          lia
        simpa [LiquidStaking.atEpoch?, differ] using ih restOrdered later

theorem mem_putByEpoch {record other : α} {records : List α}
    (member : other ∈ putByEpoch epoch record records) : other = record ∨ other ∈ records := by
  induction records with
  | nil => simpa [putByEpoch] using member
  | cons first rest ih =>
      simp only [putByEpoch] at member
      split at member
      · simpa using member
      · split at member
        · rcases List.mem_cons.mp member with rfl | later
          · exact .inl rfl
          · exact .inr (List.mem_cons_of_mem _ later)
        · rcases List.mem_cons.mp member with rfl | later
          · exact .inr List.mem_cons_self
          · exact (ih later).imp_right (List.mem_cons_of_mem _)

theorem InOrder.putByEpoch {records : List α} (ordered : InOrder epoch records) (record : α) :
    InOrder epoch (putByEpoch epoch record records) := by
  induction records with
  | nil => exact List.pairwise_singleton _ _
  | cons first rest ih =>
      have ⟨below, restOrdered⟩ := List.pairwise_cons.mp ordered
      simp only [LiquidStaking.putByEpoch]
      split
      · rename_i before
        refine List.pairwise_cons.mpr ⟨fun other member => ?_, ordered⟩
        rcases List.mem_cons.mp member with rfl | later
        · exact before
        · exact Nat.lt_trans before (below other later)
      · split
        · rename_i same
          exact List.pairwise_cons.mpr ⟨fun other later => same ▸ below other later, restOrdered⟩
        · refine List.pairwise_cons.mpr ⟨fun other member => ?_, ih restOrdered⟩
          rcases mem_putByEpoch member with rfl | later
          · lia
          · exact below other later

theorem atEpoch?_putByEpoch (epoch : α → Epoch) (record : α) (records : List α) (e : Epoch) :
    atEpoch? epoch (putByEpoch epoch record records) e =
      if epoch record = e then some record else atEpoch? epoch records e := by
  induction records with
  | nil => by_cases h : epoch record = e <;> simp [putByEpoch, atEpoch?, h]
  | cons first rest ih =>
      simp only [atEpoch?] at ih ⊢
      simp only [putByEpoch]
      split
      · by_cases h : epoch record = e <;> simp [h]
      · split
        · rename_i same
          by_cases h : epoch record = e
          · simp [h]
          · simp [h, ← same]
        · rename_i differ
          by_cases hFirst : epoch first = e
          · have : epoch record ≠ e := by lia
            simp [hFirst, this]
          · have skip : (epoch first == e) = false := by simpa using hFirst
            simp only [List.find?_cons, skip, ih]

theorem InOrder.totalWhere_putByEpoch {records : List α} (ordered : InOrder epoch records)
    (counts : α → Bool) (figure : α → Nat) (record : α) :
    totalWhere counts figure (LiquidStaking.putByEpoch epoch record records) +
        ((LiquidStaking.atEpoch? epoch records (epoch record)).elim 0 (part counts figure)) =
      totalWhere counts figure records + part counts figure record := by
  induction records with
  | nil => simp [LiquidStaking.putByEpoch, LiquidStaking.atEpoch?, totalWhere_cons]
  | cons first rest ih =>
      have ⟨below, restOrdered⟩ := List.pairwise_cons.mp ordered
      simp only [LiquidStaking.putByEpoch]
      split
      · rename_i before
        have absent : LiquidStaking.atEpoch? epoch (first :: rest) (epoch record) = none := by
          refine List.find?_eq_none.mpr fun other member => ?_
          rcases List.mem_cons.mp member with rfl | later
          · simp only [beq_iff_eq]
            lia
          · have := below other later
            simp only [beq_iff_eq]
            lia
        rw [absent]
        simp only [Option.elim_none, totalWhere_cons]
        lia
      · split
        · rename_i same
          simp only [LiquidStaking.atEpoch?, same, List.find?_cons, beq_self_eq_true,
            Option.elim_some, totalWhere_cons]
          lia
        · rename_i differ
          have skip : (epoch first == epoch record) = false := by
            simp only [beq_eq_false_iff_ne, ne_eq]
            lia
          have := ih restOrdered
          simp only [LiquidStaking.atEpoch?] at this ⊢
          simp only [totalWhere_cons, List.find?_cons, skip]
          lia

end LiquidStaking
