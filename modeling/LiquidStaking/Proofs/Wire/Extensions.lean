import LiquidStaking.Proofs.Ordered
import LiquidStaking.Proofs.Wire.Messages

/-!
# Fields nobody knows

Later versions of a message have more fields.  A reader passes over them, at every level of a
report: two messages that differ in such fields are read alike, and one is refused where the
other is.
-/

namespace LiquidStaking.Wire

variable {α β : Type} {bytes bytes' : Bytes} {depth : Nat} {known : List Nat}
  {inner : Nat → Bytes → Bytes → Prop} {fields fields' : List Field}

theorem rel_bind {R : α → α → Prop} {S : β → β → Prop} {x y : Option α} {f g : α → Option β}
    (alike : Option.Rel R x y) (each : ∀ {a b}, R a b → Option.Rel S (f a) (g b)) :
    Option.Rel S (x.bind f) (y.bind g) := by
  cases alike with
  | some related => exact each related
  | none => exact .none

theorem rel_map {R : α → α → Prop} {S : β → β → Prop} {x y : Option α} {f g : α → β}
    (alike : Option.Rel R x y) (each : ∀ {a b}, R a b → S (f a) (g b)) :
    Option.Rel S (x.map f) (y.map g) := by
  cases alike with
  | some related => exact .some (each related)
  | none => exact .none

theorem rel_self {R : α → α → Prop} (self : ∀ a, R a a) (x : Option α) : Option.Rel R x x := by
  cases x with
  | none => exact .none
  | some a => exact .some (self a)

theorem eq_of_rel {x y : Option α} (alike : Option.Rel Eq x y) : x = y := by
  cases alike with
  | some same => exact congrArg some same
  | none => rfl

/-- Fields with more of them put in between, of numbers that are not known; what fields of bytes
hold may grow in the same way. -/
inductive Padded (known : List Nat) (inner : Nat → Bytes → Bytes → Prop) :
    List Field → List Field → Prop
  | nil : Padded known inner [] []
  | more {field : Field} {fields fields' : List Field} (unknown : field.number ∉ known)
      (later : Padded known inner fields fields') :
      Padded known inner fields (field :: fields')
  | kept {field : Field} {fields fields' : List Field}
      (later : Padded known inner fields fields') :
      Padded known inner (field :: fields) (field :: fields')
  | inside {number : Nat} {bytes bytes' : Bytes} {fields fields' : List Field}
      (within : inner number bytes bytes') (later : Padded known inner fields fields') :
      Padded known inner (⟨number, .delimited bytes⟩ :: fields)
        (⟨number, .delimited bytes'⟩ :: fields')

theorem Padded.self (fields : List Field) : Padded known inner fields fields := by
  induction fields with
  | nil => exact .nil
  | cons field fields ih => exact .kept ih

def Extends (depth : Nat) (known : List Nat) (inner : Nat → Bytes → Bytes → Prop)
    (bytes bytes' : Bytes) : Prop :=
  ∃ fields fields', Written depth fields bytes ∧ Written depth fields' bytes' ∧
    Padded known inner fields fields'

/-- A step that passes over fields it does not know and cannot tell what grows inside. -/
structure Ignores (R : α → α → Prop) (known : List Nat) (inner : Nat → Bytes → Bytes → Prop)
    (step : α → Field → Option α) : Prop where
  passes : ∀ {a field}, field.number ∉ known → step a field = some a
  keeps : ∀ {a a'} field, R a a' → Option.Rel R (step a field) (step a' field)
  inside : ∀ {a a' number bytes bytes'}, inner number bytes bytes' → R a a' →
    Option.Rel R (step a ⟨number, .delimited bytes⟩) (step a' ⟨number, .delimited bytes'⟩)

namespace Ignores

variable {R : α → α → Prop} {step : α → Field → Option α} {start start' : α}

theorem fold (ignores : Ignores R known inner step) (padded : Padded known inner fields fields')
    (alike : R start start') :
    Option.Rel R (fields.foldlM step start) (fields'.foldlM step start') := by
  induction padded generalizing start start' with
  | nil => exact .some alike
  | more unknown later ih =>
      rw [List.foldlM_cons, ignores.passes unknown]
      exact ih alike
  | kept later ih => exact rel_bind (ignores.keeps _ alike) ih
  | inside within later ih => exact rel_bind (ignores.inside within alike) ih

theorem merge (ignores : Ignores R known inner step)
    (more : Extends (depth + 1) known inner bytes bytes') (alike : R start start') :
    Option.Rel R (merge? (depth + 1) step start bytes) (merge? (depth + 1) step start' bytes') := by
  obtain ⟨fields, fields', written, written', padded⟩ := more
  rw [merge?, fields?_eq_some.mpr written, merge?, fields?_eq_some.mpr written']
  exact ignores.fold padded alike

end Ignores

theorem Ignores.of_eq {step : α → Field → Option α}
    (passes : ∀ {a field}, field.number ∉ known → step a field = some a)
    (inside : ∀ {a number bytes bytes'}, inner number bytes bytes' →
      step a ⟨number, .delimited bytes⟩ = step a ⟨number, .delimited bytes'⟩) :
    Ignores Eq known inner step where
  passes := passes
  keeps := by
    rintro a _ field rfl
    exact rel_self (fun _ => rfl) _
  inside := by
    rintro a _ number bytes bytes' within rfl
    rw [inside within]
    exact rel_self (fun _ => rfl) _

/-! ## Level by level -/

def PlainExtends : Bytes → Bytes → Prop := Extends (maxDepth - 1) [1, 2] fun _ _ _ => False

/-- A response with more fields, which has messages of its own in field 1. -/
def ResponseExtends : Bytes → Bytes → Prop :=
  Extends maxDepth [1] fun number bytes bytes' => number = 1 ∧ PlainExtends bytes bytes'

def EntryExtends : Bytes → Bytes → Prop :=
  Extends (maxDepth - 1) [1, 2] fun number bytes bytes' => number = 2 ∧ ResponseExtends bytes bytes'

def ReportExtends : Bytes → Bytes → Prop :=
  Extends maxDepth [1, 2] fun _ => EntryExtends

theorem passes_of_takes {first : α → Payload → Option α} {second : β → Payload → Option β}
    {γ : Type} {pack : α → β → γ} {step : γ → Field → Option γ}
    (takes : Takes first second pack step) {known : γ} {field : Field}
    (unknown : field.number ∉ [1, 2]) : step known field = some known := by
  simp only [List.mem_cons, List.not_mem_nil, or_false, not_or] at unknown
  exact takes.other unknown.1 unknown.2

theorem Timestamp.read_extended (start : Timestamp) (more : PlainExtends bytes bytes') :
    merge? (maxDepth - 1) Timestamp.step start bytes =
      merge? (maxDepth - 1) Timestamp.step start bytes' :=
  eq_of_rel ((Ignores.of_eq (passes_of_takes Timestamp.takes) nofun).merge more rfl)

theorem CoinText.read_extended (start : CoinText) (more : PlainExtends bytes bytes') :
    merge? (maxDepth - 1) CoinText.step start bytes =
      merge? (maxDepth - 1) CoinText.step start bytes' :=
  eq_of_rel ((Ignores.of_eq (passes_of_takes CoinText.takes) nofun).merge more rfl)

theorem undelegated_ignores :
    Ignores Eq [1] (fun number bytes bytes' => number = 1 ∧ PlainExtends bytes bytes')
      undelegatedStep := by
  refine .of_eq (fun unknown => undelegatedStep_of_ne (by simpa using unknown)) ?_
  rintro found number bytes bytes' ⟨rfl, more⟩
  simp only [undelegatedStep, Field.bytes?, Option.bind_eq_bind, Option.bind_some,
    Timestamp.read_extended _ more]

theorem withdrawn_ignores :
    Ignores Eq [1] (fun number bytes bytes' => number = 1 ∧ PlainExtends bytes bytes')
      withdrawnStep := by
  refine .of_eq (fun unknown => withdrawnStep_of_ne (by simpa using unknown)) ?_
  rintro coins number bytes bytes' ⟨rfl, more⟩
  simp only [withdrawnStep, Field.bytes?, Option.bind_eq_bind, Option.bind_some,
    CoinText.read_extended _ more]

def Entry.Grown (entry entry' : Entry) : Prop :=
  entry.typeUrl = entry'.typeUrl ∧
    (entry.value = entry'.value ∨ ResponseExtends entry.value entry'.value)

theorem Entry.ignores :
    Ignores Entry.Grown [1, 2]
      (fun number bytes bytes' => number = 2 ∧ ResponseExtends bytes bytes') Entry.step where
  passes := passes_of_takes Entry.takes
  keeps := by
    intro entry entry' field grown
    unfold Entry.step
    split
    · exact rel_map (rel_self (fun _ => rfl) _) fun same => ⟨same, grown.2⟩
    · exact rel_map (rel_self (fun _ => rfl) _) fun same => ⟨grown.1, .inl same⟩
    · exact .some grown
  inside := by
    rintro entry entry' number bytes bytes' ⟨rfl, more⟩ grown
    exact .some ⟨grown.1, .inr more⟩

structure Report.Grown (report report' : Report) : Prop where
  legacy : List.Forall₂ Entry.Grown report.legacy report'.legacy
  responses : List.Forall₂ Entry.Grown report.responses report'.responses

theorem Report.step_grown {report report' : Report} {number : Nat} {payload payload' : Payload}
    (grown : report.Grown report')
    (entries : Option.Rel Entry.Grown (entryIn? number payload) (entryIn? number payload')) :
    Option.Rel Report.Grown (report.step ⟨number, payload⟩) (report'.step ⟨number, payload'⟩) := by
  simp only [Report.step]
  split
  · exact rel_map entries fun entry =>
      ⟨List.rel_append grown.legacy (.cons entry .nil), grown.responses⟩
  · exact rel_map entries fun entry =>
      ⟨grown.legacy, List.rel_append grown.responses (.cons entry .nil)⟩
  · exact .some grown

theorem Report.ignores : Ignores Report.Grown [1, 2] (fun _ => EntryExtends) Report.step where
  passes := passes_of_takes Report.takes
  keeps _ grown := Report.step_grown grown (rel_self (fun _ => ⟨rfl, .inl rfl⟩) _)
  inside more grown := Report.step_grown grown (Entry.ignores.merge more ⟨rfl, .inl rfl⟩)

/-! ## Reports -/

theorem receipt?_grown (denom : Denom) {entry entry' : Entry} (grown : entry.Grown entry') :
    receipt? denom entry = receipt? denom entry' := by
  -- the same payload, or one that is read alike whichever response it is
  obtain ⟨url, same | more⟩ := grown
  · rw [receipt?, url, same, receipt?]
  · have undelegated : merge? maxDepth undelegatedStep none entry.value =
        merge? maxDepth undelegatedStep none entry'.value :=
      eq_of_rel (undelegated_ignores.merge more rfl)
    have withdrawn : merge? maxDepth withdrawnStep [] entry.value =
        merge? maxDepth withdrawnStep [] entry'.value :=
      eq_of_rel (withdrawn_ignores.merge more rfl)
    rw [receipt?, url, undelegated, withdrawn, receipt?]

theorem receipts?_extended (denom : Denom) (more : ReportExtends bytes bytes') :
    receipts? denom bytes = receipts? denom bytes' := by
  have empty : Report.Grown ⟨[], []⟩ ⟨[], []⟩ := ⟨.nil, .nil⟩
  refine eq_of_rel (rel_bind (Report.ignores.merge more empty) ?_)
  intro report report' grown
  have entries := (List.rel_append grown.responses grown.legacy).imp
    fun _ _ alike => receipt?_grown denom alike
  rw [mapM_congr entries]
  exact rel_self (fun _ => rfl) _

end LiquidStaking.Wire
