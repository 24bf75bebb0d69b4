import LiquidStaking.Proofs.Wire.Fields
import LiquidStaking.Wire.Acknowledgement
import Mathlib.Data.List.Forall2

/-!
# Messages on the wire

What a message says, by its fields and not by a way through them: where a field holds one value
the last of its number counts, repeated fields are a list, and a message within another that
comes in several parts is what its parts say one after the other.  Fields of other numbers say
nothing.  Messages are read as exactly that.
-/

namespace LiquidStaking

theorem Bytes.toText?_eq_some {bytes : Bytes} {text : String} :
    Bytes.toText? bytes = some text ↔ bytes = Bytes.ofText text := by
  constructor
  · intro read
    unfold Bytes.toText? String.fromUTF8? at read
    split at read
    · cases read
      rfl
    · cases read
  · rintro rfl
    exact Bytes.toText?_ofText text

namespace Wire

variable {α β γ : Type} {bytes : Bytes} {depth number : Nat} {payload : Payload}
  {payloads : List Payload} {fields : List Field}

/-! ## What a message states -/

def held (number : Nat) (fields : List Field) : List Payload :=
  (fields.filter fun field => field.number = number).map Field.payload

@[simp] theorem held_nil : held number [] = [] := rfl

theorem held_cons_self :
    held number (⟨number, payload⟩ :: fields) = payload :: held number fields := by
  simp [held]

theorem held_cons_of_ne {other : Nat} (differs : other ≠ number) :
    held number (⟨other, payload⟩ :: fields) = held number fields := by
  simp [held, differs]

theorem held_append (front back : List Field) :
    held number (front ++ back) = held number front ++ held number back := by
  simp [held]

/-- One value, which is the last there is, or `absent`. -/
def Single (make : α → Payload) (absent : α) (number : Nat) (value : α) (fields : List Field) :
    Prop :=
  ∃ values : List α, held number fields = values.map make ∧ value = values.getLastD absent

theorem Single.absent_or_mem {make : α → Payload} {absent value : α}
    (single : Single make absent number value fields) :
    value = absent ∨ make value ∈ held number fields := by
  obtain ⟨values, all, last⟩ := single
  rcases List.eq_nil_or_concat values with rfl | ⟨before, v, rfl⟩
  · exact .inl last
  · rw [List.concat_eq_append, List.getLastD_concat] at last
    rw [all, last]
    exact .inr (List.mem_map_of_mem (by simp))

/-- The fields of a message, and what they state. -/
def Encodes (depth : Nat) (stated : α → List Field → Prop) (value : α) (bytes : Bytes) : Prop :=
  ∃ fields, Written depth fields bytes ∧ stated value fields

def Nested (stated : α → List Field → Prop) (value : α) (payload : Payload) : Prop :=
  ∃ bytes, payload = .delimited bytes ∧ Encodes (maxDepth - 1) stated value bytes

def Repeated (stated : α → List Field → Prop) (number : Nat) (values : List α)
    (fields : List Field) : Prop :=
  List.Forall₂ (Nested stated) values (held number fields)

/-- One message within another, in any number of parts. -/
inductive Merged (stated : α → List Field → Prop) (number : Nat) : Option α → List Field → Prop
  | absent {fields : List Field} (nothing : held number fields = []) :
      Merged stated number none fields
  | present {value : α} {fields : List Field} (parts : List (List Field)) (some : parts ≠ [])
      (split : Repeated Eq number parts fields) (whole : stated value parts.flatten) :
      Merged stated number (Option.some value) fields

def Payload.ofText (text : String) : Payload := .delimited (Bytes.ofText text)

structure Timestamp.Stated (time : Timestamp) (fields : List Field) : Prop where
  seconds : Single .varint 0 1 time.seconds fields
  nanos : Single .varint 0 2 time.nanos fields

structure CoinText.Stated (coin : CoinText) (fields : List Field) : Prop where
  denom : Single .ofText "" 1 coin.denom fields
  amount : Single .ofText "" 2 coin.amount fields

structure Entry.Stated (entry : Entry) (fields : List Field) : Prop where
  typeUrl : Single .ofText "" 1 entry.typeUrl fields
  value : Single .delimited [] 2 entry.value fields

structure Report.Stated (report : Report) (fields : List Field) : Prop where
  legacy : Repeated Entry.Stated 1 report.legacy fields
  responses : Repeated Entry.Stated 2 report.responses fields

/-! ## Field by field -/

structure Takes (first : α → Payload → Option α) (second : β → Payload → Option β)
    (pack : α → β → γ) (step : γ → Field → Option γ) : Prop where
  one : ∀ {a b payload}, step (pack a b) ⟨1, payload⟩ = (first a payload).map (pack · b)
  two : ∀ {a b payload}, step (pack a b) ⟨2, payload⟩ = (second b payload).map (pack a)
  other : ∀ {known number payload}, number ≠ 1 → number ≠ 2 →
    step known ⟨number, payload⟩ = some known

theorem Takes.fold {first : α → Payload → Option α} {second : β → Payload → Option β}
    {pack : α → β → γ} {step : γ → Field → Option γ} (takes : Takes first second pack step)
    {a : α} {b : β} {result : γ} :
    fields.foldlM step (pack a b) = some result ↔
      ∃ a' b', (held 1 fields).foldlM first a = some a' ∧
        (held 2 fields).foldlM second b = some b' ∧ pack a' b' = result := by
  -- a field goes to the side of its number, and the other side does not see it
  induction fields generalizing a b with
  | nil => simp
  | cons field fields ih =>
      obtain ⟨number, payload⟩ := field
      rw [List.foldlM_cons, Option.bind_eq_bind, Option.bind_eq_some_iff]
      by_cases isFirst : number = 1
      · subst isFirst
        simp only [takes.one, held_cons_self, held_cons_of_ne (show 1 ≠ 2 by decide),
          List.foldlM_cons, Option.bind_eq_bind, Option.map_eq_some_iff, Option.bind_eq_some_iff]
        constructor
        · rintro ⟨-, ⟨taken, read, rfl⟩, later⟩
          obtain ⟨a', b', one, two, same⟩ := ih.mp later
          exact ⟨a', b', ⟨taken, read, one⟩, two, same⟩
        · rintro ⟨a', b', ⟨taken, read, one⟩, two, same⟩
          exact ⟨_, ⟨taken, read, rfl⟩, ih.mpr ⟨a', b', one, two, same⟩⟩
      by_cases isSecond : number = 2
      · subst isSecond
        simp only [takes.two, held_cons_self, held_cons_of_ne (show 2 ≠ 1 by decide),
          List.foldlM_cons, Option.bind_eq_bind, Option.map_eq_some_iff, Option.bind_eq_some_iff]
        constructor
        · rintro ⟨-, ⟨taken, read, rfl⟩, later⟩
          obtain ⟨a', b', one, two, same⟩ := ih.mp later
          exact ⟨a', b', one, ⟨taken, read, two⟩, same⟩
        · rintro ⟨a', b', one, ⟨taken, read, two⟩, same⟩
          exact ⟨_, ⟨taken, read, rfl⟩, ih.mpr ⟨a', b', one, two, same⟩⟩
      simp only [takes.other isFirst isSecond, Option.some.injEq, exists_eq_left', ih,
        held_cons_of_ne isFirst, held_cons_of_ne isSecond]

theorem foldlM_held (number : Nat) {step : α → Field → Option α} {start : α}
    (passes : ∀ {known other payload}, other ≠ number →
      step known ⟨other, payload⟩ = some known) :
    fields.foldlM step start =
      (held number fields).foldlM (fun known payload => step known ⟨number, payload⟩) start := by
  induction fields generalizing start with
  | nil => rfl
  | cons field fields ih =>
      obtain ⟨other, payload⟩ := field
      by_cases same : other = number
      · subst same
        simp only [List.foldlM_cons, held_cons_self, ih]
      · rw [List.foldlM_cons, passes same, held_cons_of_ne same]
        exact ih

theorem foldlM_single {read : Payload → Option α} {make : α → Payload} {absent value : α}
    (reads : ∀ {payload v}, read payload = some v ↔ payload = make v) :
    payloads.foldlM (fun _ => read) absent = some value ↔
      ∃ values : List α, payloads = values.map make ∧ value = values.getLastD absent := by
  induction payloads generalizing absent with
  | nil =>
      constructor
      · intro same
        cases same
        exact ⟨[], rfl, rfl⟩
      · rintro ⟨values, none, rfl⟩
        rw [List.map_eq_nil_iff.mp none.symm]
        rfl
  | cons payload payloads ih =>
      simp only [List.foldlM_cons, Option.bind_eq_bind, Option.bind_eq_some_iff, reads, ih]
      constructor
      · rintro ⟨first, rfl, later, rfl, last⟩
        exact ⟨first :: later, rfl, by rw [List.getLastD_cons, last]⟩
      · rintro ⟨values, all, last⟩
        obtain ⟨first, later, rfl, rfl, rfl⟩ := List.map_eq_cons_iff.mp all.symm
        exact ⟨first, rfl, later, rfl, by rw [last, List.getLastD_cons]⟩

theorem foldlM_collect {read : Payload → Option α} {start values : List α} :
    payloads.foldlM (fun found payload => (read payload).map fun v => found ++ [v]) start =
        some values ↔
      ∃ found, values = start ++ found ∧
        List.Forall₂ (fun v payload => read payload = some v) found payloads := by
  induction payloads generalizing start with
  | nil =>
      simp [List.forall₂_nil_right_iff, eq_comm]
  | cons payload payloads ih =>
      simp only [List.foldlM_cons, Option.bind_eq_bind, Option.bind_eq_some_iff,
        Option.map_eq_some_iff, ih]
      constructor
      · rintro ⟨-, ⟨first, read, rfl⟩, later, rfl, all⟩
        exact ⟨first :: later, by rw [List.append_assoc, List.singleton_append], .cons read all⟩
      · rintro ⟨found, rfl, all⟩
        obtain ⟨first, later, read, rest, rfl⟩ := List.forall₂_cons_right_iff.mp all
        exact ⟨_, ⟨first, read, rfl⟩, later,
          by rw [List.append_assoc, List.singleton_append], rest⟩

/-! ## Values -/

theorem Field.number?_eq_some {n : Nat} :
    Field.number? ⟨number, payload⟩ = some n ↔ payload = .varint n := by
  cases payload <;> simp [Field.number?]

theorem Field.bytes?_eq_some :
    Field.bytes? ⟨number, payload⟩ = some bytes ↔ payload = .delimited bytes := by
  cases payload <;> simp [Field.bytes?]

theorem Field.text?_eq_some {text : String} :
    Field.text? ⟨number, payload⟩ = some text ↔ payload = .ofText text := by
  simp only [Field.text?, Option.bind_eq_some_iff, Field.bytes?_eq_some, Bytes.toText?_eq_some,
    Payload.ofText, exists_eq_right]

theorem Timestamp.takes : Takes (fun _ payload => Field.number? ⟨1, payload⟩)
    (fun _ payload => Field.number? ⟨2, payload⟩) Timestamp.mk Timestamp.step where
  one := rfl
  two := rfl
  other notOne notTwo := by simp [Timestamp.step]

theorem CoinText.takes : Takes (fun _ payload => Field.text? ⟨1, payload⟩)
    (fun _ payload => Field.text? ⟨2, payload⟩) CoinText.mk CoinText.step where
  one := rfl
  two := rfl
  other notOne notTwo := by simp [CoinText.step]

theorem Entry.takes : Takes (fun _ payload => Field.text? ⟨1, payload⟩)
    (fun _ payload => Field.bytes? ⟨2, payload⟩) Entry.mk Entry.step where
  one := rfl
  two := rfl
  other notOne notTwo := by simp [Entry.step]

theorem Timestamp.fold {time : Timestamp} :
    fields.foldlM Timestamp.step ⟨0, 0⟩ = some time ↔ time.Stated fields := by
  rw [Timestamp.takes.fold]
  simp only [foldlM_single Field.number?_eq_some]
  constructor
  · rintro ⟨seconds, nanos, one, two, rfl⟩
    exact ⟨one, two⟩
  · rintro ⟨one, two⟩
    exact ⟨_, _, one, two, rfl⟩

theorem CoinText.fold {coin : CoinText} :
    fields.foldlM CoinText.step ⟨"", ""⟩ = some coin ↔ coin.Stated fields := by
  rw [CoinText.takes.fold]
  simp only [foldlM_single Field.text?_eq_some]
  constructor
  · rintro ⟨denom, amount, one, two, rfl⟩
    exact ⟨one, two⟩
  · rintro ⟨one, two⟩
    exact ⟨_, _, one, two, rfl⟩

theorem Entry.fold {entry : Entry} :
    fields.foldlM Entry.step ⟨"", []⟩ = some entry ↔ entry.Stated fields := by
  rw [Entry.takes.fold]
  simp only [foldlM_single Field.text?_eq_some, foldlM_single Field.bytes?_eq_some]
  constructor
  · rintro ⟨typeUrl, value, one, two, rfl⟩
    exact ⟨one, two⟩
  · rintro ⟨one, two⟩
    exact ⟨_, _, one, two, rfl⟩

/-! ## Messages within messages -/

theorem merge?_eq_some {step : α → Field → Option α} {start value : α}
    {stated : α → List Field → Prop}
    (folds : ∀ {fields value}, fields.foldlM step start = some value ↔ stated value fields) :
    merge? (depth + 1) step start bytes = some value ↔ Encodes (depth + 1) stated value bytes := by
  simp only [merge?, Option.bind_eq_some_iff, fields?_eq_some, folds, Encodes]

theorem nested_eq_some {step : α → Field → Option α} {start value : α}
    {stated : α → List Field → Prop}
    (folds : ∀ {fields value}, fields.foldlM step start = some value ↔ stated value fields) :
    (Field.bytes? ⟨number, payload⟩).bind (merge? (maxDepth - 1) step start) = some value ↔
      Nested stated value payload := by
  simp only [Option.bind_eq_some_iff, Field.bytes?_eq_some, Nested]
  exact exists_congr fun bytes => and_congr_right fun _ => merge?_eq_some folds

def entryIn? (number : Nat) (payload : Payload) : Option Entry :=
  (Field.bytes? ⟨number, payload⟩).bind (merge? (maxDepth - 1) Entry.step ⟨"", []⟩)

theorem Report.takes : Takes
    (fun found payload => (entryIn? 1 payload).map fun entry => found ++ [entry])
    (fun found payload => (entryIn? 2 payload).map fun entry => found ++ [entry])
    Report.mk Report.step where
  one := by simp [Report.step, entryIn?, Function.comp_def]
  two := by simp [Report.step, entryIn?, Function.comp_def]
  other notOne notTwo := by simp [Report.step]

theorem Report.fold {report : Report} :
    fields.foldlM Report.step ⟨[], []⟩ = some report ↔ report.Stated fields := by
  rw [Report.takes.fold]
  simp only [foldlM_collect, List.nil_append, entryIn?, nested_eq_some Entry.fold,
    exists_eq_left']
  constructor
  · rintro ⟨legacy, responses, one, two, rfl⟩
    exact ⟨one, two⟩
  · rintro ⟨one, two⟩
    exact ⟨_, _, one, two, rfl⟩

def coinIn? (payload : Payload) : Option CoinText :=
  (Field.bytes? ⟨1, payload⟩).bind (merge? (maxDepth - 1) CoinText.step ⟨"", ""⟩)

theorem withdrawnStep_of_ne {known : List CoinText} (other : number ≠ 1) :
    withdrawnStep known ⟨number, payload⟩ = some known := by
  simp [withdrawnStep]

theorem withdrawn_fold {coins : List CoinText} :
    fields.foldlM withdrawnStep [] = some coins ↔ Repeated CoinText.Stated 1 coins fields := by
  have collects : (fun known payload => withdrawnStep known ⟨1, payload⟩) =
      fun found payload => (coinIn? payload).map fun coin => found ++ [coin] := by
    funext found payload
    rw [coinIn?, Option.map_eq_bind, Option.bind_assoc]
    rfl
  rw [foldlM_held 1 withdrawnStep_of_ne, collects]
  simp only [foldlM_collect, List.nil_append, coinIn?, nested_eq_some CoinText.fold,
    exists_eq_left', Repeated]

theorem undelegatedStep_of_ne {known : Option Timestamp} (other : number ≠ 1) :
    undelegatedStep known ⟨number, payload⟩ = some known := by
  simp [undelegatedStep]

theorem undelegatedStep_eq_some {known found : Option Timestamp} :
    undelegatedStep known ⟨1, payload⟩ = some found ↔
      ∃ part time, Nested Eq part payload ∧
        part.foldlM Timestamp.step (known.getD ⟨0, 0⟩) = some time ∧ found = some time := by
  simp only [undelegatedStep, merge?, Option.bind_eq_bind, Option.bind_eq_some_iff,
    Field.bytes?_eq_some, Option.pure_def, Option.some.injEq, Nested, Encodes]
  constructor
  · rintro ⟨bytes, held, time, ⟨part, read, folded⟩, rfl⟩
    exact ⟨part, time, ⟨bytes, held, part, fields?_eq_some.mp read, rfl⟩, folded, rfl⟩
  · rintro ⟨_, time, ⟨bytes, held, part, written, rfl⟩, folded, rfl⟩
    exact ⟨bytes, held, time, ⟨_, fields?_eq_some.mpr written, folded⟩, rfl⟩

theorem undelegated_parts {start : Timestamp} {found : Option Timestamp} :
    payloads.foldlM (fun known payload => undelegatedStep known ⟨1, payload⟩) (some start) =
        some found ↔
      ∃ parts time, List.Forall₂ (Nested Eq) parts payloads ∧
        parts.flatten.foldlM Timestamp.step start = some time ∧ found = some time := by
  induction payloads generalizing start with
  | nil => simp [List.forall₂_nil_right_iff, eq_comm]
  | cons payload payloads ih =>
      simp only [List.foldlM_cons, Option.bind_eq_bind, Option.bind_eq_some_iff,
        undelegatedStep_eq_some, Option.getD_some]
      constructor
      · rintro ⟨-, ⟨part, time, own, taken, rfl⟩, later⟩
        obtain ⟨parts, last, split, rest, rfl⟩ := ih.mp later
        refine ⟨part :: parts, last, .cons own split, ?_, rfl⟩
        rw [List.flatten_cons, List.foldlM_append, taken]
        exact rest
      · rintro ⟨all, last, split, folded, rfl⟩
        obtain ⟨part, parts, own, rest, rfl⟩ := List.forall₂_cons_right_iff.mp split
        rw [List.flatten_cons, List.foldlM_append, Option.bind_eq_bind,
          Option.bind_eq_some_iff] at folded
        obtain ⟨time, taken, later⟩ := folded
        exact ⟨_, ⟨part, time, own, taken, rfl⟩, ih.mpr ⟨parts, last, rest, later, rfl⟩⟩

theorem undelegated_fold {found : Option Timestamp} :
    fields.foldlM undelegatedStep none = some found ↔ Merged Timestamp.Stated 1 found fields := by
  rw [foldlM_held 1 undelegatedStep_of_ne]
  cases split : held 1 fields with
  | nil =>
      constructor
      · intro same
        cases same
        exact .absent split
      · intro merged
        cases merged with
        | absent nothing => rfl
        | present parts some all whole =>
            rw [Repeated, split] at all
            exact absurd (List.forall₂_nil_right_iff.mp all) some
  | cons payload payloads =>
      -- the first part starts from a time that says nothing
      have first : (payload :: payloads).foldlM
          (fun known payload => undelegatedStep known ⟨1, payload⟩) none =
          (payload :: payloads).foldlM
            (fun known payload => undelegatedStep known ⟨1, payload⟩) (some ⟨0, 0⟩) := rfl
      rw [first, undelegated_parts, ← split]
      constructor
      · rintro ⟨parts, time, all, whole, rfl⟩
        have present : parts ≠ [] := by
          rintro rfl
          rw [split] at all
          cases all
        exact .present parts present all (Timestamp.fold.mp whole)
      · intro merged
        cases merged with
        | absent nothing =>
            rw [nothing] at split
            cases split
        | present parts _ all whole => exact ⟨parts, _, all, Timestamp.fold.mpr whole, rfl⟩

end Wire

end LiquidStaking
