import LiquidStaking.Proofs.Arithmetic
import LiquidStaking.Wire.Field

/-!
# Fields on the wire

What the bytes of a message are, said without a reader: numbers of seven bits a byte, keys, what
follows a key, and fields one after the other, those of a group between its two keys and one
level further down.  The reader takes exactly such bytes, and tells the fields in them.
-/

namespace LiquidStaking.Wire

open Width

variable {bytes rest front : Bytes} {n number shape depth : Nat} {payload : Payload}
  {fields : List Field}

/-! ## Numbers -/

/-- Seven bits a byte, the lowest first; all bytes but the last have the high bit set. -/
inductive Spells : Nat → Bytes → Prop
  | last {byte : UInt8} (ends : byte.toNat < 128) : Spells byte.toNat [byte]
  | more {byte : UInt8} {n : Nat} {rest : Bytes} (goes : 128 ≤ byte.toNat) (later : Spells n rest) :
      Spells (byte.toNat - 128 + 128 * n) (byte :: rest)

structure Number (n : Nat) (bytes : Bytes) : Prop where
  spelled : Spells n bytes
  short : bytes.length ≤ 10
  fits : n < limit 64

theorem Spells.length_pos (spelled : Spells n bytes) : 0 < bytes.length := by
  cases spelled <;> exact Nat.succ_pos _

theorem limit_further {more : Nat} (several : 0 < more) :
    limit (7 * (more + 1 - 1) + 1) = 128 * limit (7 * (more - 1) + 1) := by
  have bits : 7 * (more + 1 - 1) + 1 = 7 + (7 * (more - 1) + 1) := by omega
  rw [bits, ← limit_mul]
  rfl

/-- The room that is left for a number shrinks with every byte, and the last one has one bit. -/
theorem Spells.read (spelled : Spells n front) {more : Nat} (short : front.length ≤ more)
    (fits : n < limit (7 * (more - 1) + 1)) (rest : Bytes) :
    varintWithin? more (front ++ rest) = some (n, rest) := by
  induction spelled generalizing more with
  | @last byte ends =>
      obtain ⟨more, rfl⟩ := Nat.exists_eq_succ_of_ne_zero (Nat.ne_zero_of_lt short)
      have room : ¬(more = 0 ∧ 2 ≤ byte.toNat) := by
        rintro ⟨rfl, two⟩
        exact absurd fits (Nat.not_lt.mpr two)
      rw [List.singleton_append, varintWithin?, if_pos ends, if_neg room]
  | more goes later ih =>
      obtain ⟨more, rfl⟩ := Nat.exists_eq_succ_of_ne_zero (Nat.ne_zero_of_lt short)
      have short := Nat.le_of_succ_le_succ short
      rw [Nat.succ_eq_add_one, limit_further (Nat.lt_of_lt_of_le later.length_pos short)] at fits
      rw [List.cons_append, varintWithin?, if_neg (Nat.not_lt.mpr goes), ih short (by omega)]
      rfl

theorem varintWithin?_spells {more : Nat} (read : varintWithin? more bytes = some (n, rest)) :
    ∃ front, bytes = front ++ rest ∧ Spells n front ∧ front.length ≤ more ∧
      n < limit (7 * (more - 1) + 1) := by
  induction more generalizing bytes n with
  | zero => cases read
  | succ more ih =>
      cases bytes with
      | nil => cases read
      | cons byte tail =>
          have top := byte.toNat_lt
          rw [varintWithin?] at read
          split at read
          · rename_i ends
            split at read
            · cases read
            · rename_i room
              cases read
              refine ⟨[byte], rfl, .last ends, Nat.succ_pos _, ?_⟩
              by_cases none : more = 0
              · subst none
                exact Nat.lt_of_not_le fun two => room ⟨rfl, two⟩
              · have := limit_pos (7 * (more - 1) + 1)
                rw [limit_further (Nat.pos_of_ne_zero none)]
                omega
          · rename_i goes
            obtain ⟨⟨m, left⟩, later, same⟩ := Option.map_eq_some_iff.mp read
            cases same
            obtain ⟨front, rfl, spelled, short, fits⟩ := ih later
            refine ⟨byte :: front, rfl, .more (Nat.le_of_not_lt goes) spelled,
              Nat.succ_le_succ short, ?_⟩
            rw [limit_further (Nat.lt_of_lt_of_le spelled.length_pos short)]
            omega

theorem Number.read (number : Number n front) (rest : Bytes) :
    varint? (front ++ rest) = some (n, rest) :=
  number.spelled.read number.short number.fits rest

theorem varint?_eq_some :
    varint? bytes = some (n, rest) ↔ ∃ front, bytes = front ++ rest ∧ Number n front := by
  constructor
  · intro read
    obtain ⟨front, split, spelled, short, fits⟩ := varintWithin?_spells read
    exact ⟨front, split, spelled, short, fits⟩
  · rintro ⟨front, rfl, number⟩
    exact number.read rest

/-! ## Keys and what follows them -/

/-- The key of a field: its number, which is not zero, and the code of its shape. -/
structure Opens (number shape : Nat) (bytes : Bytes) : Prop where
  spelled : Number (number * 8 + shape) bytes
  shaped : shape < 8
  numbered : 0 < number
  fits : number * 8 + shape < limit 32

theorem Opens.read (opens : Opens number shape front) (rest : Bytes) :
    key? (front ++ rest) = some ((number, shape), rest) := by
  have shaped := opens.shaped
  have parts : (number * 8 + shape) / 8 = number ∧ (number * 8 + shape) % 8 = shape := by omega
  simp only [key?, opens.spelled.read, Option.bind_eq_bind, Option.bind_some, parts]
  exact if_pos ⟨opens.fits, Nat.ne_of_gt opens.numbered⟩

theorem key?_eq_some :
    key? bytes = some ((number, shape), rest) ↔
      ∃ front, bytes = front ++ rest ∧ Opens number shape front := by
  constructor
  · intro read
    simp only [key?, Option.bind_eq_bind, Option.bind_eq_some_iff] at read
    obtain ⟨⟨key, left⟩, read, kept⟩ := read
    obtain ⟨front, rfl, spelled⟩ := varint?_eq_some.mp read
    split at kept
    · rename_i valid
      cases kept
      have whole : key / 8 * 8 + key % 8 = key := by omega
      exact ⟨front, rfl, by rwa [whole], by omega, by omega, by rw [whole]; exact valid.1⟩
    · cases kept
  · rintro ⟨front, rfl, opens⟩
    exact opens.read rest

theorem Opens.length_pos (opens : Opens number shape front) : 0 < front.length :=
  opens.spelled.spelled.length_pos

/-- What follows the key of a field that is no group, by the shape that the key tells. -/
inductive Holds : Nat → Payload → Bytes → Prop
  | varint {n : Nat} {bytes : Bytes} (spelled : Number n bytes) : Holds 0 (.varint n) bytes
  | fixed64 {bytes : Bytes} (eight : bytes.length = 8) : Holds 1 (.fixed64 bytes) bytes
  | delimited {front body : Bytes} (spelled : Number body.length front) :
      Holds 2 (.delimited body) (front ++ body)
  | fixed32 {bytes : Bytes} (four : bytes.length = 4) : Holds 5 (.fixed32 bytes) bytes

theorem take?_eq_some {count : Nat} :
    take? count bytes = some (front, rest) ↔ bytes = front ++ rest ∧ front.length = count := by
  unfold take?
  constructor
  · intro taken
    split at taken
    · rename_i enough
      cases taken
      exact ⟨(List.take_append_drop count bytes).symm, List.length_take_of_le enough⟩
    · cases taken
  · rintro ⟨rfl, rfl⟩
    simp

theorem take?_append (front rest : Bytes) :
    take? front.length (front ++ rest) = some (front, rest) :=
  take?_eq_some.mpr ⟨rfl, rfl⟩

theorem Holds.read (held : Holds shape payload front) (rest : Bytes) :
    scalar? shape (front ++ rest) = some (payload, rest) := by
  cases held with
  | varint spelled => simp [scalar?, spelled.read]
  | fixed64 eight => simp [scalar?, ← eight, take?_append]
  | delimited spelled => simp [scalar?, List.append_assoc, spelled.read, take?_append]
  | fixed32 four => simp [scalar?, ← four, take?_append]

theorem scalar?_eq_some :
    scalar? shape bytes = some (payload, rest) ↔
      ∃ front, bytes = front ++ rest ∧ Holds shape payload front := by
  constructor
  · intro read
    unfold scalar? at read
    split at read
    · obtain ⟨⟨n, left⟩, number, same⟩ := Option.map_eq_some_iff.mp read
      cases same
      obtain ⟨front, split, spelled⟩ := varint?_eq_some.mp number
      exact ⟨front, split, .varint spelled⟩
    · obtain ⟨⟨body, left⟩, taken, same⟩ := Option.map_eq_some_iff.mp read
      cases same
      obtain ⟨split, eight⟩ := take?_eq_some.mp taken
      exact ⟨body, split, .fixed64 eight⟩
    · simp only [Option.bind_eq_bind, Option.bind_eq_some_iff] at read
      obtain ⟨⟨length, left⟩, number, ⟨body, left'⟩, taken, same⟩ := read
      cases same
      obtain ⟨front, rfl, spelled⟩ := varint?_eq_some.mp number
      obtain ⟨rfl, rfl⟩ := take?_eq_some.mp taken
      exact ⟨front ++ body, (List.append_assoc ..).symm, .delimited spelled⟩
    · obtain ⟨⟨body, left⟩, taken, same⟩ := Option.map_eq_some_iff.mp read
      cases same
      obtain ⟨split, four⟩ := take?_eq_some.mp taken
      exact ⟨body, split, .fixed32 four⟩
    · cases read
  · rintro ⟨front, rfl, held⟩
    exact held.read rest

/-! ## Fields -/

/-- Fields one after the other.  The fields of a group stand between its keys, one level further
down, and below the last level there are none. -/
inductive Written : Nat → List Field → Bytes → Prop
  | nil {depth : Nat} : Written depth [] []
  | scalar {depth number shape : Nat} {payload : Payload} {key body rest : Bytes}
      {fields : List Field} (opens : Opens number shape key) (holds : Holds shape payload body)
      (later : Written (depth + 1) fields rest) :
      Written (depth + 1) (⟨number, payload⟩ :: fields) (key ++ body ++ rest)
  | group {depth number : Nat} {opening body closing rest : Bytes} {inner fields : List Field}
      (opens : Opens number 3 opening) (inside : Written depth inner body)
      (closes : Opens number 4 closing) (later : Written (depth + 1) fields rest) :
      Written (depth + 1) (⟨number, .group⟩ :: fields) (opening ++ body ++ closing ++ rest)

theorem Written.append {front back : List Field} (first : Written (depth + 1) front bytes)
    (second : Written (depth + 1) back rest) :
    Written (depth + 1) (front ++ back) (bytes ++ rest) := by
  generalize level : depth + 1 = below at first second
  induction first with
  | nil => exact second
  | scalar opens holds later ih =>
      rw [List.append_assoc]
      exact .scalar opens holds (ih level second)
  | group opens inside closes later ih ih' =>
      rw [List.append_assoc]
      exact .group opens inside closes (ih' level second)

theorem Written.varint_lt (written : Written depth fields bytes) {field : Field}
    (member : field ∈ fields) (holds : field.payload = .varint n) : n < limit 64 := by
  induction written with
  | nil => cases member
  | scalar opens own later ih =>
      rcases List.mem_cons.mp member with rfl | among
      · cases holds
        cases own with
        | varint spelled => exact spelled.fits
      · exact ih among
  | group opens inside closes later ih ih' =>
      rcases List.mem_cons.mp member with rfl | among
      · cases holds
      · exact ih' among

theorem Holds.shape_ne (held : Holds shape payload front) : shape ≠ 3 ∧ shape ≠ 4 := by
  cases held <;> decide

theorem Written.skip {inner : List Field} {body closing : Bytes}
    (written : Written depth inner body) (closes : Opens number 4 closing) (fuel : Nat)
    (enough : body.length < fuel) (rest : Bytes) :
    skipGroup? fuel depth number (body ++ closing ++ rest) = some rest := by
  -- a key takes at least one byte, so what is after it is shorter than the fuel that is left
  induction written generalizing number closing fuel rest with
  | nil =>
      obtain ⟨fuel, rfl⟩ := Nat.exists_eq_succ_of_ne_zero (Nat.ne_zero_of_lt enough)
      simp [skipGroup?, closes.read]
  | scalar opens holds later ih =>
      obtain ⟨fuel, rfl⟩ := Nat.exists_eq_succ_of_ne_zero (Nat.ne_zero_of_lt enough)
      have some := opens.length_pos
      simp only [List.length_append] at enough
      have after := ih closes fuel (by omega) rest
      rw [List.append_assoc] at after
      simp [skipGroup?, List.append_assoc, opens.read, holds.shape_ne, holds.read, after]
  | @group _ _ _ _ _ left _ _ opens inside closes' later ih ih' =>
      obtain ⟨fuel, rfl⟩ := Nat.exists_eq_succ_of_ne_zero (Nat.ne_zero_of_lt enough)
      have some := opens.length_pos
      simp only [List.length_append] at enough
      have within := ih closes' fuel (by omega) (left ++ closing ++ rest)
      have after := ih' closes fuel (by omega) rest
      simp only [List.append_assoc] at within after
      simp [skipGroup?, List.append_assoc, opens.read, within, after]

theorem skipGroup?_written {fuel : Nat} (skipped : skipGroup? fuel depth number bytes = some rest) :
    ∃ inner body closing, bytes = body ++ closing ++ rest ∧ Written depth inner body ∧
      Opens number 4 closing := by
  induction fuel generalizing depth number bytes rest with
  | zero => cases skipped
  | succ fuel ih =>
      simp only [skipGroup?, Option.bind_eq_bind, Option.bind_eq_some_iff] at skipped
      obtain ⟨⟨⟨first, shape⟩, left⟩, keyed, skipped⟩ := skipped
      obtain ⟨key, rfl, opens⟩ := key?_eq_some.mp keyed
      split at skipped
      · rename_i ends
        split at skipped
        · rename_i same
          cases skipped
          subst ends same
          exact ⟨[], [], key, rfl, .nil, opens⟩
        · cases skipped
      · cases depth with
        | zero => cases skipped
        | succ below =>
            dsimp only at skipped
            split at skipped
            · rename_i starts
              subst starts
              obtain ⟨after, within, later⟩ := Option.bind_eq_some_iff.mp skipped
              obtain ⟨inner, body, closing, rfl, inside, closes⟩ := ih within
              obtain ⟨fields, body', closing', rfl, outside, closes'⟩ := ih later
              exact ⟨_, _, closing', by simp only [List.append_assoc],
                .group opens inside closes outside, closes'⟩
            · obtain ⟨⟨payload, after⟩, read, later⟩ := Option.bind_eq_some_iff.mp skipped
              obtain ⟨body, rfl, holds⟩ := scalar?_eq_some.mp read
              obtain ⟨fields, body', closing, rfl, outside, closes⟩ := ih later
              exact ⟨_, _, closing, by simp only [List.append_assoc],
                .scalar opens holds outside, closes⟩

theorem Written.read (written : Written (depth + 1) fields bytes) (fuel : Nat)
    (enough : bytes.length ≤ fuel) : fieldsWithin? fuel (depth + 1) bytes = some fields := by
  generalize level : depth + 1 = below at written
  induction written generalizing fuel with
  | nil => cases fuel <;> rfl
  | scalar opens holds later ih =>
      have some := opens.length_pos
      simp only [List.length_append] at enough
      obtain ⟨fuel, rfl⟩ := Nat.exists_eq_succ_of_ne_zero (n := fuel) (by omega)
      rw [fieldsWithin?.eq_3 _ _ _ (by simp [List.ne_nil_of_length_pos some])]
      have after := ih fuel (by omega) level
      simp [field?, List.append_assoc, opens.read, holds.shape_ne, holds.read, after]
  | @group _ _ _ _ _ left _ _ opens inside closes later ih ih' =>
      have some := opens.length_pos
      have ends := closes.length_pos
      simp only [List.length_append] at enough
      obtain ⟨fuel, rfl⟩ := Nat.exists_eq_succ_of_ne_zero (n := fuel) (by omega)
      rw [fieldsWithin?.eq_3 _ _ _ (by simp [List.ne_nil_of_length_pos some])]
      have after := ih' fuel (by omega) level
      have within := inside.skip closes fuel (by omega) left
      simp only [List.append_assoc] at within
      simp [field?, List.append_assoc, opens.read, within, after]

theorem fieldsWithin?_written {fuel : Nat}
    (read : fieldsWithin? fuel (depth + 1) bytes = some fields) :
    Written (depth + 1) fields bytes := by
  induction fuel generalizing bytes fields with
  | zero =>
      cases bytes with
      | nil =>
          cases read
          exact .nil
      | cons => cases read
  | succ fuel ih =>
      cases bytes with
      | nil =>
          cases read
          exact .nil
      | cons byte tail =>
          simp only [fieldsWithin?, field?, Option.bind_eq_bind, Option.bind_eq_some_iff,
            Option.pure_def, Option.some.injEq] at read
          obtain ⟨⟨field, left⟩, ⟨⟨⟨number, shape⟩, body⟩, keyed, read⟩, fields, later, rfl⟩ := read
          obtain ⟨key, split, opens⟩ := key?_eq_some.mp keyed
          rw [split]
          split at read
          · rename_i starts
            subst starts
            obtain ⟨after, skipped, same⟩ := Option.bind_eq_some_iff.mp read
            cases same
            obtain ⟨inner, body, closing, rfl, inside, closes⟩ := skipGroup?_written skipped
            simp only [← List.append_assoc]
            exact .group opens inside closes (ih later)
          · obtain ⟨⟨payload, after⟩, held, same⟩ := Option.bind_eq_some_iff.mp read
            cases same
            obtain ⟨body, rfl, holds⟩ := scalar?_eq_some.mp held
            rw [← List.append_assoc]
            exact .scalar opens holds (ih later)

theorem fields?_eq_some :
    fields? (depth + 1) bytes = some fields ↔ Written (depth + 1) fields bytes :=
  ⟨fieldsWithin?_written, fun written => written.read _ (Nat.le_refl _)⟩

end LiquidStaking.Wire
