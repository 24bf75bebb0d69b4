import LiquidStaking.Proofs.Wire.Messages

/-!
# Messages as they are written

The usual bytes of a message, with its fields in order and those left out that hold what an
absent field stands for, state what the message says, as far as lengths are numbers of 64 bits.
-/

namespace LiquidStaking.Wire

open Width

variable {α β : Type} {bytes : Bytes} {depth n number shape : Nat}

/-! ## Numbers and fields -/

theorem spells_putVarint (n : Nat) : Spells n (putVarint n) := by
  induction n using Nat.strongRecOn with
  | ind n ih =>
      rw [putVarint]
      split
      · rename_i small
        have byte : (UInt8.ofNat n).toNat = n := by
          rw [UInt8.toNat_ofNat']
          omega
        have last : Spells (UInt8.ofNat n).toNat [UInt8.ofNat n] := .last (by omega)
        rwa [byte] at last
      · have byte : (UInt8.ofNat (n % 128 + 128)).toNat = n % 128 + 128 := by
          rw [UInt8.toNat_ofNat']
          omega
        have more : Spells ((UInt8.ofNat (n % 128 + 128)).toNat - 128 + 128 * (n / 128))
            (UInt8.ofNat (n % 128 + 128) :: putVarint (n / 128)) :=
          .more (by omega) (ih (n / 128) (by omega))
        have whole : n % 128 + 128 - 128 + 128 * (n / 128) = n := by omega
        rwa [byte, whole] at more

theorem length_putVarint_le {k : Nat} (small : n < limit (7 * (k + 1))) :
    (putVarint n).length ≤ k + 1 := by
  induction k generalizing n with
  | zero =>
      rw [putVarint, if_pos (show n < 128 from small)]
      exact Nat.le_refl _
  | succ k ih =>
      rw [putVarint]
      split
      · exact Nat.succ_le_succ (Nat.zero_le _)
      · refine Nat.succ_le_succ (ih ?_)
        have split : limit (7 * (k + 1 + 1)) = limit 7 * limit (7 * (k + 1)) := by
          rw [limit_mul]
          congr 1
          omega
        rw [split] at small
        exact Nat.div_lt_of_lt_mul small

theorem number_putVarint (fits : n < limit 64) : Number n (putVarint n) where
  spelled := spells_putVarint n
  short := length_putVarint_le (fits.trans (by decide))
  fits := fits

def Numbered (number : Nat) : Prop := 0 < number ∧ number < limit 29

theorem opens_putKey (numbered : Numbered number) (shaped : shape < 8) :
    Opens number shape (putKey number shape) := by
  have wide : limit 29 * 8 = limit 32 := by decide
  have fits : number * 8 + shape < limit 32 := by
    have := numbered.2
    omega
  exact ⟨number_putVarint (fits.trans (by decide)), shaped, numbered.1, fits⟩

theorem written_putDelimited (numbered : Numbered number) (fits : bytes.length < limit 64) :
    Written (depth + 1) [⟨number, .delimited bytes⟩] (putDelimited number bytes) := by
  have field : Written (depth + 1) [⟨number, .delimited bytes⟩]
      (putKey number 2 ++ (putVarint bytes.length ++ bytes) ++ []) :=
    .scalar (opens_putKey numbered (by decide)) (.delimited (number_putVarint fits)) .nil
  rwa [List.append_nil, ← List.append_assoc] at field

theorem length_lt_of_putDelimited (fits : (putDelimited number bytes).length < limit 64) :
    bytes.length < limit 64 := by
  simp only [putDelimited, List.length_append] at fits
  omega

def putBytes (number : Nat) (bytes : Bytes) : Bytes :=
  if bytes = [] then [] else putDelimited number bytes

/-- A field that is left out where it holds what an absent field stands for. -/
def sparing [DecidableEq α] (make : α → Payload) (absent : α) (number : Nat) (value : α) :
    List Field :=
  if value = absent then [] else [⟨number, make value⟩]

section Sparing

variable [DecidableEq α] [DecidableEq β] {make : α → Payload} {absent value : α}
  {make' : β → Payload} {absent' value' : β}

theorem written_sparing {long : Bytes}
    (own : value ≠ absent → Written (depth + 1) [⟨number, make value⟩] long) :
    Written (depth + 1) (sparing make absent number value)
      (if value = absent then [] else long) := by
  unfold sparing
  split
  · exact .nil
  · rename_i some
    exact own some

theorem held_sparing :
    held number (sparing make absent number value) =
      if value = absent then [] else [make value] := by
  unfold sparing held
  split <;> simp

theorem held_sparing_of_ne {other : Nat} (differs : number ≠ other) :
    held other (sparing make absent number value) = [] := by
  unfold sparing held
  split <;> simp [differs]

theorem single_of_held {fields : List Field}
    (own : held number fields = held number (sparing make absent number value)) :
    Single make absent number value fields := by
  rw [held_sparing] at own
  split at own
  · rename_i usual
    exact ⟨[], own, usual⟩
  · exact ⟨[value], own, rfl⟩

theorem single_sparing :
    Single make absent 1 value
        (sparing make absent 1 value ++ sparing make' absent' 2 value') ∧
      Single make' absent' 2 value'
        (sparing make absent 1 value ++ sparing make' absent' 2 value') := by
  constructor
  · refine single_of_held ?_
    rw [held_append, held_sparing_of_ne (show 2 ≠ 1 by decide), List.append_nil]
  · refine single_of_held ?_
    rw [held_append, held_sparing_of_ne (show 1 ≠ 2 by decide), List.nil_append]

end Sparing

theorem written_putNumber (numbered : Numbered number) (fits : n < limit 64) :
    Written (depth + 1) (sparing .varint 0 number n) (putNumber number n) := by
  refine written_sparing fun _ => ?_
  have field : Written (depth + 1) [⟨number, .varint n⟩] (putKey number 0 ++ putVarint n ++ []) :=
    .scalar (opens_putKey numbered (by decide)) (.varint (number_putVarint fits)) .nil
  rwa [List.append_nil] at field

theorem length_putNumber_le (numbered : Numbered number) (fits : n < limit 64) :
    (putNumber number n).length ≤ 20 := by
  have key := (opens_putKey numbered (by decide : 0 < 8)).spelled.short
  have body := (number_putVarint fits).short
  unfold putNumber
  split
  · exact Nat.zero_le _
  · rw [List.length_append]
    omega

theorem written_putBytes (numbered : Numbered number)
    (fits : (putBytes number bytes).length < limit 64) :
    Written (depth + 1) (sparing .delimited [] number bytes) (putBytes number bytes) := by
  refine written_sparing fun some => ?_
  rw [putBytes, if_neg some] at fits
  exact written_putDelimited numbered (length_lt_of_putDelimited fits)

theorem written_putText {text : String} (numbered : Numbered number)
    (fits : (putText number text).length < limit 64) :
    Written (depth + 1) (sparing .ofText "" number text) (putText number text) := by
  refine written_sparing fun some => ?_
  rw [putText, if_neg some] at fits
  exact written_putDelimited numbered (length_lt_of_putDelimited fits)

/-! ## Messages -/

def Timestamp.put (time : Timestamp) : Bytes := putNumber 1 time.seconds ++ putNumber 2 time.nanos

def CoinText.put (coin : CoinText) : Bytes := putText 1 coin.denom ++ putText 2 coin.amount

def Entry.put (entry : Entry) : Bytes := putText 1 entry.typeUrl ++ putBytes 2 entry.value

def Report.put (report : Report) : Bytes :=
  (report.legacy.flatMap fun entry => putDelimited 1 entry.put) ++
    report.responses.flatMap fun entry => putDelimited 2 entry.put

def putCompletion (time : Option Timestamp) : Bytes :=
  time.elim [] fun time => putDelimited 1 time.put

def putCoins (coins : List CoinText) : Bytes := coins.flatMap fun coin => putDelimited 1 coin.put

theorem numbered_one : Numbered 1 := ⟨by decide, by decide⟩

theorem numbered_two : Numbered 2 := ⟨by decide, by decide⟩

theorem Timestamp.encodes_put {time : Timestamp} (seconds : time.seconds < limit 64)
    (nanos : time.nanos < limit 64) : Encodes (depth + 1) Timestamp.Stated time time.put :=
  ⟨_, (written_putNumber numbered_one seconds).append (written_putNumber numbered_two nanos),
    single_sparing.1, single_sparing.2⟩

theorem CoinText.encodes_put {coin : CoinText} (fits : coin.put.length < limit 64) :
    Encodes (depth + 1) CoinText.Stated coin coin.put := by
  rw [CoinText.put, List.length_append] at fits
  exact ⟨_, (written_putText numbered_one (by omega)).append
    (written_putText numbered_two (by omega)), single_sparing.1, single_sparing.2⟩

theorem Entry.encodes_put {entry : Entry} (fits : entry.put.length < limit 64) :
    Encodes (depth + 1) Entry.Stated entry entry.put := by
  rw [Entry.put, List.length_append] at fits
  exact ⟨_, (written_putText numbered_one (by omega)).append
    (written_putBytes numbered_two (by omega)), single_sparing.1, single_sparing.2⟩

section Repeated

variable {put : α → Bytes} {values : List α}

theorem written_flatMap (numbered : Numbered number)
    (fits : (values.flatMap fun v => putDelimited number (put v)).length < limit 64) :
    Written (depth + 1) (values.map fun v => ⟨number, .delimited (put v)⟩)
      (values.flatMap fun v => putDelimited number (put v)) := by
  induction values with
  | nil => exact .nil
  | cons v values ih =>
      rw [List.flatMap_cons, List.length_append] at fits
      have first : (putDelimited number (put v)).length < limit 64 := by omega
      exact (written_putDelimited numbered (length_lt_of_putDelimited first)).append
        (ih (by omega))

theorem length_lt_of_flatMap {v : α}
    (fits : (values.flatMap fun v => putDelimited number (put v)).length < limit 64)
    (member : v ∈ values) : (put v).length < limit 64 := by
  obtain ⟨front, back, rfl⟩ := List.append_of_mem member
  rw [List.flatMap_append, List.flatMap_cons, List.length_append, List.length_append] at fits
  have field : (putDelimited number (put v)).length < limit 64 := by omega
  exact length_lt_of_putDelimited field

theorem held_map : held number (values.map fun v => ⟨number, .delimited (put v)⟩) =
    values.map fun v => .delimited (put v) := by
  simp [held, List.filter_map, Function.comp_def]

theorem held_map_of_ne {other : Nat} (differs : number ≠ other) :
    held other (values.map fun v => ⟨number, .delimited (put v)⟩) = [] := by
  simp [held, differs]

theorem repeated_of_held {stated : α → List Field → Prop} {fields : List Field}
    (own : held number fields = values.map fun v => .delimited (put v))
    (each : ∀ v ∈ values, Encodes (maxDepth - 1) stated v (put v)) :
    Repeated stated number values fields := by
  rw [Repeated, own, List.forall₂_map_right_iff, List.forall₂_same]
  exact fun v member => ⟨put v, rfl, each v member⟩

end Repeated

theorem encodes_putCompletion {found : Option Timestamp}
    (fits : ∀ time ∈ found, time.seconds < limit 64 ∧ time.nanos < limit 64) :
    Encodes maxDepth (Merged Timestamp.Stated 1) found (putCompletion found) := by
  cases found with
  | none => exact ⟨[], .nil, .absent rfl⟩
  | some time =>
      obtain ⟨seconds, nanos⟩ := fits time rfl
      obtain ⟨part, written, stated⟩ : Encodes (maxDepth - 1) Timestamp.Stated time time.put :=
        Timestamp.encodes_put seconds nanos
      have short : time.put.length < limit 64 := by
        have first := length_putNumber_le numbered_one seconds
        have second := length_putNumber_le numbered_two nanos
        have room : 40 < limit 64 := by decide
        rw [Timestamp.put, List.length_append]
        omega
      refine ⟨_, written_putDelimited numbered_one short,
        .present [part] (List.cons_ne_nil _ _) ?_ ?_⟩
      · exact .cons ⟨time.put, rfl, part, written, rfl⟩ .nil
      · rwa [List.flatten_singleton]

theorem encodes_putCoins {coins : List CoinText} (fits : (putCoins coins).length < limit 64) :
    Encodes maxDepth (Repeated CoinText.Stated 1) coins (putCoins coins) :=
  ⟨_, written_flatMap numbered_one fits, repeated_of_held held_map fun _ member =>
    CoinText.encodes_put (length_lt_of_flatMap fits member)⟩

theorem Report.encodes_put {report : Report} (fits : report.put.length < limit 64) :
    Encodes maxDepth Report.Stated report report.put := by
  rw [Report.put, List.length_append] at fits
  have legacy : (report.legacy.flatMap fun entry => putDelimited 1 entry.put).length <
      limit 64 := by omega
  have responses : (report.responses.flatMap fun entry => putDelimited 2 entry.put).length <
      limit 64 := by omega
  refine ⟨_, (written_flatMap numbered_one legacy).append
    (written_flatMap numbered_two responses), ?_, ?_⟩
  · refine repeated_of_held ?_ fun _ member =>
      Entry.encodes_put (length_lt_of_flatMap legacy member)
    rw [held_append, held_map, held_map_of_ne (show 2 ≠ 1 by decide), List.append_nil]
  · refine repeated_of_held ?_ fun _ member =>
      Entry.encodes_put (length_lt_of_flatMap responses member)
    rw [held_append, held_map, held_map_of_ne (show 1 ≠ 2 by decide), List.nil_append]

end LiquidStaking.Wire
