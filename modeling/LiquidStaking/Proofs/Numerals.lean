import LiquidStaking.Proofs.Arithmetic
import LiquidStaking.Proofs.Keys
import Mathlib.Data.Nat.Digits.Defs
import Mathlib.Data.Rat.Cast.Order
import Mathlib.Tactic.FieldSimp

/-!
# Decimal numerals

Digits spell a number, each worth ten times the one after it.  A fixed-point value is printed
as the numeral of exactly that value, without superfluous zeros at either end, so the text
tells the value.  The integer behind it is read back from its digits, and nothing else is
read but digits of a number of 256 bits.
-/

namespace LiquidStaking

/-! ## Numbers and their digits -/

namespace Digits

variable {text : List Char} {bits n : Nat}

def numeral (text : List Char) : Nat := Nat.ofDigits 10 (text.reverse.map digitValue)

theorem numeral_append (front back : List Char) :
    numeral (front ++ back) = numeral front * 10 ^ back.length + numeral back := by
  simp only [numeral, List.reverse_append, List.map_append, Nat.ofDigits_append, List.length_map,
    List.length_reverse]
  ring

theorem numeral_cons (c : Char) (rest : List Char) :
    numeral (c :: rest) = digitValue c * 10 ^ rest.length + numeral rest := by
  rw [← List.singleton_append, numeral_append]
  simp [numeral]

theorem numeral_zeros (k : Nat) : numeral (List.replicate k '0') = 0 := by
  induction k with
  | zero => rfl
  | succ k ih =>
      have zero : digitValue '0' = 0 := by decide
      rw [List.replicate_succ, numeral_cons, ih, zero, Nat.zero_mul]

theorem readOn?_eq_some {value : Nat} :
    readOn? value text = some n ↔
      (∀ c ∈ text, isDigit c = true) ∧ value * 10 ^ text.length + numeral text = n := by
  induction text generalizing value with
  | nil => simp [readOn?, numeral]
  | cons c rest ih =>
      by_cases digit : isDigit c
      · have shifted : (10 * value + digitValue c) * 10 ^ rest.length + numeral rest =
            value * 10 ^ (rest.length + 1) + numeral (c :: rest) := by
          rw [numeral_cons]
          ring
        simp [readOn?, digit, ih, shifted]
      · simp [readOn?, digit]

theorem read?_eq_some :
    read? text = some n ↔ (∀ c ∈ text, isDigit c = true) ∧ numeral text = n := by
  rw [read?, readOn?_eq_some, Nat.zero_mul, Nat.zero_add]

theorem readWidth?_eq_some :
    readWidth? bits text = some n ↔
      (∀ c ∈ text, isDigit c = true) ∧ numeral text = n ∧ n < Width.limit bits := by
  simp only [readWidth?, Option.bind_eq_some_iff, read?_eq_some, Width.narrow?_eq_some]
  constructor
  · rintro ⟨m, ⟨digits, spelled⟩, rfl, fits⟩
    exact ⟨digits, spelled, fits⟩
  · rintro ⟨digits, spelled, fits⟩
    exact ⟨n, ⟨digits, spelled⟩, rfl, fits⟩

def Signed (text : List Char) (n : Nat) : Prop :=
  ∃ digits, (text = digits ∨ text = '+' :: digits) ∧ digits ≠ [] ∧
    (∀ c ∈ digits, isDigit c = true) ∧ numeral digits = n

theorem readSigned?_eq_some :
    readSigned? bits text = some n ↔ Signed text n ∧ n < Width.limit bits := by
  constructor
  · intro read
    unfold readSigned? at read
    split at read
    · obtain ⟨digits, spelled, fits⟩ := readWidth?_eq_some.mp read
      exact ⟨⟨_, .inr rfl, List.cons_ne_nil _ _, digits, spelled⟩, fits⟩
    · cases read
    · cases read
    · rename_i present
      obtain ⟨digits, spelled, fits⟩ := readWidth?_eq_some.mp read
      exact ⟨⟨_, .inl rfl, present, digits, spelled⟩, fits⟩
  · rintro ⟨⟨digits, written, present, all, spelled⟩, fits⟩
    have read := readWidth?_eq_some.mpr ⟨all, spelled, fits⟩
    obtain ⟨c, rest, rfl⟩ := List.exists_cons_of_ne_nil present
    obtain rfl | rfl := written
    · have digit : c ≠ '+' := by
        rintro rfl
        exact Bool.noConfusion (all '+' List.mem_cons_self)
      rw [readSigned?, read] <;> simp [digit]
    · exact read

theorem numeral_render (n : Nat) : numeral (render n) = n :=
  (read?_eq_some.mp (read?_render n)).2

theorem render_zero : render 0 = ['0'] := by
  rw [render]
  rfl

structure Plain (text : List Char) (n : Nat) : Prop where
  digits : ∀ c ∈ text, isDigit c = true
  present : text ≠ []
  plain : text.head? = some '0' → text = ['0']
  spelled : numeral text = n

theorem plain_render (n : Nat) : Plain (render n) n where
  digits := isDigit_render n
  present := render_ne_nil n
  plain := by
    intro zero
    obtain ⟨rest, body⟩ := List.head?_eq_some_iff.mp zero
    rw [render_head body, render_zero]
  spelled := numeral_render n

theorem length_render_le {k : Nat} (room : 0 < k) (small : n < 10 ^ k) :
    (render n).length ≤ k := by
  induction k generalizing n with
  | zero => cases room
  | succ k ih =>
      rw [render]
      split
      · exact room
      · have front : n / 10 < 10 ^ k := by omega
        have some : 0 < k := by
          refine Nat.pos_of_ne_zero fun none => ?_
          subst none
          omega
        simpa using ih some front

/-! ## Reading within a width -/

def readKept? (bits : Nat) : Nat → List Char → Option Nat
  | value, [] => some value
  | value, c :: rest =>
      if isDigit c then
        (Width.narrow? bits (10 * value + digitValue c)).bind fun value => readKept? bits value rest
      else none

/-- A number that is too wide stays so whatever follows. -/
theorem readKept?_eq {value : Nat} (fits : value < Width.limit bits) :
    readKept? bits value text = (readOn? value text).bind (Width.narrow? bits) := by
  induction text generalizing value with
  | nil => exact (Width.narrow?_of_lt fits).symm
  | cons c rest ih =>
      by_cases digit : isDigit c
      · by_cases room : 10 * value + digitValue c < Width.limit bits
        · simp [readKept?, readOn?, digit, Width.narrow?_of_lt room, ih room]
        · have wide : ∀ n, readOn? (10 * value + digitValue c) rest = some n →
              Width.narrow? bits n = none := by
            intro n read
            obtain ⟨-, rfl⟩ := readOn?_eq_some.mp read
            refine Width.narrow?_of_le ?_
            have grown := Nat.le_mul_of_pos_right (10 * value + digitValue c)
              (Nat.pow_pos (n := rest.length) (by decide : 0 < 10))
            omega
          have nothing : (readOn? (10 * value + digitValue c) rest).bind (Width.narrow? bits) =
              none := Option.bind_eq_none_iff.mpr wide
          simp [readKept?, readOn?, digit, Width.narrow?_of_le (Nat.le_of_not_lt room), nothing]
      · simp [readKept?, readOn?, digit]

end Digits

/-! ## Places -/

namespace Decimal

open Digits

theorem dropTrailingZeros_zeros (digits : List Char) :
    ∃ k, digits = dropTrailingZeros digits ++ List.replicate k '0' := by
  have zeros : digits.reverse.takeWhile (· == '0') =
      List.replicate (digits.reverse.takeWhile (· == '0')).length '0' := by
    refine List.eq_replicate_of_mem fun c member => ?_
    simpa using List.all_eq_true.mp List.all_takeWhile c member
  have cut := congrArg List.reverse
    (List.takeWhile_append_dropWhile (p := (· == '0')) (l := digits.reverse))
  rw [zeros, List.reverse_append, List.reverse_replicate, List.reverse_reverse] at cut
  exact ⟨_, cut.symm⟩

theorem getLast?_dropTrailingZeros (digits : List Char) :
    (dropTrailingZeros digits).getLast? ≠ some '0' := by
  intro last
  rw [dropTrailingZeros, List.getLast?_reverse] at last
  have stops := List.head?_dropWhile_not (· == '0') digits.reverse
  rw [last] at stops
  simp at stops

theorem isDigit_padded (n : Nat) : ∀ c ∈ padded n, isDigit c = true := by
  intro c member
  rcases List.mem_append.mp member with zero | digit
  · rw [List.eq_of_mem_replicate zero]
    decide
  · exact isDigit_render n c digit

theorem numeral_padded (n : Nat) : numeral (padded n) = n := by
  rw [padded, numeral_append, numeral_zeros, numeral_render, Nat.zero_mul, Nat.zero_add]

theorem length_padded {n : Nat} (small : n < scale) : (padded n).length = places := by
  have short : (render n).length ≤ places := length_render_le (by decide) small
  simp only [padded, List.length_append, List.length_replicate]
  omega

theorem dropTrailingZeros_padded {n : Nat} : dropTrailingZeros (padded n) = [] ↔ n = 0 := by
  constructor
  · intro none
    obtain ⟨k, split⟩ := dropTrailingZeros_zeros (padded n)
    rw [none, List.nil_append] at split
    rw [← numeral_padded n, split, numeral_zeros]
  · rintro rfl
    rw [padded, render_zero]
    decide

theorem value_dropTrailingZeros (digits : List Char) :
    (numeral (dropTrailingZeros digits) : ℚ) / 10 ^ (dropTrailingZeros digits).length =
      numeral digits / 10 ^ digits.length := by
  obtain ⟨k, split⟩ := dropTrailingZeros_zeros digits
  generalize dropTrailingZeros digits = kept at split ⊢
  subst split
  rw [numeral_append, numeral_zeros, List.length_append, List.length_replicate]
  push_cast
  field_simp
  ring

/-! ## Numerals -/

/-- A number as it is written: digits, no more zeros in front than zero itself has, and up to
eighteen places, the last of which is no zero. -/
structure Numeral where
  whole : List Char
  places : List Char
  wholeDigits : ∀ c ∈ whole, isDigit c = true
  placesDigits : ∀ c ∈ places, isDigit c = true
  present : whole ≠ []
  plain : whole.head? = some '0' → whole = ['0']
  short : places.length ≤ 18
  trimmed : places.getLast? ≠ some '0'

namespace Numeral

def text (number : Numeral) : String :=
  String.ofList
    (if number.places = [] then number.whole else number.whole ++ '.' :: number.places)

def value (number : Numeral) : ℚ :=
  numeral number.whole + numeral number.places / 10 ^ number.places.length

theorem point_notMem {digits : List Char} (all : ∀ c ∈ digits, isDigit c = true) :
    '.' ∉ digits := fun member => Bool.noConfusion (all '.' member)

theorem value_of_text {number other : Numeral} (same : number.text = other.text) :
    number.value = other.value := by
  have texts := String.ofList_injective same
  have parts : number.whole = other.whole ∧ number.places = other.places := by
    have plain := point_notMem number.wholeDigits
    have plain' := point_notMem other.wholeDigits
    by_cases none : number.places = [] <;> by_cases none' : other.places = []
    · exact ⟨by simpa [none, none'] using texts, none.trans none'.symm⟩
    · rw [if_pos none, if_neg none'] at texts
      exact absurd (by simp [texts]) plain
    · rw [if_neg none, if_pos none'] at texts
      exact absurd (by simp [← texts]) plain'
    · rw [if_neg none, if_neg none'] at texts
      exact Key.split_at_first plain plain' texts
  rw [value, value, parts.1, parts.2]

end Numeral

def written (d : Decimal) : Numeral where
  whole := render (d.raw / scale)
  places := dropTrailingZeros (padded (d.raw % scale))
  wholeDigits := (plain_render _).digits
  placesDigits := by
    obtain ⟨k, split⟩ := dropTrailingZeros_zeros (padded (d.raw % scale))
    intro c member
    exact isDigit_padded (d.raw % scale) c (split ▸ List.mem_append_left _ member)
  present := (plain_render _).present
  plain := (plain_render _).plain
  short := by
    obtain ⟨k, split⟩ := dropTrailingZeros_zeros (padded (d.raw % scale))
    have whole := congrArg List.length split
    rw [length_padded (Nat.mod_lt _ scale_pos), List.length_append] at whole
    exact Nat.le_of_add_right_le (Nat.le_of_eq whole.symm)
  trimmed := getLast?_dropTrailingZeros _

theorem toText_written (d : Decimal) : d.toText = d.written.text := by
  simp only [toText, display, Numeral.text, written, dropTrailingZeros_padded]

theorem value_written (d : Decimal) : d.written.value = d.raw / 10 ^ 18 := by
  have places : (padded (d.raw % scale)).length = 18 := length_padded (Nat.mod_lt _ scale_pos)
  have whole : ((d.raw / scale * scale + d.raw % scale : Nat) : ℚ) = d.raw := by
    rw [Nat.div_add_mod']
  have unit : (scale : ℚ) = 10 ^ 18 := by norm_num [scale, Decimal.places]
  simp only [Numeral.value, written, value_dropTrailingZeros, numeral_render, numeral_padded,
    places]
  rw [← whole, ← unit]
  push_cast
  have : (scale : ℚ) ≠ 0 := by rw [unit]; norm_num
  field_simp

theorem places_written (d : Decimal) : d.written.places = [] ↔ 10 ^ 18 ∣ d.raw := by
  rw [written, dropTrailingZeros_padded, Nat.dvd_iff_mod_eq_zero]
  rfl

/-! ## Texts -/

theorem toText_injective {d other : Decimal} (same : d.toText = other.toText) : d = other := by
  rw [toText_written, toText_written] at same
  have values := Numeral.value_of_text same
  rw [value_written, value_written, div_left_inj' (by norm_num)] at values
  exact congrArg mk (Nat.cast_injective values)

theorem ofRawText?_rawText {d : Decimal} (fits : d.Fits) : ofRawText? d.rawText = some d := by
  rw [ofRawText?, rawText, ofNat, String.toList_ofList, readWidth?_render fits]
  rfl

theorem ofRawText?_eq_some {text : String} {d : Decimal} :
    ofRawText? text = some d ↔
      (∀ c ∈ text.toList, isDigit c = true) ∧ numeral text.toList = d.raw ∧ d.Fits := by
  rw [ofRawText?, Option.map_eq_some_iff]
  constructor
  · rintro ⟨raw, read, rfl⟩
    exact readWidth?_eq_some.mp read
  · intro spelled
    exact ⟨d.raw, readWidth?_eq_some.mpr spelled, rfl⟩

/-- A value is printed as the numeral of exactly that value, with a point and places unless
it is whole, and different values are printed differently; the places are a number of 64
bits.  The raw text is read back, and what is read are the digits of any number of 256 bits,
nothing included, up to the first that makes it too wide. -/
theorem texts_exact (d : Decimal) (text : String) :
    (∃ number : Numeral, d.toText = number.text ∧ number.value = d.raw / 10 ^ 18 ∧
      (number.places = [] ↔ 10 ^ 18 ∣ d.raw)) ∧
    d.raw % scale < Width.limit 64 ∧
    (∀ other : Decimal, d ≠ other → d.toText ≠ other.toText) ∧
    (d.Fits → ofRawText? d.rawText = some d) ∧
    (∀ read : Decimal, ofRawText? text = some read ↔
      (∀ c ∈ text.toList, '0' ≤ c ∧ c ≤ '9') ∧ numeral text.toList = read.raw ∧ read.Fits) ∧
    ofRawText? text = (readKept? 256 0 text.toList).map mk := by
  have places : d.raw % scale < Width.limit 64 :=
    (Nat.mod_lt d.raw scale_pos).trans (by decide)
  have accepted (read : Decimal) : ofRawText? text = some read ↔
      (∀ c ∈ text.toList, '0' ≤ c ∧ c ≤ '9') ∧ numeral text.toList = read.raw ∧ read.Fits := by
    simp only [ofRawText?_eq_some, isDigit, Bool.and_eq_true, decide_eq_true_eq]
  have stepwise : ofRawText? text = (readKept? 256 0 text.toList).map mk := by
    rw [readKept?_eq (Width.limit_pos 256)]
    rfl
  exact ⟨⟨d.written, d.toText_written, d.value_written, d.places_written⟩, places,
    fun _ differ same => differ (toText_injective same), ofRawText?_rawText, accepted, stepwise⟩

/-- The largest value is read back and the next number is not read, and the least fraction
is told from ten of it. -/
theorem texts_exact_extreme :
    Decimal.Fits ⟨Width.max 256⟩ ∧
      ofRawText? (rawText ⟨Width.max 256⟩) = some ⟨Width.max 256⟩ ∧
      toText ⟨1⟩ ≠ toText ⟨10⟩ ∧
      ofRawText?
        "115792089237316195423570985008687907853269984665640564039457584007913129639936" =
        none := by
  have fits : Decimal.Fits ⟨Width.max 256⟩ := by decide
  obtain ⟨-, -, -, reread, -, -⟩ := texts_exact ⟨Width.max 256⟩ ""
  obtain ⟨-, -, apart, -, -, stepwise⟩ := texts_exact ⟨1⟩
    "115792089237316195423570985008687907853269984665640564039457584007913129639936"
  exact ⟨fits, reread fits, apart ⟨10⟩ (by decide), stepwise.trans (by decide +kernel)⟩

example : ofRawText? "1.5" = none := by
  decide +kernel

end Decimal

end LiquidStaking
