import LiquidStaking.Json.Printer
import LiquidStaking.Json.Reader

/-!
# Strings and numbers read back

A string is printed with escapes that the reader undoes, and the quote that ends
it is the first one that is not escaped.  A number is printed without superfluous
zeros, so the plain reading takes it back, up to what follows its digits.
-/

namespace LiquidStaking

/-! ## Numbers -/

namespace Digits

theorem render_ne_nil (n : Nat) : render n ≠ [] := by
  rw [render]
  split <;> simp

theorem isDigit_render (n : Nat) : ∀ c ∈ render n, isDigit c = true := by
  induction n using Nat.strongRecOn with
  | ind n ih =>
      rw [render]
      split
      · rename_i small
        intro c member
        obtain rfl := List.mem_singleton.mp member
        exact isDigit_digit n small
      · intro c member
        rcases List.mem_append.mp member with front | last
        · exact ih (n / 10) (by omega) c front
        · obtain rfl := List.mem_singleton.mp last
          exact isDigit_digit _ (Nat.mod_lt _ (by decide))

theorem render_head {n : Nat} {rest : List Char} (zero : render n = '0' :: rest) : n = 0 := by
  induction n using Nat.strongRecOn generalizing rest with
  | ind n ih =>
      rw [render] at zero
      split at zero
      · rename_i small
        have all := (by decide : ∀ d : Fin 10, digit d.val = '0' → d.val = 0)
        exact all ⟨n, small⟩ (List.cons.inj zero).1
      · cases front : render (n / 10) with
        | nil => exact absurd front (render_ne_nil _)
        | cons c more =>
            rw [front, List.cons_append] at zero
            obtain ⟨rfl, -⟩ := List.cons.inj zero
            have := ih (n / 10) (by omega) front
            omega

theorem readWidth?_render {bits n : Nat} (fits : n < Width.limit bits) :
    readWidth? bits (render n) = some n := by
  rw [readWidth?, read?_render]
  exact Width.narrow?_of_lt fits

theorem readPlain?_render {bits n : Nat} (fits : n < Width.limit bits) :
    readPlain? bits (render n) = some n := by
  unfold readPlain?
  split
  · rename_i nothing
    exact absurd nothing (render_ne_nil n)
  · rename_i zero
    rw [render_head zero]
  · rename_i more several zero
    have none := render_head zero
    subst none
    exact absurd zero (by simpa [render, digit] using several)
  · exact readWidth?_render fits

theorem ofNat_injective {m n : Nat} (same : ofNat m = ofNat n) : m = n := by
  have texts : render m = render n := String.ofList_injective same
  have read := read?_render m
  rw [texts, read?_render] at read
  exact (Option.some.inj read).symm

end Digits

/-! ## Strings -/

theorem Bytes.hexValue?_hexDigit {d : Nat} (small : d < 16) :
    hexValue? (hexDigit true d) = some d := by
  have all := (by decide : ∀ d : Fin 16, hexValue? (hexDigit true d.val) = some d.val)
  exact all ⟨d, small⟩

theorem Bytes.hexDigit_plain {d : Nat} (small : d < 16) :
    hexDigit true d ≠ '"' ∧ hexDigit true d ≠ '\\' := by
  have all := (by decide : ∀ d : Fin 16, hexDigit true d.val ≠ '"' ∧ hexDigit true d.val ≠ '\\')
  exact all ⟨d, small⟩

namespace Json

/-- What becomes of a character in a string: it is escaped by a second character,
written as a number, or left as it is. -/
theorem escapeChar_cases (c : Char) :
    (∃ d, escapeChar c = ['\\', d] ∧ escaped? d = some c ∧ d ≠ 'u') ∨
      (c.toNat < 32 ∧ escapeChar c = ['\\', 'u', '0', '0', Bytes.hexDigit true (c.toNat / 16),
        Bytes.hexDigit true (c.toNat % 16)]) ∨
      (escapeChar c = [c] ∧ c ≠ '"' ∧ c ≠ '\\' ∧ ¬c.toNat < 32) := by
  have numbered {n : Nat} (is : c.toNat = n) : c = Char.ofNat n := by
    rw [← is, Char.ofNat_toNat]
  unfold escapeChar
  split
  · rename_i is
    exact .inl ⟨'"', rfl, by simp [escaped?, is], by decide⟩
  split
  · rename_i is
    exact .inl ⟨'\\', rfl, by simp [escaped?, is], by decide⟩
  split
  · rename_i is
    exact .inl ⟨'b', rfl, by rw [numbered is]; rfl, by decide⟩
  split
  · rename_i is
    exact .inl ⟨'t', rfl, by rw [numbered is]; rfl, by decide⟩
  split
  · rename_i is
    exact .inl ⟨'n', rfl, by rw [numbered is]; rfl, by decide⟩
  split
  · rename_i is
    exact .inl ⟨'f', rfl, by rw [numbered is]; rfl, by decide⟩
  split
  · rename_i is
    exact .inl ⟨'r', rfl, by rw [numbered is]; rfl, by decide⟩
  split
  · rename_i low
    exact .inr (.inl ⟨low, rfl⟩)
  · rename_i quote backslash _ _ _ _ _ high
    exact .inr (.inr ⟨rfl, quote, backslash, high⟩)

theorem cutString?_plain {c : Char} (quote : c ≠ '"') (backslash : c ≠ '\\')
    (rest : List Char) :
    cutString? (c :: rest) = (cutString? rest).map fun cut => (c :: cut.1, cut.2) := by
  rw [cutString?.eq_def]
  split <;> simp_all

theorem cutString?_escapeChar (c : Char) (rest : List Char) :
    cutString? (escapeChar c ++ rest) =
      (cutString? rest).map fun cut => (escapeChar c ++ cut.1, cut.2) := by
  rcases escapeChar_cases c with ⟨d, written, -, -⟩ | ⟨low, written⟩ |
    ⟨written, quote, backslash, -⟩
  · rw [written]
    rfl
  · have high := Bytes.hexDigit_plain (d := c.toNat / 16) (by omega)
    have low := Bytes.hexDigit_plain (d := c.toNat % 16) (by omega)
    have zero : '0' ≠ '"' ∧ '0' ≠ '\\' := by decide
    simp only [written, List.cons_append, List.nil_append, cutString?,
      cutString?_plain zero.1 zero.2, cutString?_plain high.1 high.2,
      cutString?_plain low.1 low.2, Option.map_map]
    rfl
  · rw [written]
    exact cutString?_plain quote backslash rest

theorem cutString?_escape (text rest : List Char) :
    cutString? (escape text ++ '"' :: rest) = some (escape text, rest) := by
  induction text with
  | nil => rfl
  | cons c text ih =>
      have cons : escape (c :: text) = escapeChar c ++ escape text := List.flatMap_cons ..
      rw [cons, List.append_assoc, cutString?_escapeChar, ih]
      rfl

theorem unescape?_escapeChar (c : Char) (rest : List Char) :
    unescape? none (escapeChar c ++ rest) = (unescape? none rest).map (c :: ·) := by
  rcases escapeChar_cases c with ⟨d, written, stands, notNumber⟩ | ⟨low, written⟩ |
    ⟨written, quote, backslash, printed⟩
  · rw [written, List.cons_append, List.cons_append, List.nil_append]
    have escapes : unescape? none ('\\' :: d :: rest) =
        (escaped? d).bind fun c => (unescape? none rest).map (c :: ·) := by
      rw [unescape?]
      · rfl
      · intro a b c d rest number
        exact absurd number notNumber
    rw [escapes, stands]
    rfl
  · have high := Bytes.hexValue?_hexDigit (d := c.toNat / 16) (by omega)
    have last := Bytes.hexValue?_hexDigit (d := c.toNat % 16) (by omega)
    have zero : Bytes.hexValue? '0' = some 0 := by decide
    have unit : hex4? '0' '0' (Bytes.hexDigit true (c.toNat / 16))
        (Bytes.hexDigit true (c.toNat % 16)) = some c.toNat := by
      simp only [hex4?, zero, high, last, Option.bind_eq_bind, Option.bind_some, Option.pure_def,
        Option.some.injEq]
      omega
    have notHigh : isHighSurrogate c.toNat = false := by
      simp only [isHighSurrogate, Bool.and_eq_false_iff, decide_eq_false_iff_not]
      omega
    have notLow : isLowSurrogate c.toNat = false := by
      simp only [isLowSurrogate, Bool.and_eq_false_iff, decide_eq_false_iff_not]
      omega
    rw [written]
    simp only [List.cons_append, List.nil_append, unescape?, unit, Option.bind_eq_bind,
      Option.bind_some, notHigh, notLow, Bool.false_eq_true, if_false, Char.ofNat_toNat]
  · rw [written, List.cons_append, List.nil_append]
    rw [unescape?]
    · simp [printed]
    · exact fun _ _ _ _ _ is _ => absurd is backslash
    · exact fun _ _ is _ => absurd is backslash
    · exact fun is _ => absurd is backslash

theorem unescape?_escape (text : List Char) : unescape? none (escape text) = some text := by
  induction text with
  | nil => rfl
  | cons c text ih =>
      have cons : escape (c :: text) = escapeChar c ++ escape text := List.flatMap_cons ..
      rw [cons, unescape?_escapeChar, ih]
      rfl

theorem escape_of_plain {text : List Char} (plain : '\\' ∉ escape text) : escape text = text := by
  induction text with
  | nil => rfl
  | cons c text ih =>
      have cons : escape (c :: text) = escapeChar c ++ escape text := List.flatMap_cons ..
      rw [cons, List.mem_append, not_or] at plain
      rw [cons, ih plain.2]
      rcases escapeChar_cases c with ⟨d, written, -, -⟩ | ⟨low, written⟩ | ⟨written, -⟩
      · exact absurd (by rw [written]; exact List.mem_cons_self) plain.1
      · exact absurd (by rw [written]; exact List.mem_cons_self) plain.1
      · rw [written]
        rfl

theorem readBody?_escape (text : List Char) : readBody? (escape text) = some text := by
  unfold readBody?
  split
  · exact unescape?_escape text
  · rename_i plain
    rw [escape_of_plain (by simpa using plain)]

theorem string?_printed (text : String) (rest : List Char) :
    string? (escape text.toList ++ '"' :: rest) = some (text, rest) := by
  rw [string?, cutString?_escape]
  simp only [Option.bind_eq_bind, Option.bind_some, readBody?_escape]
  rw [String.ofList_toList]
  rfl

end Json

end LiquidStaking
