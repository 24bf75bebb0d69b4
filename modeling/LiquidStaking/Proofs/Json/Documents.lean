import LiquidStaking.Json.Document
import LiquidStaking.Proofs.Json.Strings

/-!
# Documents read back

Every document whose numbers keep to their widths is read back from what is
printed of it, strictly and leniently, whatever stands after it as long as that
ends a word.  A type whose values become such documents is read back from
storage.
-/

namespace LiquidStaking.Json

/-! ## What can be printed -/

mutual

def Writable : Json → Prop
  | .nat value => value < Width.limit 64
  | .negative magnitude => magnitude ≤ Width.limit 63
  | .array items => WritableItems items
  | .object members => WritableMembers members
  | .word _ => False
  | .null => True
  | .bool _ => True
  | .string _ => True

def WritableItems : List Json → Prop
  | [] => True
  | item :: rest => item.Writable ∧ WritableItems rest

def WritableMembers : List (String × Json) → Prop
  | [] => True
  | (_, value) :: rest => value.Writable ∧ WritableMembers rest

end

theorem writableItems_of_all {items : List Json} (all : ∀ item ∈ items, item.Writable) :
    WritableItems items := by
  induction items with
  | nil => trivial
  | cons item rest ih =>
      exact ⟨all item List.mem_cons_self, ih fun other later =>
        all other (List.mem_cons_of_mem _ later)⟩

theorem depthOfItems_le {items : List Json} {most : Nat} (all : ∀ item ∈ items, item.depth ≤ most) :
    depthOfItems items ≤ most := by
  induction items with
  | nil => exact Nat.zero_le _
  | cons item rest ih =>
      exact Nat.max_le.mpr ⟨all item List.mem_cons_self, ih fun other later =>
        all other (List.mem_cons_of_mem _ later)⟩

def printMore (items : List Json) : List Char := items.flatMap fun item => ',' :: item.print

def printMoreMembers (members : List (String × Json)) : List Char :=
  members.flatMap fun member => ',' :: (printText member.1 ++ ':' :: member.2.print)

theorem printItems_cons (item : Json) (rest : List Json) :
    printItems (item :: rest) = item.print ++ printMore rest := by
  induction rest generalizing item with
  | nil => simp [printItems, printMore]
  | cons next rest ih =>
      rw [printItems, ih]
      · simp [printMore]
      · exact List.cons_ne_nil _ _

theorem printMembers_cons (name : String) (value : Json) (rest : List (String × Json)) :
    printMembers ((name, value) :: rest) =
      printText name ++ ':' :: value.print ++ printMoreMembers rest := by
  induction rest generalizing name value with
  | nil => simp [printMembers, printMoreMembers]
  | cons next rest ih =>
      rw [printMembers, ih]
      · simp [printMoreMembers]
      · exact List.cons_ne_nil _ _

/-! ## Scalars -/

def Ends (rest : List Char) : Prop := ∀ c more, rest = c :: more → endsWord c = true

theorem ends_nil : Ends [] := nofun

theorem ends_cons {c : Char} (ends : endsWord c = true) (rest : List Char) : Ends (c :: rest) := by
  rintro _ _ ⟨⟩
  exact ends

def isPlain (c : Char) : Bool :=
  !isBlank c && !endsWord c && c != '"' && c != '[' && c != '\x7b'

theorem isPlain_of_isDigit {c : Char} (digit : Digits.isDigit c = true) : isPlain c = true := by
  have differ (d : Char) (other : Digits.isDigit d = false) : c ≠ d := by
    rintro rfl
    simp [other] at digit
  simp [isPlain, isBlank, endsWord, differ ' ' (by decide), differ '\n' (by decide),
    differ '\t' (by decide), differ '\r' (by decide), differ ',' (by decide),
    differ ']' (by decide), differ '\x7d' (by decide), differ '"' (by decide),
    differ '[' (by decide), differ '\x7b' (by decide)]

theorem Ends.dropDigits {rest : List Char} (ends : Ends rest) :
    rest.takeWhile Digits.isDigit = [] ∧ rest.dropWhile Digits.isDigit = rest := by
  cases rest with
  | nil => exact ⟨rfl, rfl⟩
  | cons c more =>
      have noDigit : Digits.isDigit c = false := by
        have ended := ends c more rfl
        cases digit : Digits.isDigit c with
        | false => rfl
        | true =>
            have plain := isPlain_of_isDigit digit
            simp [isPlain, ended] at plain
      simp [noDigit]

theorem natural?_render {n : Nat} (fits : n < Width.limit 64) {rest : List Char}
    (ends : Ends rest) : natural? (Digits.render n ++ rest) = some (n, rest) := by
  have digits := Digits.isDigit_render n
  unfold natural?
  split
  · rename_i more zero
    cases body : Digits.render n with
    | nil => exact absurd body (Digits.render_ne_nil n)
    | cons c front =>
        rw [body, List.cons_append] at zero
        obtain ⟨rfl, tail⟩ := List.cons.inj zero
        obtain rfl := Digits.render_head body
        have single : front = [] := by simpa [Digits.render, Digits.digit] using body
        rw [← tail, single]
        rfl
  · rw [List.takeWhile_append_of_pos digits, List.dropWhile_append_of_pos digits,
      ends.dropDigits.1, ends.dropDigits.2, List.append_nil, Digits.readPlain?_render fits]
    rfl

theorem bare?_plain (strictness : Strictness) {body : List Char} {value : Json}
    (plain : ∀ c ∈ body, isPlain c = true)
    (literal : ∀ rest, Ends rest → literal? (body ++ rest) = some (value, rest))
    {rest : List Char} (ends : Ends rest) :
    bare? strictness (body ++ rest) = some (value, rest) := by
  cases strictness with
  | strict => exact literal rest ends
  | lenient =>
      have goesOn : ∀ c ∈ body, (!endsWord c) = true := fun c member => by
        have := plain c member
        simp_all [isPlain]
      have stops : rest.takeWhile (!endsWord ·) = [] ∧ rest.dropWhile (!endsWord ·) = rest := by
        cases rest with
        | nil => exact ⟨rfl, rfl⟩
        | cons c more => simp [ends c more rfl]
      have noBlank : skipBlanks body.reverse = body.reverse := by
        cases reversed : body.reverse with
        | nil => rfl
        | cons c more =>
            have member : c ∈ body := List.mem_reverse.mp (reversed ▸ List.mem_cons_self)
            have := plain c member
            simp_all [isPlain, skipBlanks]
      have alone := literal [] ends_nil
      rw [List.append_nil] at alone
      simp only [bare?, word?, List.takeWhile_append_of_pos goesOn,
        List.dropWhile_append_of_pos goesOn, stops.1, stops.2, List.append_nil, noBlank,
        List.reverse_reverse, alone]

theorem value?_plain (strictness : Strictness) (fuel : Nat) {c : Char} {body : List Char}
    (plain : isPlain c = true) :
    value? strictness (fuel + 1) (c :: body) = bare? strictness (c :: body) := by
  have kept : skipBlanks (c :: body) = c :: body := by
    simp_all [isPlain, skipBlanks]
  rw [value?.eq_def]
  simp only [kept]
  split <;> simp_all [isPlain]

theorem value?_bare (strictness : Strictness) (fuel : Nat) {body : List Char} {value : Json}
    (written : body ≠ []) (plain : ∀ c ∈ body, isPlain c = true)
    (literal : ∀ rest, Ends rest → literal? (body ++ rest) = some (value, rest))
    {rest : List Char} (ends : Ends rest) :
    value? strictness (fuel + 1) (body ++ rest) = some (value, rest) := by
  have read := bare?_plain strictness plain literal ends
  cases body with
  | nil => exact absurd rfl written
  | cons c body =>
      rw [List.cons_append, value?_plain strictness fuel (plain c List.mem_cons_self)]
      exact read

theorem literal?_nat {n : Nat} (fits : n < Width.limit 64) (rest : List Char) (ends : Ends rest) :
    literal? (Digits.render n ++ rest) = some (.nat n, rest) := by
  have read := natural?_render fits ends
  cases body : Digits.render n with
  | nil => exact absurd body (Digits.render_ne_nil n)
  | cons c more =>
      have digit := Digits.isDigit_render n c (body ▸ List.mem_cons_self)
      have differ (d : Char) (other : Digits.isDigit d = false) : c ≠ d := by
        rintro rfl
        simp [other] at digit
      rw [body, List.cons_append] at read
      rw [List.cons_append, literal?]
      · rw [read]
        rfl
      · exact fun _ is => differ 'n' (by decide) (List.cons.inj is).1
      · exact fun _ is => differ 't' (by decide) (List.cons.inj is).1
      · exact fun _ is => differ 'f' (by decide) (List.cons.inj is).1
      · exact fun _ is => differ '-' (by decide) (List.cons.inj is).1

theorem literal?_negative {n : Nat} (fits : n ≤ Width.limit 63) (rest : List Char)
    (ends : Ends rest) : literal? ('-' :: Digits.render n ++ rest) = some (.negative n, rest) := by
  have wider : n < Width.limit 64 := Nat.lt_of_le_of_lt fits (by decide)
  have read := natural?_render wider ends
  rw [List.cons_append, literal?, read]
  exact if_pos fits

/-! ## Documents -/

theorem print_head {document : Json} (writable : document.Writable) :
    ∃ c more, document.print = c :: more ∧ isBlank c = false ∧ endsWord c = false := by
  cases document with
  | null => exact ⟨'n', _, rfl, by decide, by decide⟩
  | bool value => cases value <;> exact ⟨_, _, rfl, by decide, by decide⟩
  | nat value =>
      cases body : Digits.render value with
      | nil => exact absurd body (Digits.render_ne_nil value)
      | cons c more =>
          have plain := isPlain_of_isDigit
            (Digits.isDigit_render value c (body ▸ List.mem_cons_self))
          exact ⟨c, more, body, by simp_all [isPlain], by simp_all [isPlain]⟩
  | negative magnitude => exact ⟨'-', _, rfl, by decide, by decide⟩
  | string value => exact ⟨'"', _, rfl, by decide, by decide⟩
  | array items => exact ⟨'[', _, rfl, by decide, by decide⟩
  | object members => exact ⟨'\x7b', _, rfl, by decide, by decide⟩
  | word text => exact writable.elim

theorem skipBlanks_cons {c : Char} (visible : isBlank c = false) (rest : List Char) :
    skipBlanks (c :: rest) = c :: rest := by
  simp [skipBlanks, visible]

theorem items?_first (strictness : Strictness) (fuel : Nat) {c : Char} {text : List Char}
    (visible : isBlank c = false) (begins : endsWord c = false) :
    items? strictness (fuel + 1) true (c :: text) =
      (value? strictness fuel (c :: text)).bind fun (item, rest) =>
        (items? strictness fuel false rest).map fun (items, rest) => (item :: items, rest) := by
  rw [items?]
  simp only [skipBlanks_cons visible]
  split
  · simp_all [endsWord]
  · simp_all [endsWord]
  · simp only [if_true]
    cases value? strictness fuel (c :: text) <;> rfl

theorem member?_printed (strictness : Strictness) (fuel : Nat) (name : String) (rest : List Char) :
    member? strictness (fuel + 1) (printText name ++ ':' :: rest) =
      (value? strictness fuel rest).map fun (value, rest) => ((name, value), rest) := by
  have quote : printText name ++ ':' :: rest =
      '"' :: (escape name.toList ++ '"' :: ':' :: rest) := by
    simp [printText]
  rw [quote, member?]
  simp only [skipBlanks_cons (by decide : isBlank '"' = false), string?_printed,
    skipBlanks_cons (by decide : isBlank ':' = false)]

/-- With so much fuel, everything printed in no more characters is read back.  The
five readers call each other with one unit less. -/
structure ReadsBack (strictness : Strictness) (fuel : Nat) : Prop where
  value : ∀ {document : Json} {rest : List Char}, document.Writable →
    document.print.length ≤ fuel → Ends rest →
      value? strictness fuel (document.print ++ rest) = some (document, rest)
  items : ∀ {items : List Json} (rest : List Char), WritableItems items →
    (printItems items).length < fuel →
      items? strictness fuel true (printItems items ++ ']' :: rest) = some (items, rest)
  moreItems : ∀ {items : List Json} (rest : List Char), WritableItems items →
    (printMore items).length < fuel →
      items? strictness fuel false (printMore items ++ ']' :: rest) = some (items, rest)
  members : ∀ {members : List (String × Json)} (rest : List Char), members ≠ [] →
    WritableMembers members → (printMembers members).length ≤ fuel →
      members? strictness fuel (printMembers members ++ '\x7d' :: rest) = some (members, rest)
  member : ∀ (name : String) {value : Json} {rest : List Char}, value.Writable →
    value.print.length < fuel → Ends rest →
      member? strictness fuel (printText name ++ ':' :: (value.print ++ rest)) =
        some ((name, value), rest)

theorem print_length_pos {document : Json} (writable : document.Writable) :
    0 < document.print.length := by
  obtain ⟨c, more, printed, -⟩ := print_head writable
  simp [printed]

variable {strictness : Strictness}

theorem ReadsBack.zero : ReadsBack strictness 0 where
  value writable short := by
    have := print_length_pos writable
    omega
  items _ _ short := absurd short (Nat.not_lt_zero _)
  moreItems _ _ short := absurd short (Nat.not_lt_zero _)
  members := by
    intro members rest some writable short
    cases members with
    | nil => exact absurd rfl some
    | cons member more =>
        rw [printMembers_cons] at short
        simp [printText] at short
  member _ _ _ _ short := absurd short (Nat.not_lt_zero _)

theorem ends_more (items : List Json) (rest : List Char) :
    Ends (printMore items ++ ']' :: rest) := by
  cases items with
  | nil => exact ends_cons (by decide) rest
  | cons item items => exact ends_cons (c := ',') (by decide) _

theorem ends_moreMembers (members : List (String × Json)) (rest : List Char) :
    Ends (printMoreMembers members ++ '\x7d' :: rest) := by
  cases members with
  | nil => exact ends_cons (by decide) rest
  | cons member members => exact ends_cons (c := ',') (by decide) _

section Step

variable {fuel : Nat} (below : ReadsBack strictness fuel)

include below

theorem ReadsBack.value_succ {document : Json} {rest : List Char} (writable : document.Writable)
    (short : document.print.length ≤ fuel + 1) (ends : Ends rest) :
    value? strictness (fuel + 1) (document.print ++ rest) = some (document, rest) := by
  cases document with
  | null =>
      exact value?_bare strictness fuel (by decide) (List.all_eq_true.mp (by decide))
        (fun _ _ => rfl) ends
  | bool value =>
      cases value <;>
        exact value?_bare strictness fuel (by decide) (List.all_eq_true.mp (by decide))
          (fun _ _ => rfl) ends
  | nat value =>
      exact value?_bare strictness fuel (Digits.render_ne_nil value)
        (fun c member => isPlain_of_isDigit (Digits.isDigit_render value c member))
        (literal?_nat writable) ends
  | negative magnitude =>
      have plain : ∀ c ∈ '-' :: Digits.render magnitude, isPlain c = true := by
        intro c member
        rcases List.mem_cons.mp member with rfl | later
        · decide
        · exact isPlain_of_isDigit (Digits.isDigit_render magnitude c later)
      exact value?_bare strictness fuel (List.cons_ne_nil _ _) plain
        (literal?_negative writable) ends
  | string value =>
      have quoted : (Json.string value).print ++ rest =
          '"' :: (escape value.toList ++ '"' :: rest) := by
        simp [print, printText]
      rw [quoted, value?]
      simp only [skipBlanks_cons (by decide : isBlank '"' = false), string?_printed]
      rfl
  | array items =>
      have bracketed : (Json.array items).print ++ rest =
          '[' :: (printItems items ++ ']' :: rest) := by
        simp [print]
      have shorter : (printItems items).length < fuel := by
        simp only [print, List.length_append, List.length_cons, List.length_nil] at short
        omega
      rw [bracketed, value?]
      simp only [skipBlanks_cons (by decide : isBlank '[' = false),
        below.items rest writable shorter]
      rfl
  | object members =>
      have braced : (Json.object members).print ++ rest =
          '\x7b' :: (printMembers members ++ '\x7d' :: rest) := by
        simp [print]
      have shorter : (printMembers members).length ≤ fuel := by
        simp only [print, List.length_append, List.length_cons, List.length_nil] at short
        omega
      rw [braced, value?]
      simp only [skipBlanks_cons (by decide : isBlank '\x7b' = false)]
      cases members with
      | nil =>
          simp only [printMembers, List.nil_append,
            skipBlanks_cons (by decide : isBlank '\x7d' = false)]
      | cons member more =>
          have read := below.members rest (List.cons_ne_nil member more) writable shorter
          have opens : printMembers (member :: more) ++ '\x7d' :: rest =
              '"' :: (printMembers (member :: more) ++ '\x7d' :: rest).tail := by
            rw [printMembers_cons]
            simp [printText]
          rw [opens] at read ⊢
          simp only [skipBlanks_cons (by decide : isBlank '"' = false), read]
          rfl
  | word text => exact writable.elim

theorem ReadsBack.moreItems_succ {items : List Json} (rest : List Char)
    (writable : WritableItems items) (short : (printMore items).length < fuel + 1) :
    items? strictness (fuel + 1) false (printMore items ++ ']' :: rest) = some (items, rest) := by
  cases items with
  | nil => rfl
  | cons item more =>
      have led : printMore (item :: more) = ',' :: (item.print ++ printMore more) :=
        List.flatMap_cons ..
      rw [led, List.length_cons, List.length_append] at short
      have first := below.value writable.1 (by omega) (ends_more more rest)
      have later := below.moreItems rest writable.2 (by omega)
      rw [led, List.cons_append, List.append_assoc, items?]
      simp only [skipBlanks_cons (by decide : isBlank ',' = false), first, later]
      rfl

theorem ReadsBack.items_succ {items : List Json} (rest : List Char)
    (writable : WritableItems items) (short : (printItems items).length < fuel + 1) :
    items? strictness (fuel + 1) true (printItems items ++ ']' :: rest) = some (items, rest) := by
  cases items with
  | nil => rfl
  | cons item more =>
      rw [printItems_cons, List.length_append] at short
      have positive := print_length_pos writable.1
      have first := below.value writable.1 (by omega) (ends_more more rest)
      have later := below.moreItems rest writable.2 (by omega)
      obtain ⟨c, body, printed, visible, begins⟩ := print_head writable.1
      rw [printed, List.cons_append] at first
      rw [printItems_cons, List.append_assoc, printed, List.cons_append,
        items?_first strictness fuel visible begins, first]
      simp only [Option.bind_some, later]
      rfl

theorem ReadsBack.members_succ {members : List (String × Json)} (rest : List Char)
    (written : members ≠ []) (writable : WritableMembers members)
    (short : (printMembers members).length ≤ fuel + 1) :
    members? strictness (fuel + 1) (printMembers members ++ '\x7d' :: rest) =
      some (members, rest) := by
  cases members with
  | nil => exact absurd rfl written
  | cons first more =>
      obtain ⟨name, value⟩ := first
      have quoted : 2 ≤ (printText name).length := by simp [printText]
      rw [printMembers_cons, List.length_append, List.length_append, List.length_cons] at short
      have read := below.member name writable.1 (by omega) (ends_moreMembers more rest)
      have apart : printMembers ((name, value) :: more) ++ '\x7d' :: rest =
          printText name ++ ':' :: (value.print ++ (printMoreMembers more ++ '\x7d' :: rest)) := by
        rw [printMembers_cons]
        simp
      rw [apart, members?, read]
      cases more with
      | nil =>
          simp only [printMoreMembers, List.flatMap_nil, List.nil_append,
            skipBlanks_cons (by decide : isBlank '\x7d' = false)]
      | cons next more =>
          have led : printMoreMembers (next :: more) = ',' :: printMembers (next :: more) := by
            rw [printMembers_cons]
            exact List.flatMap_cons ..
          rw [led, List.length_cons] at short
          have later := below.members rest (List.cons_ne_nil next more) writable.2 (by omega)
          rw [led, List.cons_append]
          simp only [skipBlanks_cons (by decide : isBlank ',' = false), later]
          rfl

theorem ReadsBack.member_succ (name : String) {value : Json} {rest : List Char}
    (writable : value.Writable) (short : value.print.length < fuel + 1) (ends : Ends rest) :
    member? strictness (fuel + 1) (printText name ++ ':' :: (value.print ++ rest)) =
      some ((name, value), rest) := by
  rw [member?_printed, below.value writable (by omega) ends]
  rfl

end Step

theorem readsBack (strictness : Strictness) (fuel : Nat) : ReadsBack strictness fuel := by
  induction fuel with
  | zero => exact .zero
  | succ fuel below =>
      exact {
        value := below.value_succ
        items := below.items_succ
        moreItems := below.moreItems_succ
        members := below.members_succ
        member := below.member_succ }

theorem parse?_print (strictness : Strictness) {document : Json} (writable : document.Writable)
    (shallow : document.depth ≤ maxDepth) : parse? strictness document.print = some document := by
  have read := (readsBack strictness (2 * document.print.length + 2)).value writable
    (by omega) ends_nil
  rw [List.append_nil] at read
  rw [parse?, Option.bind_eq_bind, Option.bind_eq_some_iff]
  exact ⟨(document, []), read, if_pos ⟨rfl, shallow⟩⟩

end LiquidStaking.Json

/-! ## Values -/

namespace LiquidStaking.Document

variable {α : Type} [Document α]

/-- The value is written as a document that can be printed and means the value. -/
structure Faithful (value : α) : Prop where
  writable : (toJson value).Writable
  shallow : (toJson value).depth ≤ Json.maxDepth
  means : ofJson? (toJson value) = some value

theorem ofBytes?_toBytes {value : α} (faithful : Faithful value) :
    ofBytes? (toBytes value) = some value := by
  have read := Json.parse?_print (strictness α) faithful.writable faithful.shallow
  simp [ofBytes?, toBytes, Bytes.toText?_ofText, ofText?, Json.ofText?, Json.toText, read,
    faithful.means]

end LiquidStaking.Document
