import LiquidStaking.Proofs.Numerals
import LiquidStaking.Proofs.Wire.Writing
import LiquidStaking.Wire.Message
import Mathlib.Data.List.Nodup
import Mathlib.Data.String.Basic

/-!
# What the fields of a message hold

A message for an account is described by what it has under which number: texts, numbers, and
coins, whose amount is a plain numeral.  Bytes that hold this and nothing else are told from
those of any other message of the same build, and what is written holds what it is written from.
-/

namespace LiquidStaking

namespace Wire

open Width

variable {α : Type} {bytes : Bytes} {depth number : Nat} {fields : List Field}

inductive Content where
  | text (text : String)
  | number (n : Nat)
  | coin (amount : Amount) (denom : Denom)
  deriving DecidableEq, Repr

/-- A text that a machine can hold: its bytes are counted in 63 bits. -/
def Storable (text : String) : Prop := Bytes.textLength text < limit 63

instance : DecidablePred Storable := fun _ => Nat.decLt _ _

namespace Content

def Stated (number : Nat) (fields : List Field) : Content → Prop
  | .text body => Single .ofText "" number body fields
  | .number n => Single .varint 0 number n fields
  | .coin amount denom => ∃ digits, Digits.Plain digits amount ∧
      Repeated CoinText.Stated number [⟨denom, String.ofList digits⟩] fields

def put (number : Nat) : Content → Bytes
  | .text body => putText number body
  | .number n => putNumber number n
  | .coin amount denom => putDelimited number (putCoin amount denom)

def Storable : Content → Prop
  | .text body => Wire.Storable body
  | .number _ => True
  | .coin _ denom => Wire.Storable denom

instance : DecidablePred Storable
  | .text body => inferInstanceAs (Decidable (Wire.Storable body))
  | .number _ => .isTrue trivial
  | .coin _ denom => inferInstanceAs (Decidable (Wire.Storable denom))

def Fits : Content → Prop
  | .text _ => True
  | .number n => n < limit 64
  | .coin amount _ => amount < limit 128

def toFields (number : Nat) : Content → List Field
  | .text body => sparing .ofText "" number body
  | .number n => sparing .varint 0 number n
  | .coin amount denom => [⟨number, .delimited (putCoin amount denom)⟩]

def Alike : Content → Content → Prop
  | .text _, .text _ => True
  | .number _, .number _ => True
  | .coin _ _, .coin _ _ => True
  | _, _ => False

end Content

/-- What a message holds, each under a number of its own. -/
structure Contents where
  entries : List (Nat × Content)
  distinct : (entries.map Prod.fst).Nodup
  numbered : ∀ number ∈ entries.map Prod.fst, Numbered number

namespace Contents

/-- The fields hold the contents, and there are no others. -/
structure Stated (contents : Contents) (fields : List Field) : Prop where
  each : ∀ entry ∈ contents.entries, entry.2.Stated entry.1 fields
  only : ∀ field ∈ fields, field.number ∈ contents.entries.map Prod.fst

def put (contents : Contents) : Bytes :=
  contents.entries.flatMap fun entry => entry.2.put entry.1

def toFields (contents : Contents) : List Field :=
  contents.entries.flatMap fun entry => entry.2.toFields entry.1

/-- The same kinds of contents stand under the same numbers. -/
def Alike (contents others : Contents) : Prop :=
  List.Forall₂ (fun entry other => entry.1 = other.1 ∧ entry.2.Alike other.2)
    contents.entries others.entries

end Contents

/-! ## One reading -/

theorem Payload.ofText_injective : Function.Injective Payload.ofText := by
  intro text other same
  have bytes := congrArg Bytes.toText? (Payload.delimited.inj same)
  rwa [Bytes.toText?_ofText, Bytes.toText?_ofText, Option.some.injEq] at bytes

theorem Written.unique {others : List Field} (written : Written (depth + 1) fields bytes)
    (again : Written (depth + 1) others bytes) : fields = others :=
  Option.some.inj ((fields?_eq_some.mpr written).symm.trans (fields?_eq_some.mpr again))

theorem Single.unique {make : α → Payload} {absent value other : α}
    (injective : Function.Injective make) (single : Single make absent number value fields)
    (again : Single make absent number other fields) : value = other := by
  obtain ⟨values, all, rfl⟩ := single
  obtain ⟨others, all', rfl⟩ := again
  rw [List.map_injective_iff.mpr injective (all.symm.trans all')]

theorem CoinText.Stated.unique {coin other : CoinText} (stated : coin.Stated fields)
    (again : other.Stated fields) : coin = other := by
  obtain ⟨denom, amount⟩ := coin
  obtain ⟨denom', amount'⟩ := other
  obtain rfl : denom = denom' := stated.denom.unique Payload.ofText_injective again.denom
  obtain rfl : amount = amount' := stated.amount.unique Payload.ofText_injective again.amount
  rfl

theorem Repeated.unique {stated : α → List Field → Prop} {value other : α}
    (repeated : Repeated stated number [value] fields)
    (again : Repeated stated number [other] fields)
    (tells : ∀ {fields}, stated value fields → stated other fields → value = other) :
    value = other := by
  obtain ⟨payload, none, ⟨bytes, rfl, part, written, said⟩, rest, held⟩ :=
    List.forall₂_cons_left_iff.mp repeated
  rw [Repeated, held] at again
  obtain ⟨⟨bytes', same, part', written', said'⟩, -⟩ := List.forall₂_cons.mp again
  obtain rfl := Payload.delimited.inj same
  obtain rfl := Written.unique written written'
  exact tells said said'

theorem Content.Stated.unique {content other : Content} (alike : content.Alike other)
    (stated : content.Stated number fields) (again : other.Stated number fields) :
    content = other := by
  cases content <;> cases other <;> try cases alike
  case text => exact congrArg _ (Single.unique Payload.ofText_injective stated again)
  case number =>
    exact congrArg _ (Single.unique (fun _ _ same => Payload.varint.inj same) stated again)
  case coin amount denom amount' denom' =>
    obtain ⟨digits, plain, coin⟩ := stated
    obtain ⟨digits', plain', coin'⟩ := again
    have same := coin.unique coin' CoinText.Stated.unique
    obtain ⟨rfl, texts⟩ := CoinText.mk.inj same
    obtain rfl := String.ofList_injective texts
    rw [plain.spelled.symm.trans plain'.spelled]

theorem Contents.unique {contents others : Contents} (alike : contents.Alike others)
    (encodes : Encodes (depth + 1) Contents.Stated contents bytes)
    (again : Encodes (depth + 1) Contents.Stated others bytes) : contents = others := by
  obtain ⟨fields, written, each, -⟩ := encodes
  obtain ⟨_, written', each', -⟩ := again
  obtain rfl := written.unique written'
  obtain ⟨entries, distinct, numbered⟩ := contents
  obtain ⟨entries', distinct', numbered'⟩ := others
  suffices same : entries = entries' by
    subst same
    rfl
  -- Both read the same fields, so the entries agree one by one; being distinct has no part in it.
  dsimp only [Contents.Alike] at alike each each'
  clear distinct distinct' numbered numbered'
  induction alike with
  | nil => rfl
  | @cons entry other entries others same later ih =>
      obtain ⟨number, content⟩ := entry
      obtain ⟨number', content'⟩ := other
      obtain ⟨rfl, alike⟩ : number = number' ∧ content.Alike content' := same
      rw [List.forall_mem_cons] at each each'
      obtain rfl := each.1.unique alike each'.1
      rw [ih each.2 each'.2]

/-! ## Lengths -/

theorem length_ofText (text : String) : (Bytes.ofText text).length = Bytes.textLength text := by
  simp [Bytes.ofText, Bytes.textLength]

theorem length_putDelimited_le (numbered : Numbered number) (fits : bytes.length < limit 64) :
    (putDelimited number bytes).length ≤ 20 + bytes.length := by
  have key := (opens_putKey numbered (by decide : 2 < 8)).spelled.short
  have count := (number_putVarint fits).short
  rw [putDelimited, List.length_append, List.length_append]
  omega

theorem length_putText_le (text : String) (numbered : Numbered number)
    (fits : Bytes.textLength text < limit 64) :
    (putText number text).length ≤ 20 + Bytes.textLength text := by
  unfold putText
  split
  · exact Nat.zero_le _
  · rw [← length_ofText] at fits ⊢
    exact length_putDelimited_le numbered fits

theorem textLength_ofList_le (text : List Char) :
    Bytes.textLength (String.ofList text) ≤ 4 * text.length := by
  rw [Bytes.textLength, String.utf8ByteSize_ofList]
  induction text with
  | nil => exact Nat.le_refl _
  | cons c rest ih =>
      have size := c.utf8Size_le_four
      rw [String.utf8Len_cons, List.length_cons]
      omega

theorem Storable.fits {text : String} (storable : Storable text) :
    Bytes.textLength text < limit 64 := storable.trans (by decide)

theorem textLength_ofNat_le {amount : Amount} (fits : amount < limit 128) :
    Bytes.textLength (Digits.ofNat amount) ≤ 156 := by
  have small : amount < 10 ^ 39 := fits.trans (by decide)
  have digits := Digits.length_render_le (by decide) small
  have bytes := textLength_ofList_le (Digits.render amount)
  rw [Digits.ofNat]
  omega

theorem length_putCoin_lt {amount : Amount} {denom : Denom} (fits : amount < limit 128)
    (storable : Storable denom) : (putCoin amount denom).length < limit 64 := by
  have digits := textLength_ofNat_le fits
  have first := length_putText_le denom numbered_one storable.fits
  have second := length_putText_le (Digits.ofNat amount) numbered_two
    (Nat.lt_of_le_of_lt digits (by decide))
  have room : limit 63 + 196 < limit 64 := by decide
  have := storable
  rw [Storable] at this
  rw [putCoin, List.length_append]
  omega

/-! ## Writing -/

theorem encodes_putCoin {amount : Amount} {denom : Denom} (fits : amount < limit 128)
    (storable : Storable denom) :
    Encodes (depth + 1) CoinText.Stated ⟨denom, Digits.ofNat amount⟩ (putCoin amount denom) :=
  CoinText.encodes_put (length_putCoin_lt fits storable)

namespace Content

variable {content : Content}

theorem written_put (numbered : Numbered number) (storable : content.Storable)
    (fits : content.Fits) : Written (depth + 1) (content.toFields number) (content.put number) := by
  cases content with
  | text body =>
      refine written_sparing fun _ => written_putDelimited numbered ?_
      rw [length_ofText]
      exact Wire.Storable.fits storable
  | number n => exact written_putNumber numbered fits
  | coin amount denom => exact written_putDelimited numbered (length_putCoin_lt fits storable)

theorem stated_of_held (storable : content.Storable) (fits : content.Fits)
    (own : held number fields = held number (content.toFields number)) :
    content.Stated number fields := by
  cases content with
  | text body => exact single_of_held own
  | number n => exact single_of_held own
  | coin amount denom =>
      refine ⟨_, Digits.plain_render amount, ?_⟩
      rw [Repeated, own, Content.toFields, held_cons_self, held_nil]
      exact .cons ⟨_, rfl, encodes_putCoin fits storable⟩ .nil

theorem number_of_mem_toFields {field : Field} (member : field ∈ content.toFields number) :
    field.number = number := by
  cases content with
  | text | number =>
      simp only [Content.toFields, sparing] at member
      split at member
      · cases member
      · rw [List.mem_singleton.mp member]
  | coin amount denom => rw [List.mem_singleton.mp member]

end Content

namespace Contents

variable {contents : Contents}

theorem number_of_mem_toFields {field : Field} (member : field ∈ contents.toFields) :
    field.number ∈ contents.entries.map Prod.fst := by
  obtain ⟨entry, listed, own⟩ := List.mem_flatMap.mp member
  exact List.mem_map.mpr ⟨entry, listed, (Content.number_of_mem_toFields own).symm⟩

theorem held_eq_nil {other : Nat} {fields : List Field}
    (differs : ∀ field ∈ fields, field.number ≠ other) : held other fields = [] := by
  simpa [held, List.filter_eq_nil_iff] using differs

theorem held_toFields {entry : Nat × Content} (member : entry ∈ contents.entries) :
    held entry.1 contents.toFields = held entry.1 (entry.2.toFields entry.1) := by
  have distinct := contents.distinct
  obtain ⟨front, back, split⟩ := List.append_of_mem member
  -- What is written for the entries before and after has other numbers.
  have others {entries : List (Nat × Content)} (apart : entry.1 ∉ entries.map Prod.fst) :
      held entry.1 (entries.flatMap fun entry => entry.2.toFields entry.1) = [] := by
    refine held_eq_nil fun field member same => apart ?_
    obtain ⟨other, listed, own⟩ := List.mem_flatMap.mp member
    rw [← same, Content.number_of_mem_toFields own]
    exact List.mem_map_of_mem listed
  rw [split, List.map_append, List.map_cons, List.nodup_middle, List.nodup_cons, List.mem_append,
    not_or] at distinct
  obtain ⟨⟨before, after⟩, -⟩ := distinct
  simp only [toFields, split, List.flatMap_append, List.flatMap_cons, held_append, others before,
    others after, List.nil_append, List.append_nil]

section Writing

variable (storable : ∀ entry ∈ contents.entries, entry.2.Storable)
  (fits : ∀ entry ∈ contents.entries, entry.2.Fits)

include storable fits

theorem written_put : Written (depth + 1) contents.toFields contents.put := by
  have numbered := contents.numbered
  simp only [toFields, put]
  generalize contents.entries = entries at storable fits numbered
  induction entries with
  | nil => exact .nil
  | cons entry entries ih =>
      rw [List.map_cons, List.forall_mem_cons] at numbered
      rw [List.forall_mem_cons] at storable fits
      exact (Content.written_put numbered.1 storable.1 fits.1).append
        (ih storable.2 fits.2 numbered.2)

theorem encodes_put : Encodes (depth + 1) Stated contents contents.put :=
  ⟨_, written_put storable fits, fun entry member =>
    Content.stated_of_held (storable entry member) (fits entry member) (held_toFields member),
    fun _ => number_of_mem_toFields⟩

end Writing

end Contents

end Wire

end LiquidStaking
