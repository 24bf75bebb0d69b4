import LiquidStaking.Attempt
import LiquidStaking.Json.Document
import LiquidStaking.Store.Key

/-!
# Byte storage

A finite map from keys to non-empty byte sequences.  Text is stored as UTF-8,
a number as eight bytes, and a record as a JSON document.  A typed read gives
`none` when the bytes are not of that type, and `some none` when nothing is
stored.
-/

namespace LiquidStaking

structure Store where
  entries : List (String × Bytes)
  deriving DecidableEq, Repr

namespace Store

def empty : Store := ⟨[]⟩

def get? (store : Store) (key : String) : Option Bytes :=
  (store.entries.find? fun (k, _) => k == key).map Prod.snd

def has (store : Store) (key : String) : Bool := (store.get? key).isSome

def putEntry (key : String) (value : Bytes) : List (String × Bytes) → List (String × Bytes)
  | [] => [(key, value)]
  | (k, v) :: rest => if k = key then (k, value) :: rest else (k, v) :: putEntry key value rest

def put (store : Store) (key : String) (value : Bytes) : Store :=
  ⟨putEntry key value store.entries⟩

/-- Nothing empty can be stored. -/
def set? (store : Store) (key : String) (value : Bytes) : Option Store :=
  if value = [] then none else some (store.put key value)

def remove (store : Store) (key : String) : Store :=
  ⟨store.entries.filter fun (k, _) => k != key⟩

theorem get?_put (store : Store) (key other : String) (value : Bytes) :
    (store.put key value).get? other = if key = other then some value else store.get? other := by
  obtain ⟨entries⟩ := store
  simp only [get?, put]
  induction entries with
  | nil => by_cases h : key = other <;> simp [putEntry, h]
  | cons entry rest ih =>
      obtain ⟨k, v⟩ := entry
      by_cases hk : k = key
      · subst hk
        by_cases h : k = other <;> simp [putEntry, h]
      · by_cases h : k = other
        · subst h
          simp [putEntry, hk, Ne.symm hk]
        · simp only [putEntry, hk, if_false, List.find?_cons, beq_eq_false_iff_ne.mpr h]
          exact ih

theorem get?_remove (store : Store) (key other : String) :
    (store.remove key).get? other = if key = other then none else store.get? other := by
  obtain ⟨entries⟩ := store
  simp only [get?, remove]
  induction entries with
  | nil => simp
  | cons entry rest ih =>
      obtain ⟨k, v⟩ := entry
      by_cases hk : k = key
      · subst hk
        by_cases h : k = other
        · simp_all
        · simp_all
      · by_cases h : k = other
        · subst h
          simp [hk, Ne.symm hk]
        · have kept : (k != key) = true := by simpa using hk
          simp only [List.filter_cons, kept, if_true, List.find?_cons,
            beq_eq_false_iff_ne.mpr h]
          exact ih

/-! ## Typed entries -/

def read? {α : Type} (store : Store) (key : String) (decode : Bytes → Option α) :
    Readable (Option α) :=
  match store.get? key with
  | none => some none
  | some bytes => (decode bytes).map some

def text? (store : Store) (key : String) : Readable (Option String) :=
  store.read? key Bytes.toText?

def number? (store : Store) (key : String) : Readable (Option Nat) :=
  store.read? key Bytes.toNumber?

def document? {α : Type} [Document α] (store : Store) (key : String) : Readable (Option α) :=
  store.read? key Document.ofBytes?

def setText? (store : Store) (key text : String) : Option Store :=
  store.set? key (Bytes.ofText text)

def setNumber (store : Store) (key : String) (n : Nat) : Store :=
  store.put key (Bytes.bigEndian 8 n)

def setDocument {α : Type} [Document α] (store : Store) (key : String) (value : α) : Store :=
  store.put key (Document.toBytes value)

/-! ## Differences -/

def changesSince (after before : Store) : List (String × Option Bytes) :=
  let keys := (before.entries ++ after.entries).map Prod.fst
  (keys.eraseDups.filter fun key => before.get? key != after.get? key).map fun key =>
    (key, after.get? key)

end Store

end LiquidStaking
