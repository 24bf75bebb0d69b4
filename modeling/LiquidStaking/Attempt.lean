/-!
# Attempts

A call has one of three outcomes: a value, a refusal for a stated cause, or an
abort.  A call aborts when a promise its author relies on is broken (a sum
leaves its width, a stored document cannot be read back); an abort carries no
cause, because nobody is meant to handle it.

Steps that can break a promise but never refuse are written with `Option`, and
`Attempt.promised` lifts them.
-/

namespace LiquidStaking

inductive Stop (ε : Type) where
  | refused (cause : ε)
  | aborted
  deriving DecidableEq, Repr

abbrev Attempt (ε α : Type) := Except (Stop ε) α

/-- What a read of stored state gives: `none` for what cannot be read back. -/
abbrev Readable (α : Type) := Option α

namespace Attempt

variable {ε δ α : Type}

def refuse (cause : ε) : Attempt ε α := .error (.refused cause)

def abort : Attempt ε α := .error .aborted

/-- The value a promise keeps, or an abort when it is broken. -/
def promised : Option α → Attempt ε α
  | some value => .ok value
  | none => abort

def orRefuse (found : Option α) (cause : ε) : Attempt ε α :=
  match found with
  | some value => .ok value
  | none => refuse cause

def require (condition : Prop) [Decidable condition] (cause : ε) : Attempt ε Unit :=
  if condition then .ok () else refuse cause

def mapCause (f : ε → δ) : Attempt ε α → Attempt δ α
  | .ok value => .ok value
  | .error (.refused cause) => refuse (f cause)
  | .error .aborted => abort

theorem bind_eq_ok {β : Type} {attempt : Attempt ε α} {next : α → Attempt ε β} {value : β} :
    (attempt >>= next) = .ok value ↔ ∃ first, attempt = .ok first ∧ next first = .ok value := by
  cases attempt <;> simp [bind, Except.bind]

theorem bind_congr {β : Type} {attempt : Attempt ε α} {f g : α → Attempt ε β}
    (same : ∀ value, attempt = .ok value → f value = g value) :
    (attempt >>= f) = (attempt >>= g) := by
  cases attempt with
  | error stop => rfl
  | ok value => exact same value rfl

theorem exists_of_isOk {attempt : Attempt ε α} (granted : attempt.isOk = true) :
    ∃ value, attempt = .ok value := by
  cases attempt with
  | error stop => cases granted
  | ok value => exact ⟨value, rfl⟩

theorem mapCause_eq_ok {f : ε → δ} {attempt : Attempt ε α} {value : α} :
    mapCause f attempt = .ok value ↔ attempt = .ok value := by
  cases attempt with
  | ok first => simp [mapCause]
  | error stop => cases stop <;> simp [mapCause, refuse, abort]

theorem promised_eq_ok {found : Option α} {value : α} :
    (promised found : Attempt ε α) = .ok value ↔ found = some value := by
  cases found <;> simp [promised, abort]

theorem orRefuse_eq_ok {found : Option α} {cause : ε} {value : α} :
    orRefuse found cause = .ok value ↔ found = some value := by
  cases found <;> simp [orRefuse, refuse]

theorem require_eq_ok {condition : Prop} [Decidable condition] {cause : ε} {value : Unit} :
    require condition cause = .ok value ↔ condition := by
  by_cases h : condition <;> simp [require, h, refuse]

end Attempt

end LiquidStaking
