import LiquidStaking.Store.Basic

/-!
# Roles

The creator is the admin until the role moves, which takes a nomination by the
admin and a claim by the nominee.  The keeper, or the admin, starts epochs.
-/

namespace LiquidStaking

inductive RoleError where
  | unauthorized
  deriving DecidableEq, Repr

def RoleError.message : RoleError → String
  | .unauthorized => "unauthorized"

inductive RoleCommand where
  | setAdmin (admin : Address)
  | setPendingAdmin (nominee : Option Address)
  | setKeeper (keeper : Address)
  deriving DecidableEq, Repr

namespace Store

/-- The admin, at first the creator, who is always recorded. -/
def currentAdmin? (store : Store) : Readable Address := do
  match ← store.text? Key.admin.render with
  | some admin => some admin
  | none => (store.text? Key.creator.render).bind id

def pendingAdmin? (store : Store) : Readable (Option Address) :=
  store.text? Key.pendingAdmin.render

def keeper? (store : Store) : Readable (Option Address) := store.text? Key.keeper.render

def setCreator? (store : Store) (creator : Address) : Option Store :=
  store.setText? Key.creator.render creator

def applyRole? (store : Store) : RoleCommand → Option Store
  | .setAdmin admin => store.setText? Key.admin.render admin
  | .setPendingAdmin (some nominee) => store.setText? Key.pendingAdmin.render nominee
  | .setPendingAdmin none => some (store.remove Key.pendingAdmin.render)
  | .setKeeper keeper => store.setText? Key.keeper.render keeper

def applyRoles? (store : Store) (commands : List RoleCommand) : Option Store :=
  commands.foldlM applyRole? store

end Store

namespace Roles

def authorizeAdmin (store : Store) (sender : Address) : Attempt RoleError Unit := do
  let admin ← Attempt.promised store.currentAdmin?
  Attempt.require (sender = admin) .unauthorized

def authorizeKeeper (store : Store) (sender : Address) : Attempt RoleError Unit := do
  let keeper ← Attempt.promised store.keeper?
  if keeper = some sender then return ()
  else authorizeAdmin store sender

/-- The role moves only once the nominee claims it. -/
def nominate (store : Store) (sender nominee : Address) :
    Attempt RoleError (List RoleCommand) := do
  authorizeAdmin store sender
  return [.setPendingAdmin (some nominee)]

def cancelNomination (store : Store) (sender : Address) :
    Attempt RoleError (List RoleCommand) := do
  authorizeAdmin store sender
  return [.setPendingAdmin none]

def claimAdmin (store : Store) (sender : Address) : Attempt RoleError (List RoleCommand) := do
  let pending ← Attempt.promised store.pendingAdmin?
  let nominee ← Attempt.orRefuse pending .unauthorized
  Attempt.require (sender = nominee) .unauthorized
  return [.setAdmin nominee, .setPendingAdmin none]

def setKeeper (store : Store) (sender keeper : Address) :
    Attempt RoleError (List RoleCommand) := do
  authorizeAdmin store sender
  return [.setKeeper keeper]

end Roles

end LiquidStaking
