import LiquidStaking.Proofs.Prepaid

/-!
# Succession

Who holds the roles is read off storage, and a request that succeeds moves one seat,
a claim two.  So the admin changes by nomination and claim only, whatever is asked by
whom in whatever order: a nominee who waits was nominated by whoever is the admin
now, and nothing but keepers was settled since.
-/

namespace LiquidStaking

structure Seats where
  admin : Address
  /-- The nominee, who becomes the admin by claiming the role. -/
  pending : Option Address
  keeper : Option Address
  deriving DecidableEq, Repr

namespace Seats

def apply (seats : Seats) : RoleCommand → Seats
  | .setAdmin admin => { seats with admin }
  | .setPendingAdmin pending => { seats with pending }
  | .setKeeper keeper => { seats with keeper := some keeper }

/-- What the request of a sender makes of the seats, if it succeeds. -/
inductive Step (seats : Seats) (sender : Address) : RoleRequest → Seats → Prop
  | nominate {nominee : Address} (admin : sender = seats.admin) :
      Step seats sender (.nominateAdmin nominee) { seats with pending := some nominee }
  | claim (nominated : seats.pending = some sender) :
      Step seats sender .claimAdmin { seats with admin := sender, pending := none }
  | cancel (admin : sender = seats.admin) :
      Step seats sender .cancelNomination { seats with pending := none }
  | appoint {keeper : Address} (admin : sender = seats.admin) :
      Step seats sender (.setKeeper keeper) { seats with keeper := some keeper }

end Seats

/-! ## Seats in storage -/

namespace Store

variable {store store' : Store} {seats : Seats}

def seats? (store : Store) : Readable Seats := do
  return {
    admin := ← store.currentAdmin?
    pending := ← store.pendingAdmin?
    keeper := ← store.keeper? }

theorem seats?_eq_some : store.seats? = some seats ↔
    store.currentAdmin? = some seats.admin ∧ store.pendingAdmin? = some seats.pending ∧
      store.keeper? = some seats.keeper := by
  obtain ⟨admin, pending, keeper⟩ := seats
  simp [seats?, Option.bind_eq_some_iff]

section Entry

variable {key other text : String}

theorem text?_of_get? (same : store'.get? key = store.get? key) :
    store'.text? key = store.text? key := by
  simp only [text?, read?, same]

theorem text?_remove (key : String) : (store.remove key).text? key = some none := by
  simp only [text?, read?, get?_remove, if_true]

theorem setText?_eq_some (written : store.setText? key text = some store') :
    store' = store.put key (Bytes.ofText text) := by
  simp only [setText?, set?] at written
  split at written
  · cases written
  · exact (Option.some.inj written).symm

theorem text?_setText? (written : store.setText? key text = some store') :
    store'.text? key = some (some text) := by
  rw [setText?_eq_some written]
  simp [text?, read?, get?_put, Bytes.toText?_ofText]

theorem text?_setText?_of_ne (written : store.setText? key text = some store')
    (differ : key ≠ other) : store'.text? other = store.text? other := by
  rw [setText?_eq_some written]
  exact text?_of_get? (get?_put_of_ne differ _)

end Entry

def roleKeys : List Key := [.creator, .admin, .pendingAdmin, .keeper]

def configKeys : List Key :=
  [.delegationEpoch, .undelegationEpoch, .accountTimeout, .transferTimeout]

theorem config_ne_role : ∀ key ∈ configKeys, ∀ role ∈ roleKeys, key.render ≠ role.render := by
  decide

def SameRoles (store store' : Store) : Prop :=
  ∀ key ∈ roleKeys, store'.get? key.render = store.get? key.render

theorem SameRoles.trans {store'' : Store} (same : store.SameRoles store')
    (same' : store'.SameRoles store'') : store.SameRoles store'' :=
  fun key role => (same' key role).trans (same key role)

theorem SameRoles.put {key : Key} (config : key ∈ configKeys) (store : Store) (value : Bytes) :
    store.SameRoles (store.put key.render value) :=
  fun role isRole => get?_put_of_ne (config_ne_role key config role isRole) value

theorem SameRoles.setText? {key : Key} (config : key ∈ configKeys) {text : String}
    (written : store.setText? key.render text = some store') : store.SameRoles store' := by
  rw [setText?_eq_some written]
  exact .put config store _

theorem SameRoles.seats? (same : store.SameRoles store') : store'.seats? = store.seats? := by
  have read {key : Key} (role : key ∈ roleKeys) :
      store'.text? key.render = store.text? key.render := text?_of_get? (same key role)
  simp only [Store.seats?, currentAdmin?, pendingAdmin?, keeper?,
    read (by decide : Key.creator ∈ roleKeys), read (by decide : Key.admin ∈ roleKeys),
    read (by decide : Key.pendingAdmin ∈ roleKeys), read (by decide : Key.keeper ∈ roleKeys)]

theorem currentAdmin?_of_text?
    (admin : store'.text? Key.admin.render = store.text? Key.admin.render)
    (creator : store'.text? Key.creator.render = store.text? Key.creator.render) :
    store'.currentAdmin? = store.currentAdmin? := by
  rw [currentAdmin?, currentAdmin?, admin, creator]

theorem seats?_applyRole? {command : RoleCommand} (seated : store.seats? = some seats)
    (applied : store.applyRole? command = some store') :
    store'.seats? = some (seats.apply command) := by
  obtain ⟨admin, pending, keeper⟩ := seats?_eq_some.mp seated
  refine seats?_eq_some.mpr ?_
  cases command with
  | setAdmin next =>
      have read : store'.text? Key.admin.render = some (some next) := text?_setText? applied
      refine ⟨by simp [currentAdmin?, read, Seats.apply], ?_, ?_⟩
      · exact (text?_setText?_of_ne applied (by decide)).trans pending
      · exact (text?_setText?_of_ne applied (by decide)).trans keeper
  | setPendingAdmin next =>
      cases next with
      | none =>
          cases applied
          have others {other : String} (differ : Key.pendingAdmin.render ≠ other) :
              (store.remove Key.pendingAdmin.render).text? other = store.text? other :=
            text?_of_get? (get?_remove_of_ne differ)
          refine ⟨?_, text?_remove _, (others (by decide)).trans keeper⟩
          exact (currentAdmin?_of_text? (others (by decide)) (others (by decide))).trans admin
      | some nominee =>
          have others {other : String} (differ : Key.pendingAdmin.render ≠ other) :=
            text?_setText?_of_ne applied differ
          refine ⟨?_, text?_setText? applied, (others (by decide)).trans keeper⟩
          exact (currentAdmin?_of_text? (others (by decide)) (others (by decide))).trans admin
  | setKeeper next =>
      have others {other : String} (differ : Key.keeper.render ≠ other) :=
        text?_setText?_of_ne applied differ
      refine ⟨?_, (others (by decide)).trans pending, text?_setText? applied⟩
      exact (currentAdmin?_of_text? (others (by decide)) (others (by decide))).trans admin

theorem seats?_applyRoles? {commands : List RoleCommand} (seated : store.seats? = some seats)
    (applied : store.applyRoles? commands = some store') :
    store'.seats? = some (commands.foldl Seats.apply seats) := by
  induction commands generalizing store seats with
  | nil =>
      cases applied
      exact seated
  | cons command commands ih =>
      simp only [applyRoles?, List.foldlM_cons, Option.bind_eq_bind, Option.bind_eq_some_iff]
        at applied
      obtain ⟨next, first, rest⟩ := applied
      exact ih (seats?_applyRole? seated first) rest

end Store

/-! ## Requests -/

section Requests

variable {store : Store} {seats : Seats} {sender : Address} {ended : Answer × Store}

theorem Roles.admin_of_authorized (authorized : Roles.authorizeAdmin store sender = .ok ()) :
    store.currentAdmin? = some sender := by
  simp only [Roles.authorizeAdmin, Attempt.bind_eq_ok, Attempt.promised_eq_ok,
    Attempt.require_eq_ok] at authorized
  obtain ⟨admin, current, rfl⟩ := authorized
  exact current

theorem Contract.roleCommands_step (seated : store.seats? = some seats) {request : RoleRequest}
    {commands : List RoleCommand}
    (granted : roleCommands host store sender request = .ok commands) :
    seats.Step sender request (commands.foldl Seats.apply seats) := by
  obtain ⟨current, pending, -⟩ := Store.seats?_eq_some.mp seated
  have isAdmin (authorized : Roles.authorizeAdmin store sender = .ok ()) : sender = seats.admin :=
    Option.some.inj ((Roles.admin_of_authorized authorized).symm.trans current)
  cases request with
  | nominateAdmin nominee =>
      simp only [roleCommands, ofRoles, Roles.nominate, Attempt.bind_eq_ok,
        Attempt.mapCause_eq_ok] at granted
      obtain ⟨_, ⟨_, authorized, named⟩, _, -, granted⟩ := granted
      cases Attempt.pure_eq_ok.mp named
      cases Attempt.pure_eq_ok.mp granted
      exact .nominate (isAdmin authorized)
  | claimAdmin =>
      simp only [roleCommands, ofRoles, Roles.claimAdmin, Attempt.bind_eq_ok,
        Attempt.mapCause_eq_ok, Attempt.promised_eq_ok, Attempt.orRefuse_eq_ok,
        Attempt.require_eq_ok] at granted
      obtain ⟨_, read, nominee, rfl, _, rfl, granted⟩ := granted
      cases Attempt.pure_eq_ok.mp granted
      exact .claim (Option.some.inj (pending.symm.trans read))
  | cancelNomination =>
      simp only [roleCommands, ofRoles, Roles.cancelNomination, Attempt.bind_eq_ok,
        Attempt.mapCause_eq_ok] at granted
      obtain ⟨_, authorized, granted⟩ := granted
      cases Attempt.pure_eq_ok.mp granted
      exact .cancel (isAdmin authorized)
  | setKeeper keeper =>
      simp only [roleCommands, ofRoles, Roles.setKeeper, Attempt.bind_eq_ok,
        Attempt.mapCause_eq_ok] at granted
      obtain ⟨_, ⟨_, authorized, named⟩, _, -, granted⟩ := granted
      cases Attempt.pure_eq_ok.mp named
      cases Attempt.pure_eq_ok.mp granted
      exact .appoint (isAdmin authorized)

theorem Contract.changeRoles_step (seated : store.seats? = some seats) {caller : Caller}
    {request : RoleRequest} (done : changeRoles host caller store request = .ok ended) :
    ∃ after, ended.2.seats? = some after ∧ seats.Step caller.sender request after := by
  simp only [changeRoles, Attempt.bind_eq_ok, Attempt.promised_eq_ok] at done
  obtain ⟨commands, granted, next, applied, done⟩ := done
  obtain rfl := Attempt.pure_eq_ok.mp done
  exact ⟨_, Store.seats?_applyRoles? seated applied, roleCommands_step seated granted⟩

theorem Contract.recordConfig?_roles {after : Store} {config : Config}
    (recorded : recordConfig? store config = some after) : store.SameRoles after := by
  simp only [recordConfig?, Option.bind_eq_bind, Option.bind_eq_some_iff, Option.pure_def,
    Option.some.injEq] at recorded
  obtain ⟨first, delegation, second, undelegation, rfl⟩ := recorded
  exact (Store.SameRoles.setText? (by decide : Key.delegationEpoch ∈ Store.configKeys)
      delegation).trans <|
    (Store.SameRoles.setText? (by decide : Key.undelegationEpoch ∈ Store.configKeys)
      undelegation).trans <|
    (Store.SameRoles.put (by decide : Key.accountTimeout ∈ Store.configKeys) second _).trans <|
    .put (by decide : Key.transferTimeout ∈ Store.configKeys) _ _

theorem Contract.recordKeeper_seats {after : Store} {admin : Address} {keeper : Option Address}
    (seated : store.seats? = some ⟨admin, none, none⟩)
    (recorded : recordKeeper host store keeper = .ok after) :
    after.seats? = some ⟨admin, none, keeper⟩ := by
  cases keeper with
  | none =>
      cases recorded
      exact seated
  | some address =>
      simp only [recordKeeper, Attempt.bind_eq_ok, Attempt.promised_eq_ok] at recorded
      obtain ⟨-, -, applied⟩ := recorded
      exact Store.seats?_applyRole? seated applied

theorem Contract.setUp_seats {setup : Setup} (done : setUp host sender .empty setup = .ok ended) :
    ended.2.seats? = some ⟨sender, none, setup.keeper⟩ := by
  simp only [setUp, Attempt.bind_eq_ok, Attempt.promised_eq_ok] at done
  obtain ⟨-, -, created, creator, kept, keeper, configured, config, done⟩ := done
  obtain rfl := Attempt.pure_eq_ok.mp done
  have others {other : String} (differ : Key.creator.render ≠ other) :
      created.text? other = some none :=
    (Store.text?_setText?_of_ne creator differ).trans rfl
  have read : created.text? Key.creator.render = some (some sender) :=
    Store.text?_setText? creator
  have begun : created.seats? = some ⟨sender, none, none⟩ := by
    refine Store.seats?_eq_some.mpr ⟨?_, others (by decide), others (by decide)⟩
    simp [Store.currentAdmin?, others (by decide : Key.creator.render ≠ Key.admin.render), read]
  exact (recordConfig?_roles config).seats?.trans (recordKeeper_seats begun keeper)

end Requests

/-! ## Runs -/

structure RoleCall where
  host : Host
  caller : Contract.Caller
  request : RoleRequest

namespace RoleCall

def Succeeds (call : RoleCall) (store : Store) : Prop :=
  ∃ ended, Contract.execute call.host call.caller store (.role call.request) = .ok ended

end RoleCall

namespace Store

def afterRole (store : Store) (call : RoleCall) : Store :=
  match Contract.execute call.host call.caller store (.role call.request) with
  | .ok (_, after) => after
  | .error _ => store

def afterRoles (store : Store) (calls : List RoleCall) : Store := calls.foldl afterRole store

/-- All that succeeds in the run appoints keepers. -/
def OnlyAppoints (store : Store) : List RoleCall → Prop
  | [] => True
  | call :: rest =>
      (call.Succeeds store → ∃ keeper, call.request = .setKeeper keeper) ∧
        (store.afterRole call).OnlyAppoints rest

/-- The admin nominated the nominee in the run, and since then nobody was nominated, no
nomination was cancelled, and the role was not claimed. -/
def Nominated (store : Store) (calls : List RoleCall) (admin nominee : Address) : Prop :=
  ∃ earlier nomination later, calls = earlier ++ nomination :: later ∧
    nomination.request = .nominateAdmin nominee ∧ nomination.caller.sender = admin ∧
    (store.afterRoles earlier).currentAdmin? = some admin ∧
    nomination.Succeeds (store.afterRoles earlier) ∧
    (store.afterRoles (earlier ++ [nomination])).OnlyAppoints later

variable {store : Store} {seats : Seats} {call : RoleCall} {calls later : List RoleCall}

theorem afterRoles_append (store : Store) (calls later : List RoleCall) :
    store.afterRoles (calls ++ later) = (store.afterRoles calls).afterRoles later :=
  List.foldl_append

theorem afterRoles_snoc (store : Store) (calls : List RoleCall) (call : RoleCall) :
    store.afterRoles (calls ++ [call]) = (store.afterRoles calls).afterRole call :=
  afterRoles_append store calls [call]

theorem onlyAppoints_append :
    store.OnlyAppoints (calls ++ later) ↔
      store.OnlyAppoints calls ∧ (store.afterRoles calls).OnlyAppoints later := by
  induction calls generalizing store with
  | nil => simp [OnlyAppoints, afterRoles]
  | cons call calls ih =>
      simp only [List.cons_append, OnlyAppoints, ih, and_assoc]
      rfl

theorem afterRole_cases (seated : store.seats? = some seats) (call : RoleCall) :
    ¬ call.Succeeds store ∧ store.afterRole call = store ∨
      call.Succeeds store ∧ ∃ after, (store.afterRole call).seats? = some after ∧
        seats.Step call.caller.sender call.request after := by
  cases answered : Contract.execute call.host call.caller store (.role call.request) with
  | error stop =>
      left
      refine ⟨?_, by rw [afterRole, answered]⟩
      rintro ⟨ended, done⟩
      rw [answered] at done
      cases done
  | ok ended =>
      right
      refine ⟨⟨ended, answered⟩, ?_⟩
      rw [afterRole, answered]
      exact Contract.changeRoles_step seated answered

/-! ## What a step can move -/

end Store

namespace Seats.Step

variable {seats after : Seats} {sender : Address} {request : RoleRequest}

theorem admin_moves (step : seats.Step sender request after)
    (moves : after.admin ≠ seats.admin) :
    request = .claimAdmin ∧ seats.pending = some sender ∧ after.admin = sender := by
  cases step with
  | claim nominated => exact ⟨rfl, nominated, rfl⟩
  | nominate | cancel | appoint => exact absurd rfl moves

theorem keeper_moves (step : seats.Step sender request after)
    (moves : after.keeper ≠ seats.keeper) :
    sender = seats.admin ∧ ∃ keeper, request = .setKeeper keeper ∧ after.keeper = some keeper := by
  cases step with
  | appoint admin => exact ⟨admin, _, rfl, rfl⟩
  | nominate | claim | cancel => exact absurd rfl moves

/-- A nominee who waits afterwards was nominated by this request, or waited before and
only a keeper was appointed; either way the admin stays. -/
theorem pending_cases (step : seats.Step sender request after) {nominee : Address}
    (waits : after.pending = some nominee) :
    request = .nominateAdmin nominee ∧ sender = seats.admin ∧ after.admin = seats.admin ∨
      (∃ keeper, request = .setKeeper keeper) ∧ seats.pending = some nominee ∧
        after.admin = seats.admin := by
  cases step with
  | nominate admin =>
      cases waits
      exact .inl ⟨rfl, admin, rfl⟩
  | appoint => exact .inr ⟨⟨_, rfl⟩, waits, rfl⟩
  | claim | cancel => cases waits

theorem stranger (step : seats.Step sender request after) {address : Address}
    (notAdmin : seats.admin ≠ address) (notNominee : seats.pending ≠ some address) :
    request = .nominateAdmin address ∧ sender = seats.admin ∨
      after.admin ≠ address ∧ after.pending ≠ some address := by
  cases step with
  | @nominate nominee admin =>
      by_cases same : nominee = address
      · exact .inl ⟨congrArg _ same, admin⟩
      · exact .inr ⟨notAdmin, by simpa using same⟩
  | claim nominated =>
      refine .inr ⟨?_, nofun⟩
      rintro rfl
      exact notNominee nominated
  | cancel => exact .inr ⟨notAdmin, nofun⟩
  | appoint => exact .inr ⟨notAdmin, notNominee⟩

end Seats.Step

/-! ## Whole runs -/

namespace Store

variable {store : Store} {seats : Seats} {call : RoleCall} {calls later : List RoleCall}

theorem afterRoles_seats (seated : store.seats? = some seats) (calls : List RoleCall) :
    ∃ after, (store.afterRoles calls).seats? = some after := by
  induction calls generalizing store seats with
  | nil => exact ⟨seats, seated⟩
  | cons call calls ih =>
      rcases afterRole_cases seated call with ⟨-, same⟩ | ⟨-, after, moved, -⟩
      · exact ih (same.symm ▸ seated)
      · exact ih moved

theorem Nominated.snoc {admin nominee : Address} (nominated : store.Nominated calls admin nominee)
    (appoints : call.Succeeds (store.afterRoles calls) →
      ∃ keeper, call.request = .setKeeper keeper) :
    store.Nominated (calls ++ [call]) admin nominee := by
  obtain ⟨earlier, nomination, later, rfl, asked, sender, current, succeeds, only⟩ := nominated
  refine ⟨earlier, nomination, later ++ [call], by simp, asked, sender, current, succeeds, ?_⟩
  refine onlyAppoints_append.mpr ⟨only, ?_, trivial⟩
  rw [← afterRoles_append, List.append_assoc, List.singleton_append]
  exact appoints

/-- By induction on the run, its last request taken off: the invariant is that whoever
waits was nominated by the admin that there is. -/
theorem nominated_of_pending (begun : store.seats? = some seats) (nobody : seats.pending = none)
    {after : Seats} (seated : (store.afterRoles calls).seats? = some after) {nominee : Address}
    (waits : after.pending = some nominee) : store.Nominated calls after.admin nominee := by
  induction calls using List.reverseRecOn generalizing after with
  | nil =>
      cases begun.symm.trans seated
      cases nobody.symm.trans waits
  | append_singleton calls call ih =>
      obtain ⟨before, held⟩ := afterRoles_seats begun calls
      rw [afterRoles_snoc] at seated
      rcases afterRole_cases held call with ⟨fails, same⟩ | ⟨succeeds, next, moved, step⟩
      · rw [same] at seated
        cases held.symm.trans seated
        exact (ih held waits).snoc fun succeeds => absurd succeeds fails
      · cases moved.symm.trans seated
        rcases step.pending_cases waits with ⟨asked, sender, stays⟩ | ⟨appoints, waited, stays⟩
        · rw [stays]
          exact ⟨calls, call, [], rfl, asked, sender, (seats?_eq_some.mp held).1, succeeds, trivial⟩
        · rw [stays]
          exact (ih held waited).snoc fun _ => appoints

theorem nominated_of_stranger (seated : store.seats? = some seats) {address : Address}
    (notAdmin : seats.admin ≠ address) (notNominee : seats.pending ≠ some address)
    (becomes : (store.afterRoles calls).currentAdmin? = some address) :
    ∃ earlier nomination later, calls = earlier ++ nomination :: later ∧
      nomination.request = .nominateAdmin address ∧
      (store.afterRoles earlier).currentAdmin? = some nomination.caller.sender ∧
      nomination.Succeeds (store.afterRoles earlier) := by
  induction calls generalizing store seats with
  | nil => exact absurd (Option.some.inj ((seats?_eq_some.mp seated).1.symm.trans becomes)) notAdmin
  | cons call calls ih =>
      -- As long as the first request does not nominate the address, it is still a stranger.
      have onward {next : Seats} (held : (store.afterRole call).seats? = some next)
          (notAdmin : next.admin ≠ address) (notNominee : next.pending ≠ some address) :
          ∃ earlier nomination later, call :: calls = earlier ++ nomination :: later ∧
            nomination.request = .nominateAdmin address ∧
            (store.afterRoles earlier).currentAdmin? = some nomination.caller.sender ∧
            nomination.Succeeds (store.afterRoles earlier) := by
        obtain ⟨earlier, nomination, later, rfl, found⟩ := ih held notAdmin notNominee becomes
        exact ⟨call :: earlier, nomination, later, rfl, found⟩
      rcases afterRole_cases seated call with ⟨-, same⟩ | ⟨succeeds, next, moved, step⟩
      · exact onward (same.symm ▸ seated) notAdmin notNominee
      · rcases step.stranger notAdmin notNominee with ⟨asked, sender⟩ | ⟨notAdmin, notNominee⟩
        · exact ⟨[], call, calls, rfl, asked,
            sender.symm ▸ (seats?_eq_some.mp seated).1, succeeds⟩
        · exact onward moved notAdmin notNominee

end Store

/-- Once the contract is set up, whatever is asked about roles by whom: the admin is
known; whoever is nominated was nominated last by that admin, and since then no
nomination was made or cancelled and the role was not claimed; the next request
changes the admin only if the nominee claims the role, and the keeper only if the
admin appoints one; and nobody who is neither the admin nor the nominee ever
becomes the admin unless the admin of some later moment nominates them. -/
theorem admin_moves_by_nomination {sender : Address} {setup : Setup} {answer : Answer}
    {store : Store} (ready : Contract.setUp host sender .empty setup = .ok (answer, store))
    (calls : List RoleCall) :
    ∃ seats, (store.afterRoles calls).seats? = some seats ∧
      (∀ nominee, seats.pending = some nominee → store.Nominated calls seats.admin nominee) ∧
      (∀ call : RoleCall, ∃ after, (store.afterRoles (calls ++ [call])).seats? = some after ∧
        (after.admin ≠ seats.admin → call.Succeeds (store.afterRoles calls) ∧
          call.request = .claimAdmin ∧ seats.pending = some call.caller.sender ∧
          after.admin = call.caller.sender) ∧
        (after.keeper ≠ seats.keeper → call.Succeeds (store.afterRoles calls) ∧
          call.caller.sender = seats.admin ∧
          ∃ keeper, call.request = .setKeeper keeper ∧ after.keeper = some keeper)) ∧
      ∀ (address : Address) (later : List RoleCall), seats.admin ≠ address →
        seats.pending ≠ some address →
        (store.afterRoles (calls ++ later)).currentAdmin? = some address →
        ∃ earlier nomination rest, later = earlier ++ nomination :: rest ∧
          nomination.request = .nominateAdmin address ∧
          (store.afterRoles (calls ++ earlier)).currentAdmin? = some nomination.caller.sender ∧
          nomination.Succeeds (store.afterRoles (calls ++ earlier)) := by
  have begun := Contract.setUp_seats ready
  obtain ⟨seats, seated⟩ := Store.afterRoles_seats begun calls
  refine ⟨seats, seated, fun nominee => Store.nominated_of_pending begun rfl seated, ?_, ?_⟩
  · intro call
    rw [Store.afterRoles_snoc]
    rcases Store.afterRole_cases seated call with ⟨-, same⟩ | ⟨succeeds, after, moved, step⟩
    · rw [same]
      exact ⟨seats, seated, fun moves => absurd rfl moves, fun moves => absurd rfl moves⟩
    · exact ⟨after, moved, fun moves => ⟨succeeds, step.admin_moves moves⟩,
        fun moves => ⟨succeeds, step.keeper_moves moves⟩⟩
  · intro address later notAdmin notNominee becomes
    simp only [Store.afterRoles_append] at becomes ⊢
    exact Store.nominated_of_stranger seated notAdmin notNominee becomes

/-- A nominee is superseded before claiming the role, in vain. -/
def RoleCall.sampleRun : List RoleCall :=
  [⟨Till.sampleHost, ⟨"creator", []⟩, .nominateAdmin "first"⟩,
    ⟨Till.sampleHost, ⟨"creator", []⟩, .nominateAdmin "second"⟩,
    ⟨Till.sampleHost, ⟨"first", []⟩, .claimAdmin⟩,
    ⟨Till.sampleHost, ⟨"creator", []⟩, .setKeeper "keeper"⟩]

theorem admin_moves_by_nomination_sample : ∃ answer store,
    Contract.setUp Till.sampleHost "creator" .empty Till.sampleSetup = .ok (answer, store) ∧
      (store.afterRoles RoleCall.sampleRun).seats? =
        some ⟨"creator", some "second", some "keeper"⟩ ∧
      store.Nominated RoleCall.sampleRun "creator" "second" := by
  have told : (Contract.setUp Till.sampleHost "creator" .empty Till.sampleSetup).toOption.map
      (fun ended => (ended.2.afterRoles RoleCall.sampleRun).seats?) =
      some (some ⟨"creator", some "second", some "keeper"⟩) := by decide +kernel
  cases ready : Contract.setUp Till.sampleHost "creator" .empty Till.sampleSetup with
  | error stop =>
      rw [ready] at told
      cases told
  | ok ended =>
      rw [ready] at told
      have known := Option.some.inj told
      obtain ⟨seats, seated, nominated, -⟩ := admin_moves_by_nomination ready RoleCall.sampleRun
      cases seated.symm.trans known
      exact ⟨ended.1, ended.2, rfl, known, nominated "second" rfl⟩

end LiquidStaking
