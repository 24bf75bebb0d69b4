import LiquidStaking.Proofs.EpochStarts
import LiquidStaking.Proofs.Figures
import LiquidStaking.Proofs.Instructions
import LiquidStaking.Proofs.Privileges

/-!
# What messages carry out

Every operation that a call starts is stashed once, under the reply id of one message,
and that message carries it out on what storage holds as the call ends: a change of
stake moves all of its batch, share by share, and no message is about nothing.
-/

namespace LiquidStaking

variable {s : Surroundings} {b : Books} {cause : Cause} {r part : Response} {op : RemoteOp}
  {chain : Chain} {kind : EpochKind} {epoch : Epoch}

/-! ## What operations are about -/

theorem Response.mem_dispatched : op ∈ r.dispatched ↔ .dispatch op ∈ r.commands := by
  simp only [dispatched, List.mem_filterMap]
  constructor
  · rintro ⟨command, member, starts⟩
    cases command <;> cases starts
    exact member
  · exact fun member => ⟨_, member, rfl⟩

theorem RemoteOp.gainful_of_stage (own : op.stage?.isSome = true) : op.Gainful := by
  cases op with
  | withdrawRewards | transferRewards => cases own
  | _ => trivial

namespace Hub

theorem collectRewards_gainful (started : .dispatch op ∈ (collectRewards chain).2.commands) :
    op.Gainful := by
  unfold collectRewards at started
  dsimp only at started
  split at started
  · cases started
  split at started
  · cases List.mem_singleton.mp started
    trivial
  split at started
  · rename_i staking
    cases List.mem_singleton.mp started
    exact mt List.map_eq_nil_iff.mp staking
  split at started
  · rename_i held
    obtain rfl : op = _ := by simpa [moveRewards] using started
    exact Nat.ne_of_gt held
  · cases started

theorem updateRate_starts (inFlight supply : Amount) :
    .dispatch op ∉ (updateRate chain inFlight supply).commands := by
  unfold updateRate
  dsimp only
  split <;> simp

theorem advance?_gainful (advanced : advance? b.view s kind chain epoch = some part)
    (started : .dispatch op ∈ part.commands) : op.Gainful := by
  cases kind with
  | delegation =>
      simp only [advance?, advanceDeposits?, Books.view, Option.bind_eq_bind, Option.bind_some,
        Option.bind_eq_some_iff, Option.pure_def, Option.some.injEq] at advanced
      obtain ⟨moved, each, rfl⟩ := advanced
      have opened : .dispatch op ∉ (if (b.deposit? chain.id epoch).isNone then
          (⟨[.deposit (.empty chain.id epoch)], []⟩ : Response) else .empty).commands := by
        split <;> simp [Response.empty]
      simp only [Response.commands_append, List.mem_append, opened, updateRate_starts, or_false,
        false_or, Response.concat, List.flatMap_map, List.mem_flatMap, Prod.exists,
        mem_mapM each] at started
      rcases started with ⟨next, own, ⟨batch, -, stepped⟩, member⟩ | member
      · split at stepped
        · cases advanceDeposit?_taken stepped with
          | spared stays => cases member
          | moved due left emptied able own =>
              exact RemoteOp.gainful_of_stage (own op (by simpa using member))
        · cases stepped
          cases member
      · exact collectRewards_gainful member
  | undelegation =>
      simp only [advance?, advanceRedemptions?, Books.view, Option.bind_eq_bind, Option.bind_some,
        Option.bind_eq_some_iff, Option.pure_def, Option.some.injEq] at advanced
      obtain ⟨moved, each, rfl⟩ := advanced
      simp only [Response.concat, List.mem_flatMap, mem_mapM each] at started
      obtain ⟨own, ⟨batch, -, stepped⟩, member⟩ := started
      obtain ⟨next, taken⟩ := advanceRedemption?_taken stepped
      cases taken with
      | spared stays => cases member
      | moved due left isOpen own =>
          obtain rfl : op = _ := by simpa using member
          exact RemoteOp.gainful_of_stage own

theorem startEpoch_gainful (granted : startEpoch b.view s kind epoch = .ok r)
    (started : op ∈ r.dispatched) : op.Gainful := by
  rw [Response.mem_dispatched] at started
  have passed (all : advanceAll b.view s kind epoch = .ok r) : op.Gainful := by
    rcases (mem_advanceAll all).mp started with same | ⟨_, -, _, part, -, advanced, member⟩
    · cases same
    · exact advance?_gainful advanced member
  cases current : b.epoch? kind with
  | none =>
      exact passed (startEpoch_later (fun was is => by cases current.symm.trans is) s ▸ granted)
  | some number =>
      rcases Nat.lt_trichotomy epoch number with earlier | rfl | later
      · rw [startEpoch_earlier current earlier] at granted
        cases granted
      · rw [startEpoch_again current] at granted
        cases granted
        cases started
      · refine passed (startEpoch_later (fun was is => ?_) s ▸ granted)
        cases current.symm.trans is
        exact later

end Hub

theorem Move.gainful (move : Move s b cause r)
    (between : ∀ kind epoch, cause ≠ .asked (.startEpoch kind epoch))
    (started : op ∈ r.dispatched) :
    op.Gainful := by
  cases move with
  | revised known edge plain =>
      rw [Response.dispatched_chain] at started
      cases edge with
      | opened account address =>
          split at started
          · obtain rfl := List.mem_singleton.mp started
            trivial
          · cases started
      | restaffed | withdrawAddressSet | closed => cases started
  | rewarded known edge told =>
      rw [Response.dispatched_chain] at started
      cases edge with
      | collected held =>
          obtain rfl := List.mem_singleton.mp started
          exact Nat.ne_of_gt held
      | forwarded bothOpen held =>
          obtain rfl := List.mem_singleton.mp started
          exact held
      | kept | bounced => cases started
  | requested => exact absurd rfl (between _ _)
  | depositMoved found edge plain =>
      rw [Response.dispatched_deposit] at started
      obtain rfl := Option.mem_toList.mp started
      cases edge <;> trivial
  | redemptionMoved found edge plain =>
      rw [Response.dispatched_redemption] at started
      obtain rfl := Option.mem_toList.mp started
      cases edge <;> trivial
  | released found awaited plain => simp at started
  | registered | repriced | epochStarted | deposited | depositOpened | delegated | reinvested
  | redeemed | unbonded | paid | quiet | stale | unanswered => cases started

theorem Course.gainful (course : Course s b cause r)
    (between : ∀ kind epoch, cause ≠ .asked (.startEpoch kind epoch))
    (started : op ∈ r.dispatched) :
    op.Gainful := by
  cases course with
  | single move => exact move.gainful between started
  | closing move closing =>
      rw [Response.dispatched_append] at started
      rcases List.mem_append.mp started with first | second
      · exact move.gainful nofun first
      · exact closing.gainful nofun second
  | passing passage => exact absurd rfl (between _ _)

namespace HubState

variable {h : HubState} {step : Step}

theorem occurrence?_gainful (kept : h.books.WellKept)
    (occurs : h.occurrence? step = some (cause, r)) (started : op ∈ r.dispatched) : op.Gainful := by
  have course := h.occurrence?_course kept occurs
  cases step with
  | perform s request =>
      obtain ⟨rfl, granted⟩ := h.occurrence?_performed occurs
      cases request with
      | startEpoch kind epoch => exact Hub.startEpoch_gainful granted started
      | _ => exact course.gainful nofun started
  | acknowledge s index outcome =>
      obtain ⟨_, -, rfl, -⟩ := h.occurrence?_acknowledged occurs
      exact course.gainful nofun started

theorem after_gainful (steps : List Step) : ∀ op ∈ (after steps).outstanding, op.Gainful := by
  induction steps using List.reverseRecOn with
  | nil => nofun
  | append_singleton steps step ih =>
      rw [after_append]
      cases occurs : (after steps).occurrence? step with
      | none => rwa [(after steps).step_of_none occurs]
      | some occurrence =>
          obtain ⟨cause, r⟩ := occurrence
          rw [(after steps).step_of_some occurs]
          exact List.forall_mem_append.mpr ⟨fun op member => ih op (left_subset member),
            fun op started => occurrence?_gainful (after_wellKept steps) occurs started⟩

end HubState

structure RemoteOp.Sound (op : RemoteOp) : Prop where
  fits : op.Fits
  laden : op.Laden
  gainful : op.Gainful

theorem HubState.Reached.outstanding_sound {h : HubState} (reached : h.Reached) :
    ∀ op ∈ h.outstanding, op.Sound := by
  intro op waits
  have fits := reached.outstanding_fits op waits
  obtain ⟨steps, -, rfl⟩ := reached
  exact ⟨fits, (after_laden steps).ops op waits, after_gainful steps op waits⟩

/-! ## What is sent -/

variable {host : Host} {store next store' : Store} {fee : RelayerFee} {h : HubState}
  {ops : List RemoteOp} {submissions : List Submission}

def Store.stashed? (store : Store) (id : Nat) : Readable (Option Stashed) :=
  store.document? (Key.stashed id).render

def Store.Counts (store : Store) : Prop :=
  ∃ found, store.number? Key.nextReplyId.render = some found

structure Store.OnlyStashed (store store' : Store) : Prop where
  stashed : ∀ id stashed, store'.stashed? id = some (some stashed) →
    store.stashed? id = some (some stashed)
  counts : store.Counts → store'.Counts

namespace Store.OnlyStashed

theorem refl (store : Store) : store.OnlyStashed store := ⟨fun _ _ found => found, id⟩

theorem of_same
    (same : ∀ key : Key, key.isRegistry = true → store'.get? key.render = store.get? key.render) :
    store.OnlyStashed store' where
  stashed id stashed found := by
    have kept : store'.stashed? id = store.stashed? id := document?_of_get? (same (.stashed id) rfl)
    exact kept.symm.trans found
  counts := by
    rw [Counts, Counts, number?_of_get? (same .nextReplyId rfl)]
    exact id

end Store.OnlyStashed

def Submission.ids (submissions : List Submission) : List Nat :=
  submissions.filterMap Submission.replyId

namespace Contract

/-- What is stashed under the reply id of the submission is sent with its message, on the port
that it is stashed with. -/
def Sent (host : Host) (store : Store) (submission : Submission) (id : Nat) : Prop :=
  ∃ port op chain moved, store.stashed? id = some (some ⟨port, op⟩) ∧
    store.chain? op.chain = some (some chain) ∧
    chain.Issues host.contract op submission.message port ∧
    chain.Sends host.contract op submission.message moved

def Stashes (store : Store) (ops : List RemoteOp) (submissions : List Submission) : Prop :=
  List.Forall₂ (fun op id => ∃ port, store.stashed? id = some (some ⟨port, op⟩)) ops
    (Submission.ids submissions)

/-- The operations are stashed from one store to the other, and each is sent with one of the
submissions. -/
structure Delivers (host : Host) (store store' : Store) (ops : List RemoteOp)
    (submissions : List Submission) : Prop where
  distinct : (Submission.ids submissions).Nodup
  stashes : Stashes store' ops submissions
  relayed : ∀ submission ∈ submissions,
    submission.message.isRelayed = submission.replyId.isSome
  sent : ∀ submission ∈ submissions, ∀ id, submission.replyId = some id →
    Sent host store' submission id
  rest : ∀ id stashed, store'.stashed? id = some (some stashed) →
    store.stashed? id = some (some stashed) ∨ id ∈ Submission.ids submissions
  counts : store.Counts → store'.Counts

namespace Delivers

theorem of_only (only : store.OnlyStashed store') : Delivers host store store' [] [] where
  distinct := List.nodup_nil
  stashes := .nil
  relayed := nofun
  sent := nofun
  rest id stashed found := .inl (only.stashed id stashed found)
  counts := only.counts

theorem among (delivers : Delivers host store store' ops submissions) {front back : List Submission}
    (before : ∀ submission ∈ front, submission.Local)
    (after : ∀ submission ∈ back, submission.Local) :
    Delivers host store store' ops (front ++ submissions ++ back) := by
  have noIds {others : List Submission} (each : ∀ submission ∈ others, submission.Local) :
      Submission.ids others = [] := by
    simpa [Submission.ids, List.filterMap_eq_nil_iff] using fun submission listed =>
      (each submission listed).none
  have ids : Submission.ids (front ++ submissions ++ back) = Submission.ids submissions := by
    have split (first second : List Submission) : Submission.ids (first ++ second) =
        Submission.ids first ++ Submission.ids second := List.filterMap_append
    rw [split, split, noIds before, noIds after, List.nil_append, List.append_nil]
  have parts {submission : Submission} (listed : submission ∈ front ++ submissions ++ back) :
      submission.Local ∨ submission ∈ submissions := by
    simp only [List.mem_append] at listed
    rcases listed with (first | own) | last
    · exact .inl (before submission first)
    · exact .inr own
    · exact .inl (after submission last)
  refine ⟨ids ▸ delivers.distinct, ?_, fun submission listed => ?_,
    fun submission listed id is => ?_, ids ▸ delivers.rest, delivers.counts⟩
  · rw [Stashes, ids]
    exact delivers.stashes
  · rcases parts listed with ⟨calm, none⟩ | own
    · rw [calm, none]
      rfl
    · exact delivers.relayed submission own
  · rcases parts listed with ⟨-, none⟩ | own
    · cases none.symm.trans is
    · exact delivers.sent submission own id is

theorem after_only (delivers : Delivers host next store' ops submissions)
    (only : store.OnlyStashed next) : Delivers host store store' ops submissions where
  distinct := delivers.distinct
  stashes := delivers.stashes
  relayed := delivers.relayed
  sent := delivers.sent
  rest id stashed found := (delivers.rest id stashed found).imp_left (only.stashed id stashed)
  counts := fun counts => delivers.counts (only.counts counts)

end Delivers

/-! ## Issuing -/

theorem stash_restashes {id : Nat} {port : String}
    (stashed : store.stash port op = some (id, store')) :
    ∃ found, store.number? Key.nextReplyId.render = some found ∧ id = found.getD 1 ∧
      id + 1 < Width.limit 64 ∧ store' = store.restash id port op := by
  simp only [Store.stash, Option.bind_eq_bind, Option.bind_eq_some_iff, Option.pure_def,
    Option.some.injEq, Prod.mk.injEq, Width.add?, Width.narrow?_eq_some] at stashed
  obtain ⟨found, read, _, ⟨rfl, room⟩, rfl, rfl⟩ := stashed
  exact ⟨found, read, rfl, room, rfl⟩

theorem chain?_restash (id : Nat) (port : String) (op : RemoteOp) (other : ChainId) :
    (store.restash id port op).chain? other = store.chain? other :=
  Store.document?_of_get? (Store.get?_restash
    (Key.render_ne_of_registry .nextReplyId rfl (rfl : (Key.chain other).isRegistry = false))
    (Key.render_ne_of_registry (.stashed id) rfl (rfl : (Key.chain other).isRegistry = false)))

/-- Operations issued one after the other: each is stashed under a reply id of its own, none
of which was given before. -/
structure Issues (host : Host) (store store' : Store) (ops : List RemoteOp)
    (submissions : List Submission) : Prop where
  chains : ∀ id, store'.chain? id = store.chain? id
  fresh : ∀ id ∈ Submission.ids submissions, ∀ found,
    store.number? Key.nextReplyId.render = some found → found.getD 1 ≤ id
  distinct : (Submission.ids submissions).Nodup
  stashes : Stashes store' ops submissions
  relayed : ∀ submission ∈ submissions,
    submission.message.isRelayed = submission.replyId.isSome
  sent : ∀ submission ∈ submissions, ∀ id, submission.replyId = some id →
    Sent host store' submission id
  kept : ∀ id, id ∉ Submission.ids submissions → store'.stashed? id = store.stashed? id
  counts : store.Counts → store'.Counts

theorem issueAll?_issues (sound : ∀ op ∈ ops, op.Sound)
    (issued : issueAll? host fee store ops = some (submissions, store')) :
    Issues host store store' ops submissions := by
  induction ops generalizing store submissions with
  | nil =>
      cases issued
      exact ⟨fun _ => rfl, nofun, List.nodup_nil, .nil, nofun, nofun, fun _ _ => rfl, id⟩
  | cons op ops ih =>
      simp only [issueAll?, issue?, Option.bind_eq_bind, Option.bind_eq_some_iff, Option.pure_def,
        Option.some.injEq, Prod.mk.injEq] at issued
      obtain ⟨⟨_, next⟩,
        ⟨_, known, chain, rfl, ⟨port, message⟩, leaves, ⟨id, _⟩, stashed, rfl, rfl⟩,
        ⟨others, last⟩, later, rfl, rfl⟩ := issued
      obtain ⟨fits, laden, gainful⟩ := sound op List.mem_cons_self
      obtain ⟨moved, sends⟩ := outbound?_sends fits laden gainful leaves
      obtain ⟨found, read, rfl, room, rfl⟩ := stash_restashes stashed
      have rest := ih (fun other listed => sound other (List.mem_cons_of_mem _ listed)) later
      -- The reply ids that follow are greater.
      have above {later : Nat} (listed : later ∈ Submission.ids others) : found.getD 1 < later :=
        rest.fresh later listed _ (Store.number?_restash room)
      have own : found.getD 1 ∉ Submission.ids others := fun listed =>
        Nat.lt_irrefl _ (above listed)
      have chains (other : ChainId) : last.chain? other = store.chain? other :=
        (rest.chains other).trans (chain?_restash _ _ _ other)
      have ids : Submission.ids (⟨message, some (found.getD 1)⟩ :: others) =
          found.getD 1 :: Submission.ids others := rfl
      have first : last.stashed? (found.getD 1) = some (some ⟨port, op⟩) :=
        (rest.kept _ own).trans (Store.stashed_restash fits)
      refine ⟨chains, ?fresh, ?distinct, .cons ⟨port, first⟩ rest.stashes, ?relayed, ?sent, ?kept,
        fun _ => rest.counts ?counts⟩
      case fresh =>
        rw [ids]
        refine List.forall_mem_cons.mpr ⟨fun was is => ?_, fun later listed was is => ?_⟩
        all_goals cases read.symm.trans is
        · exact Nat.le_refl _
        · exact Nat.le_of_lt (above listed)
      case distinct =>
        rw [ids]
        exact List.nodup_cons.mpr ⟨own, rest.distinct⟩
      case relayed =>
        exact List.forall_mem_cons.mpr ⟨(outbound?_issues leaves).leaves.1, rest.relayed⟩
      case sent =>
        refine List.forall_mem_cons.mpr ⟨?_, rest.sent⟩
        rintro _ ⟨⟩
        exact ⟨port, op, chain, moved, first, (chains _).trans known, outbound?_issues leaves,
          sends⟩
      case kept =>
        intro other unlisted
        rw [ids, List.mem_cons, not_or] at unlisted
        obtain ⟨differ, unlisted⟩ := unlisted
        exact (rest.kept other unlisted).trans (Store.stashed_restash_of_ne differ)
      case counts => exact ⟨_, Store.number?_restash room⟩

/-! ## Carrying out -/

section CarryingOut

variable {begun answer : Answer} (mirrors : store.Mirrors h)
  (written : ∀ command ∈ r.commands, command.Fits) (sound : ∀ op ∈ r.dispatched, op.Sound)
  (begins : ∀ submission ∈ begun.submissions, submission.Local)

include mirrors written sound begins

theorem carryOut_delivers (carried : carryOut host store r.commands begun = .ok (answer, store')) :
    Delivers host store store' r.dispatched answer.submissions := by
  obtain ⟨recorded, fee, submissions, -, beside, issued, submitted⟩ :=
    carryOut_recorded mirrors.holds written carried
  have only : store.OnlyStashed recorded :=
    .of_same fun key registry => beside key (Key.apart_of_registry registry).1
  have issues := issueAll?_issues sound issued
  have delivers : Delivers host store store' r.dispatched submissions := {
    distinct := issues.distinct
    stashes := issues.stashes
    relayed := issues.relayed
    sent := issues.sent
    rest := fun id stashed found => by
      by_cases listed : id ∈ Submission.ids submissions
      · exact .inr listed
      · exact .inl (only.stashed id stashed ((issues.kept id listed).symm.trans found))
    counts := fun counts => issues.counts (only.counts counts) }
  have front := Answer.local_addMessages begins fun message listed =>
    (orders_stay (r.commands.filterMap Command.effect?) message listed).1
  have whole := delivers.among front (List.forall_mem_nil _)
  rwa [List.append_nil, ← submitted] at whole

theorem carryOutPaid_delivers {caller : Caller}
    (carried : carryOutPaid host caller store r begun = .ok (answer, store')) :
    Delivers host store store' r.dispatched answer.submissions := by
  obtain ⟨cost, paid, unpaid, last, -, -, -, whole, given⟩ := carryOutPaid_iff.mp carried
  obtain ⟨rfl, rfl⟩ := Prod.mk.inj given
  have delivers := carryOut_delivers mirrors written sound begins whole
  unfold Answer.refund
  split
  · have back : ∀ submission ∈
        [Submission.mk (.send caller.sender [⟨feeDenom, paid - cost⟩]) none], submission.Local :=
      List.forall_mem_singleton.mpr ⟨rfl, rfl⟩
    exact delivers.among (List.forall_mem_nil _) back
  · exact delivers

end CarryingOut

/-! ## Calls -/

namespace Call

inductive Starts (host : Host) (store : Store) : Call → List RemoteOp → Prop
  | asked {call : Call} {request : Request} {r : Response} (asks : call.Asks host store request)
      (answered : request.answer store.view host.surroundings = .ok r) :
      Starts host store call r.dispatched
  | told {call : Call} {handing : RegistryCall} {op : RemoteOp} {next : Store} {outcome : Outcome}
      {r : Response} (hands : call.handing? = some handing)
      (called : store.call? handing = some (.found (some op), next))
      (answered : Hub.resolve next.view host.surroundings op outcome = .ok r) :
      Starts host store call r.dispatched
  | nothing {call : Call} (asksNothing : ∀ request, ¬call.Asks host store request)
      (findsNothing : ∀ handing op next, call.handing? = some handing →
        store.call? handing ≠ some (.found (some op), next)) :
      Starts host store call []

variable {call : Call}

theorem asksNothing_of_handing {handing : RegistryCall} (takes : call.handing? = some handing) :
    ∀ request, ¬call.Asks host store request := by
  rintro _ ⟨⟩ <;> cases takes

theorem starts_of_silent (silent : ∀ request, ¬call.Asks host store request)
    (takesNothing : call.handing? = none) : call.Starts host store [] := by
  refine .nothing silent fun _ _ _ takes => ?_
  cases takesNothing.symm.trans takes

end Call

theorem exit_only {exit : Exit} {id : Nat} {found : RegistryAnswer}
    (called : store.call? (exit.call id) = some (found, store')) : store.OnlyStashed store' := by
  obtain ⟨stashed, -, -, rfl⟩ := Store.exit_called exit called
  cases stashed with
  | none => exact .refl store
  | some stashed =>
      refine ⟨fun other waiting found => ?_, fun counts => ?_⟩
      · rw [Option.elim_some] at found
        by_cases same : other = id
        · rw [same, Store.stashed?, Store.stashed_leave] at found
          cases found
        · rwa [Store.stashed?, Store.stashed_leave_of_ne same] at found
      · rwa [Option.elim_some, Store.Counts, Store.number?_leave]

theorem handOut_only {handing : RegistryCall} (hands : handing.handsOut = true)
    {found : RegistryAnswer} (called : store.call? handing = some (found, next)) :
    store.OnlyStashed next := by
  cases handing with
  | stash port op | register id channel sequence => cases hands
  | unstash id =>
      have called : store.call? (Exit.withdrawn.call id) = some (found, next) := called
      exact exit_only called
  | take channel port sequence =>
      obtain ⟨registered, -, -, rfl⟩ := Store.take_called called
      cases registered with
      | none => exact .refl store
      | some op =>
          refine ⟨fun id stashed found => ?_, fun counts => ?_⟩
          · have apart := (Key.stashed_ne_registered id channel port sequence).symm
            rw [Option.elim_some] at found
            exact (Store.document?_of_get? (Store.get?_remove_of_ne apart)).symm.trans found
          · rwa [Option.elim_some, Store.Counts, Store.number?_remove_registered]

theorem SameRecords.only (same : store.SameRecords store') : store.OnlyStashed store' :=
  .of_same fun key registry => same key (Key.apart_of_registry registry).2

theorem Delivers.of_local {answer : Answer} (only : store.OnlyStashed store')
    (each : ∀ submission ∈ answer.submissions, submission.Local) :
    Delivers host store store' [] answer.submissions := by
  have quiet : Delivers host store store' [] [] := .of_only only
  have whole := quiet.among each (List.forall_mem_nil _)
  rwa [List.append_nil, List.append_nil] at whole

section Calls

variable {caller : Caller} {call : Call} {request : Request} {begun answer : Answer}
  (upTo : store.KeepsUp h)

include upTo

theorem Call.Asks.sound (asks : call.Asks host store request) (typed : call.fits = true)
    (answered : request.answer store.view host.surroundings = .ok r) :
    (∀ command ∈ r.commands, command.Fits) ∧ ∀ op ∈ r.dispatched, op.Sound := by
  obtain ⟨written, -, reached⟩ :=
    upTo.reached.asked (asks.fits typed) (requested_view upTo answered)
  exact ⟨written, fun op started => reached.outstanding_sound op (List.mem_append_right _ started)⟩

theorem delivers_tell {handing : RegistryCall} {found : Option RemoteOp} {tells : Outcome → Prop}
    (fits : ∀ outcome, tells outcome → outcome.fits = true) (takes : call.handing? = some handing)
    (called : store.call? handing = some (.found found, next))
    (resolves : Resolves host next tells (answer, store') found) :
    ∃ ops, call.Starts host store ops ∧ Delivers host store store' ops answer.submissions := by
  obtain ⟨hands, -⟩ := Call.handsOut_of_handing takes
  have only := handOut_only hands called
  rcases upTo.mirrors.handOut hands called with ⟨rfl, rfl⟩ | ⟨op, rfl, waited, mirrors⟩
  · obtain ⟨rfl, quiet⟩ := resolves
    have findsNothing : ∀ other op left, call.handing? = some other →
        store'.call? other ≠ some (.found (some op), left) := by
      intro other op left same found
      cases takes.symm.trans same
      cases called.symm.trans found
    exact ⟨[], .nothing (Call.asksNothing_of_handing takes) findsNothing, quiet ▸ .of_only only⟩
  · obtain ⟨outcome, response, attributes, told, answered, carried⟩ := resolves
    have started := Call.Starts.told takes called answered
    rw [mirrors.holds.view] at answered
    obtain ⟨written, -, reached⟩ := upTo.reached.heard waited (fits outcome told) answered
    have sound : ∀ op ∈ response.dispatched, op.Sound := fun op started =>
      reached.outstanding_sound op (List.mem_append_right _ started)
    have delivers := carryOut_delivers mirrors written sound (Answer.local_report _ _) carried
    exact ⟨_, started, delivers.after_only only⟩

theorem Call.delivers (typed : call.fits = true)
    (done : call.answer host store = .ok (answer, store')) :
    ∃ ops, call.Starts host store ops ∧ Delivers host store store' ops answer.submissions := by
  cases Call.way done with
  | sets setting same quiet =>
      have asksNothing : ∀ request, ¬call.Asks host store request := by
        rintro _ ⟨⟩ <;> cases setting
      exact ⟨[], Call.starts_of_silent asksNothing (Call.silent_of_setting setting).1,
        quiet ▸ .of_only (SameRecords.only same)⟩
  | restores known one =>
      refine ⟨[], Call.starts_of_silent (by rintro _ ⟨⟩) rfl, .of_local (.refl store) ?_⟩
      rw [one]
      exact List.forall_mem_singleton.mpr ⟨rfl, rfl⟩
  | asks asks answered begins carried =>
      obtain ⟨written, sound⟩ := (asks typed).sound upTo typed answered
      exact ⟨_, .asked (asks typed) answered,
        carryOut_delivers upTo.mirrors written sound begins.calm carried⟩
  | pays asks answered begins carried =>
      obtain ⟨written, sound⟩ := (asks typed).sound upTo typed answered
      exact ⟨_, .asked (asks typed) answered,
        carryOutPaid_delivers upTo.mirrors written sound begins.calm carried⟩
  | ignored silent takesNothing quiet =>
      refine ⟨[], Call.starts_of_silent ?_ takesNothing, quiet ▸ .of_only (.refl _)⟩
      rintro _ ⟨⟩
      cases silent
  | registers called quiet =>
      have called : store.call? ((Exit.registered _ _).call _) = some (.found _, store') := called
      exact ⟨[], Call.starts_of_silent (by rintro _ ⟨⟩) rfl, quiet ▸ .of_only (exit_only called)⟩
  | tells takes fits called resolves =>
      exact delivers_tell upTo fits takes called resolves

end Calls

end Contract

/-! ## What batches are owed -/

/-- This much is all there is to move for what the operation is for. -/
def Store.Whole (store : Store) (moved : Amount) : RemoteOp → Prop
  | .transferDeposit id epoch _ => ∃ batch, store.deposit? id epoch = some (some batch) ∧
      moved = batch.net
  | .delegate id epoch _ => ∃ batch, store.deposit? id epoch = some (some batch) ∧
      moved = batch.amount
  | .undelegate id epoch _ => ∃ batch, store.redemption? id epoch = some (some batch) ∧
      moved = batch.redeemable
  | .withdrawUnbonded id epoch _ => ∃ batch, store.redemption? id epoch = some (some batch) ∧
      moved = batch.redeemable
  | .transferRewards _ amount => moved = amount
  | .withdrawRewards .. => True
  | .setWithdrawAddress _ => True

theorem Chain.Sends.whole {hub : Address} {message : Message} {moved : Amount}
    (holds : store.Holds b)
    (own : op.Matches b) (sends : chain.Sends hub op message moved) : store.Whole moved op := by
  obtain ⟨-, own⟩ := own
  have deposit (id : ChainId) (epoch : Epoch) :
      store.deposit? id epoch = some (b.deposit? id epoch) := (holds.deposits id).found epoch
  have redemption (id : ChainId) (epoch : Epoch) :
      store.redemption? id epoch = some (b.redemption? id epoch) :=
    (holds.redemptions id).found epoch
  cases sends with
  | @transferred id epoch amount =>
      obtain ⟨batch, found, rfl, -⟩ := own
      exact ⟨batch, by rw [deposit, found], rfl⟩
  | executed instructs told something moving =>
      cases instructs with
      | delegate isOpen stakes =>
          obtain ⟨batch, found, sums, -⟩ := own
          refine ⟨batch, by rw [deposit, found], ?_⟩
          rw [stakes.total fun _ _ => rfl, (Allocation.total?_eq_some.mp sums).1]
      | undelegate isOpen stakes =>
          obtain ⟨batch, found, sums, -⟩ := own
          refine ⟨batch, by rw [redemption, found], ?_⟩
          rw [stakes.total fun _ _ => rfl, (Allocation.total?_eq_some.mp sums).1]
      | withdrawUnbonded isOpen =>
          obtain ⟨batch, found, rfl⟩ := own
          exact ⟨batch, by rw [redemption, found], rfl⟩
      | transferRewards unbonds delegates => rfl
      | withdrawRewards isOpen | setWithdrawAddress delegates unbonds => trivial

theorem HubState.Reached.outstanding_matches (reached : h.Reached) :
    ∀ op ∈ h.outstanding, op.Matches h.books := by
  obtain ⟨steps, -, rfl⟩ := reached
  obtain ⟨⟨-, orderly, founded⟩, -, laden⟩ := after_laden steps
  exact fun op waits => (founded op waits).matches orderly (laden op waits)

namespace Contract

/-- Whatever is called in a run of the contract, each operation that it has the hub start is
stashed under the reply id of one message, and no id is given twice.  The messages with a
reply id are those that relayers carry.  What is stashed under it as the call ends is an
operation, and the message carries that out with the accounts, the roster and the batch that
storage then holds: a change of stake instructs the delegate account share by share, with
rewards withdrawn first where there are any, and moves all of the batch.  What an account is
sent has the type and the fields of its instructions, and tells them.  No message is empty or
about nothing, and nothing else is stashed. -/
theorem messages_carry_out {calls : List Call} {call : Call} {answer : Answer}
    (instantiated : Instantiated calls store) (typed : call.fits = true)
    (done : call.answer host store = .ok (answer, store')) :
    (∃ ops, call.Starts host store ops ∧ Stashes store' ops answer.submissions) ∧
    (Submission.ids answer.submissions).Nodup ∧
    (∀ submission ∈ answer.submissions,
      submission.message.isRelayed = submission.replyId.isSome ∧
      ∀ id, submission.replyId = some id → ∃ port op chain moved,
        store'.stashed? id = some (some ⟨port, op⟩) ∧
        store'.chain? op.chain = some (some chain) ∧
        chain.Sends host.contract op submission.message moved ∧ store'.Whole moved op) ∧
    ∀ id stashed, store'.stashed? id = some (some stashed) →
      store.stashed? id = some (some stashed) ∨ id ∈ Submission.ids answer.submissions := by
  obtain ⟨h, upTo, -⟩ := instantiated.keepsUp
  obtain ⟨h', -, upTo'⟩ := Call.does upTo typed done
  obtain ⟨ops, started, delivers⟩ := Call.delivers upTo typed done
  refine ⟨⟨ops, started, delivers.stashes⟩, delivers.distinct, fun submission listed =>
    ⟨delivers.relayed submission listed, fun id is => ?_⟩, delivers.rest⟩
  obtain ⟨port, op, chain, moved, stashed, known, -, sends⟩ :=
    delivers.sent submission listed id is
  have waits := (upTo'.mirrors.carries.leave stashed).1
  exact ⟨port, op, chain, moved, stashed, known, sends,
    sends.whole upTo'.mirrors.holds (upTo'.reached.outstanding_matches op waits)⟩

/-! ## A run to look at -/

open Till (sampleHost samplePort sampleReply sampleVersion)

/-- A run of calls, and where storage and the hub stand after it. -/
structure Standing (calls : List Call) (h : HubState) (next : Nat) (store : Store) : Prop where
  instantiated : Instantiated calls store
  upTo : store.KeepsUp h
  able : store.Able sampleHost "creator" next

theorem Standing.called {calls : List Call} {call : Call} {h' : HubState}
    {next next' relayed : Nat} {accounts : List String} (standing : Standing calls h next store)
    (typed : call.fits = true)
    (succeeds : call.Succeeds sampleHost store relayed accounts h' "creator" next') :
    ∃ answer store', call.answer sampleHost store = .ok (answer, store') ∧
      answer.relayed = relayed ∧ Standing (calls ++ [call]) h' next' store' := by
  obtain ⟨answer, store', done, relayed, -, upTo, able⟩ := succeeds
  exact ⟨answer, store', done, relayed, standing.instantiated.call typed done, upTo, able⟩

def depositedSteps : List Step :=
  sampleRequests ++
    [.perform sampleHost.surroundings (.accountOpened "cosmoshub" .delegate "delegator"),
      .perform sampleHost.surroundings (.deposit "cosmoshub" 1000 "carol")]

theorem deposited_standing : ∃ calls store,
    Standing calls (HubState.after depositedSteps) 1 store ∧
      store.epochKind? "day" = some (some .delegation) := by
  obtain ⟨store, instantiated, upTo, able, named⟩ := sample_begins
  have begun : Standing sampleCalls (HubState.after sampleRequests) 1 store :=
    ⟨instantiated, upTo, able⟩
  obtain ⟨r, granted, nothing⟩ := Till.granted_of_dispatched
    (by decide +kernel : ((Request.accountOpened "cosmoshub" .delegate "delegator").answer
      (HubState.after sampleRequests).books.view sampleHost.surroundings).toOption.map
        Response.dispatched = some [])
  have parsed : ControlPort.parse? (samplePort .delegate) = some ("cosmoshub", .delegate) := by
    decide +kernel
  have opens := channelOpened_succeeds upTo able parsed Till.sample_delegate_opens granted
    (by rw [nothing]; decide) (by rw [nothing]; exact Till.sample_prices.1)
  rw [nothing, HubState.commit_asked granted] at opens
  obtain ⟨_, opened, first, -, standing⟩ := begun.called rfl opens
  have served := carol_served standing.upTo standing.able (by decide) (by decide +kernel)
    (by decide +kernel)
  obtain ⟨_, deposited, second, -, standing⟩ := standing.called (by decide) served
  refine ⟨_, deposited, standing, ?_⟩
  rw [(Call.settings rfl second).names.epochKind?, (Call.settings rfl first).names.epochKind?,
    named]

theorem Delivers.sent_of_relayed {answer : Answer}
    (delivers : Delivers host store store' ops answer.submissions) (some : 0 < answer.relayed) :
    ∃ submission ∈ answer.submissions, ∃ id, submission.replyId = Option.some id ∧
      Sent host store' submission id := by
  obtain ⟨submission, listed, relayed⟩ := List.countP_pos_iff.mp some
  rw [delivers.relayed submission listed] at relayed
  obtain ⟨id, is⟩ := Option.isSome_iff_exists.mp relayed
  exact ⟨submission, listed, id, is, delivers.sent submission listed id is⟩

theorem transfer_due : ∃ r,
    (Request.startEpoch .delegation 2).answer (HubState.after depositedSteps).books.view
      sampleHost.surroundings = .ok r ∧
    r.dispatched = [.transferDeposit "cosmoshub" 1 1000] ∧ r.transactions = 2 ∧
    relayerCost sampleHost r.transactions = .ok 4000 := by
  obtain ⟨r, granted, one⟩ := Till.granted_of_dispatched
    (by decide +kernel : ((Request.startEpoch .delegation 2).answer
      (HubState.after depositedSteps).books.view sampleHost.surroundings).toOption.map
        Response.dispatched = some [.transferDeposit "cosmoshub" 1 1000])
  have transactions : r.transactions = 2 := by
    rw [Response.transactions, one]
    rfl
  refine ⟨r, granted, one, transactions, ?_⟩
  rw [transactions]
  decide +kernel

def startedSteps : List Step :=
  depositedSteps ++ [.perform sampleHost.surroundings (.startEpoch .delegation 2)]

theorem transfer_waits : (HubState.after startedSteps).outstanding =
    [.transferDeposit "cosmoshub" 1 1000] := by decide +kernel

theorem transferred_standing : ∃ calls store,
    Standing calls (HubState.after startedSteps) 2 store ∧
    store.registered? "channel-7" transferPort 1 =
      some (some (.transferDeposit "cosmoshub" 1 1000)) := by
  obtain ⟨calls, store, standing, named⟩ := deposited_standing
  obtain ⟨seats, seated⟩ := standing.instantiated.settled.seats
  obtain ⟨r, granted, one, -, priced⟩ := transfer_due
  have starts := startEpoch_succeeds standing.upTo standing.able named
    (Store.seats?_eq_some.mp seated).2.2 (by decide) granted priced
    (rfl : allowedPayment [⟨feeDenom, 4000⟩] feeDenom = .ok 4000)
    (by rw [one]; decide) (by rw [one]; exact Till.sample_prices.2)
  have step : (HubState.after depositedSteps).step
      (.perform sampleHost.surroundings (.startEpoch .delegation 2)) =
        HubState.after startedSteps := rfl
  rw [one, HubState.commit_asked granted, step] at starts
  obtain ⟨answer, started, done, relayed, standing'⟩ := standing.called (by decide) starts
  obtain ⟨_, -, delivers⟩ := Call.delivers standing.upTo (by decide) done
  obtain ⟨submission, -, id, -, port, op, chain, -, stashed, -, issues, -⟩ :=
    delivers.sent_of_relayed (by rw [relayed]; decide)
  have waits := (standing'.upTo.mirrors.carries.leave stashed).1
  obtain rfl : op = .transferDeposit "cosmoshub" 1 1000 := by simpa [transfer_waits] using waits
  obtain rfl : port = transferPort := by
    generalize submission.message = message at issues
    cases issues with
    | transfer own => rfl
    | submit carried => cases carried
  have told : sampleReply.bind issued? = some (1, "channel-7") := by decide +kernel
  obtain ⟨answer, registered, replied, calm, none, upTo, able, stored⟩ :=
    replyIssued_succeeds standing'.upTo standing'.able stashed told
  exact ⟨_, registered, ⟨standing'.instantiated.call rfl replied, upTo, able⟩, stored⟩

def arrival : Call := .notify (.acknowledged ⟨some 1, some transferPort, some "channel-7"⟩ [])

theorem delegates_one {hub delegator validator : Address} {id : ChainId} {epoch : Epoch}
    {amount moved : Amount} {message : Message} (isOpen : chain.delegateAddress = some delegator)
    (unset : chain.withdrawAddressSet = false) (something : amount ≠ 0)
    (sends : chain.Sends hub (.delegate id epoch [⟨validator, amount⟩]) message moved) :
    ∃ envelope timeout fee, message = .submit chain.connection
        (ControlPort.accountId chain.id .delegate) [envelope] timeout fee ∧
      (Instruction.delegate delegator validator amount chain.nativeDenom).Tells envelope := by
  cases sends with
  | executed instructs told _ _ =>
      cases instructs with
      | delegate isOpen' stakes =>
          cases isOpen.symm.trans isOpen'
          cases stakes with
          | skipped nothing rest => exact absurd nothing something
          | rewarded _ pays rest => cases unset.symm.trans pays.1
          | changed _ _ rest =>
              cases rest
              obtain ⟨envelope, none, tells, rest, rfl⟩ := List.forall₂_cons_left_iff.mp told
              cases rest
              exact ⟨envelope, _, _, rfl, tells⟩

/-- The deposit that has arrived is delegated: the delegate account is told to, in a message of
the type and with the fields that the chain knows. -/
theorem messages_carry_out_sample : ∃ calls store answer store',
    Instantiated calls store ∧ arrival.fits = true ∧
    arrival.answer sampleHost store = .ok (answer, store') ∧
    ∃ submission ∈ answer.submissions, ∃ (id : Nat) (port : String) (chain : Chain)
        (moved : Amount), submission.replyId = some id ∧
      store'.stashed? id =
        some (some ⟨port, .delegate "cosmoshub" 1 [⟨"alice", 1000⟩]⟩) ∧
      chain.Sends "hub" (.delegate "cosmoshub" 1 [⟨"alice", 1000⟩]) submission.message moved ∧
      store'.Whole moved (.delegate "cosmoshub" 1 [⟨"alice", 1000⟩]) ∧
      ∃ value timeout fee, submission.message = .submit "connection-0" "cosmoshub.delegate"
          [⟨"/cosmos.staking.v1beta1.MsgDelegate", value⟩] timeout fee ∧
        Wire.Encodes Wire.maxDepth Wire.Contents.Stated
          (Instruction.delegate "delegator" "alice" 1000 "uatom").contents value := by
  obtain ⟨calls, store, standing, registered⟩ := transferred_standing
  obtain ⟨r, granted, one⟩ := Till.granted_of_dispatched
    (by decide +kernel : (Hub.resolve (HubState.after startedSteps).books.view
        sampleHost.surroundings (.transferDeposit "cosmoshub" 1 1000)
          (.success [])).toOption.map Response.dispatched =
      some [.delegate "cosmoshub" 1 [⟨"alice", 1000⟩]])
  have arrives : arrival.Succeeds _ _ _ _ _ _ _ :=
    arrived_succeeds standing.upTo standing.able registered granted (by rw [one]; decide)
      (by rw [one]; exact Till.sample_prices.2)
  rw [one] at arrives
  obtain ⟨answer, store', done, relayed, standing'⟩ := standing.called rfl arrives
  obtain ⟨-, -, sends, -⟩ :=
    messages_carry_out standing.instantiated (rfl : arrival.fits = true) done
  obtain ⟨submission, listed, relayed⟩ :=
    List.countP_pos_iff.mp (relayed ▸ Nat.one_pos : 0 < answer.relayed)
  obtain ⟨same, each⟩ := sends submission listed
  obtain ⟨id, is⟩ := Option.isSome_iff_exists.mp (same.symm.trans relayed)
  obtain ⟨port, op, chain, moved, stashed, known, sends, whole⟩ := each id is
  have waits := (standing'.upTo.mirrors.carries.leave stashed).1
  obtain rfl : op = .delegate "cosmoshub" 1 [⟨"alice", 1000⟩] := by
    simpa [HubState.commit, transfer_waits, one] using waits
  have books : ((HubState.after startedSteps).step
        (.acknowledge sampleHost.surroundings 0 (.success []))).books.chain? "cosmoshub" =
          some chain := by
    have heard := HubState.commit_heard (by rw [transfer_waits]; exact List.mem_cons_self) granted
    rw [transfer_waits, List.idxOf_cons_self] at heard
    rw [← heard]
    exact Option.some.inj ((standing'.upTo.mirrors.holds.chain? "cosmoshub").symm.trans known)
  have told : (some chain).map (fun chain => (chain.delegateAddress, chain.withdrawAddressSet,
      chain.connection, chain.id, chain.nativeDenom)) =
      some (some "delegator", false, "connection-0", "cosmoshub", "uatom") := by
    rw [← books]
    decide +kernel
  simp only [Option.map_some, Option.some.injEq, Prod.mk.injEq] at told
  obtain ⟨isOpen, unset, connection, named, denom⟩ := told
  obtain ⟨⟨typeUrl, value⟩, timeout, fee, message, tells⟩ :=
    delegates_one isOpen unset (by decide) sends
  rw [connection, named] at message
  rw [denom] at tells
  obtain rfl : typeUrl = "/cosmos.staking.v1beta1.MsgDelegate" := tells.typeUrl
  exact ⟨calls, store, answer, store', standing.instantiated, rfl, done, submission, listed, id,
    port, chain, moved, is, stashed, sends, whole, value, timeout, fee, message,
    tells.value (by decide)⟩

end Contract

end LiquidStaking
