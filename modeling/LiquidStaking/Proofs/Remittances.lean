import LiquidStaking.Proofs.Awaited
import LiquidStaking.Proofs.Rewards

/-!
# Every delegation is funded

The delegate account receives deposits that were transferred and rewards that
were moved, and a delegation spends what it holds.  The books know what is left:
all of a batch whose deposits have arrived and that is not delegated yet, and of
an earlier batch the rewards that joined it.  So what the account holds covers a
delegation on its way together with every other batch that has arrived.
-/

namespace LiquidStaking

variable {s : Surroundings} {b : Books} {cause : Cause} {r : Response} {id : ChainId}
  {h : HubState}

/-! ## Word that came -/

structure Word where
  op : RemoteOp
  outcome : Outcome
  deriving DecidableEq, Repr

def Cause.words : Cause → List Word
  | .heard op outcome => [⟨op, outcome⟩]
  | _ => []

def HubState.words (h : HubState) (step : Step) : List Word :=
  (h.occurrence? step).elim [] fun (cause, _) => cause.words

namespace Word

def after (steps : List Step) : List Word :=
  (steps.foldl (fun (state : HubState × List Word) step =>
    (state.1.step step, state.2 ++ state.1.words step)) (.initial, [])).2

theorem after_append (steps : List Step) (step : Step) :
    after (steps ++ [step]) = after steps ++ (HubState.after steps).words step := by
  simp only [after, List.foldl_append, List.foldl_cons, List.foldl_nil,
    HubState.foldl_beside fun words h step => words ++ h.words step]
  rfl

def rewards (id : ChainId) : Word → Amount
  | ⟨.transferRewards chain amount, .success _⟩ => if chain = id then amount else 0
  | _ => 0

def deposits (id : ChainId) : Word → Amount
  | ⟨.transferDeposit chain _ amount, .success _⟩ => if chain = id then amount else 0
  | _ => 0

def delegated (id : ChainId) : Word → Nat
  | ⟨.delegate chain _ shares, .success _⟩ => if chain = id then Allocation.sum shares else 0
  | _ => 0

def total (figure : Word → Nat) (words : List Word) : Nat := Width.total (words.map figure)

@[simp] theorem total_nil (figure : Word → Nat) : total figure [] = 0 := rfl

@[simp] theorem total_singleton (figure : Word → Nat) (word : Word) :
    total figure [word] = figure word := Nat.add_zero _

@[simp] theorem total_append (figure : Word → Nat) (first second : List Word) :
    total figure (first ++ second) = total figure first + total figure second := by
  simp [total]

/-- What the delegate account of the chain holds for delegation, going by the word of it. -/
def funds (id : ChainId) (words : List Word) : Int :=
  total (deposits id) words + total (rewards id) words - total (delegated id) words

end Word

/-! ## What the books say is held -/

def DepositStatus.arrived (status : DepositStatus) : Bool :=
  status == .delegating || status == .failed

def DepositStatus.departing (status : DepositStatus) : Bool :=
  status == .pending || status == .transferring || status == .transferFailed

/-- The part of the batch that the delegate account holds. -/
def DepositBatch.held (batch : DepositBatch) : Amount :=
  if batch.status.arrived then batch.amount
  else if batch.status.departing then batch.reinvested
  else 0

namespace DepositBatch

variable (batch : DepositBatch)

theorem held_arrived (arrived : batch.status.arrived = true) : batch.held = batch.amount :=
  if_pos arrived

theorem held_departing (departing : batch.status.departing = true) :
    batch.held = batch.reinvested := by
  cases is : batch.status <;>
    simp_all [held, DepositStatus.arrived, DepositStatus.departing]

end DepositBatch

theorem DepositStatus.departing_of_due {status : DepositStatus}
    (due : status.awaitsEpoch = true) : status.departing = true := by
  revert due
  cases status <;> decide

namespace Books

def held (b : Books) (id : ChainId) : Nat :=
  b.depositTotal id (fun _ => true) DepositBatch.held

def arrived (b : Books) (id : ChainId) : Nat :=
  b.depositTotal id (fun batch => batch.status.arrived) DepositBatch.amount

def arrivedBeside (b : Books) (id : ChainId) (epoch : Epoch) : Nat :=
  b.depositTotal id (fun batch => batch.status.arrived && batch.epoch != epoch)
    DepositBatch.amount

/-- Rewards that joined batches whose deposits have not arrived. -/
def ahead (b : Books) (id : ChainId) : Nat :=
  b.depositTotal id (fun batch => batch.status.departing) DepositBatch.reinvested

theorem held_eq (b : Books) (id : ChainId) : b.held id = b.arrived id + b.ahead id := by
  simp only [held, arrived, ahead, depositTotal]
  induction b.deposits id with
  | nil => rfl
  | cons batch batches ih =>
      rw [totalWhere_cons, totalWhere_cons, totalWhere_cons, ih, part_counted rfl]
      have own : batch.held = part (fun batch => batch.status.arrived) DepositBatch.amount batch +
          part (fun batch => batch.status.departing) DepositBatch.reinvested batch := by
        cases is : batch.status <;>
          simp [DepositBatch.held, part, is, DepositStatus.arrived, DepositStatus.departing]
      lia

theorem amount_add_arrivedBeside (kept : b.WellKept) {batch : DepositBatch}
    (found : b.deposit? id batch.epoch = some batch) (arrived : batch.status.arrived = true) :
    batch.amount + b.arrivedBeside id batch.epoch = b.arrived id := by
  have member := (mem_deposits found).1
  have others : ∀ other ∈ b.deposits id, other ≠ batch →
      (if other.epoch = batch.epoch then 0 else other.amount) = other.amount := by
    intro other listed differ
    refine if_neg fun same => differ ?_
    have stored := kept.deposit?_mem listed
    rw [same, found] at stored
    exact (Option.some.inj stored).symm
  have change := @totalWhere_change _ (fun batch => batch.status.arrived) DepositBatch.amount _ _ _
    (kept.depositsInOrder id).nodup member others
  have counted (figure : DepositBatch → Nat) :
      part (fun batch => batch.status.arrived) figure batch = figure batch := if_pos arrived
  rw [counted, counted, if_pos rfl] at change
  have beside : b.arrivedBeside id batch.epoch = totalWhere (fun batch => batch.status.arrived)
      (fun other : DepositBatch => if other.epoch = batch.epoch then 0 else other.amount)
      (b.deposits id) := by
    refine totalWhere_congr fun other _ => ?_
    by_cases same : other.epoch = batch.epoch <;> simp [part, same]
  rw [beside, Nat.add_comm]
  exact change

theorem held_put (kept : b.WellKept) (record : DepositBatch) {batch : DepositBatch}
    (stored : b.deposit? record.chain record.epoch = some batch ∨
      (b.deposit? record.chain record.epoch = none ∧ batch = .empty record.chain record.epoch))
    (id : ChainId) :
    (b.putDeposit record).held id + (if record.chain = id then batch.held else 0) =
      b.held id + if record.chain = id then record.held else 0 := by
  by_cases own : record.chain = id
  · subst own
    have change := kept.depositTotal_collect (fun _ => true) DepositBatch.held record stored rfl
    simpa [part, held] using change
  · rw [if_neg own, if_neg own, held, depositTotal_put_other _ _ record (Ne.symm own)]
    rfl

end Books

/-! ## One move -/

def Cause.arrives (id : ChainId) (cause : Cause) : Nat :=
  Word.total (Word.deposits id) cause.words + Word.total (Word.rewards id) cause.words

def Cause.delegates (id : ChainId) (cause : Cause) : Nat :=
  Word.total (Word.delegated id) cause.words

/-- What the hub hears of was to be expected: the books bear the operation out, its
batch waits for it, there is an answer, and rewards of the chain find a batch with
room for them. -/
structure RemoteOp.Expected (s : Surroundings) (b : Books) (id : ChainId) (op : RemoteOp)
    (outcome : Outcome) : Prop where
  founded : op.Founded b
  awaited : ∀ stage, op.serves stage = true → stage.leg.ofDeposit = true → b.awaits stage = true
  answered : ∃ r, Hub.resolve b.view s op outcome = .ok r
  begun : ∀ owner amount, op = .transferRewards owner amount → b.epoch? .delegation ≠ none
  room : ∀ amount, op = .transferRewards id amount → outcome.isSuccess = true →
    b.reinvested id + amount < Width.limit 128

section Edges

variable {owner : ChainId}

theorem ChainEdge.silent {chain chain' : Chain} {ops : List RemoteOp}
    (edge : ChainEdge b owner chain cause chain' ops) (id : ChainId) :
    cause.arrives id = 0 ∧ cause.delegates id = 0 := by
  cases edge <;> exact ⟨rfl, rfl⟩

theorem RedemptionEdge.silent {batch : RedemptionBatch} {next : RedemptionStatus}
    {op : Option RemoteOp} (edge : RedemptionEdge s b owner batch cause next op) (id : ChainId) :
    cause.arrives id = 0 ∧ cause.delegates id = 0 := by
  cases edge <;> exact ⟨rfl, rfl⟩

theorem RewardEdge.silent {chain chain' : Chain} {ops : List RemoteOp} {reported : Amount}
    (edge : RewardEdge b owner chain cause chain' ops reported)
    (begun : ∀ id amount outcome, cause = .heard (.transferRewards id amount) outcome →
      b.epoch? .delegation ≠ none) (id : ChainId) :
    cause.arrives id = 0 ∧ cause.delegates id = 0 := by
  cases edge with
  | collected | forwarded | kept => exact ⟨rfl, rfl⟩
  | bounced unable =>
      rename_i amount outcome
      cases outcome with
      | success receipts => exact absurd (unable rfl) (begun _ _ _ rfl)
      | failure | timeout => exact ⟨rfl, rfl⟩

theorem DepositEdge.flow {batch : DepositBatch} {next : DepositStatus} {op : Option RemoteOp}
    (edge : DepositEdge b owner batch cause next op) (fits : batch.reinvested ≤ batch.amount)
    (founded : ∀ {op outcome}, cause = .heard op outcome → op.Founded b)
    (found : b.deposit? owner batch.epoch = some batch) (id : ChainId) :
    (if owner = id then ({ batch with status := next } : DepositBatch).held else 0) +
        cause.delegates id =
      (if owner = id then batch.held else 0) + cause.arrives id := by
  have net : batch.reinvested + batch.net = batch.amount := Nat.add_sub_of_le fits
  have due (awaits : batch.status.awaitsEpoch = true) : batch.held = batch.reinvested :=
    batch.held_departing (DepositStatus.departing_of_due awaits)
  -- What arrives is the net amount, and the account holds the reinvested rest already.
  have landed {amount : Amount} {receipts : List Receipt}
      (heard : cause = .heard (.transferDeposit owner batch.epoch amount) (.success receipts))
      (awaited : batch.status = .transferring) :
      (if owner = id then batch.amount else 0) + cause.delegates id =
        (if owner = id then batch.held else 0) + cause.arrives id := by
    obtain rfl := (founded heard).transfer found
    have arrives : cause.arrives id = if owner = id then batch.net else 0 := by
      rw [heard]
      rfl
    rw [arrives, batch.held_departing (by rw [awaited]; rfl), heard, ← net]
    by_cases own : owner = id <;> simp [own, Cause.delegates, Cause.words, Word.delegated]
  cases edge with
  | emptied current earlier awaits nothing =>
      have none : batch.reinvested = 0 := Nat.le_zero.mp (nothing ▸ fits)
      rw [due awaits, none]
      rfl
  | sent current earlier awaits known isOpen held =>
      rw [due awaits]
      rfl
  | divided current earlier awaits known isOpen something gone shared =>
      rw [due awaits, show batch.reinvested = batch.amount by lia]
      rfl
  | redriven failed known isOpen shared =>
      rw [batch.held_arrived (by rw [failed]; rfl)]
      rfl
  | transferReset awaited =>
      rw [batch.held_departing (by rw [awaited]; rfl)]
      rfl
  | delegationReset awaited =>
      rw [batch.held_arrived (by rw [awaited]; rfl)]
      rfl
  | @returned amount outcome awaited failed =>
      rw [batch.held_departing (by rw [awaited]; rfl)]
      cases outcome with
      | success receipts => cases failed
      | failure | timeout => rfl
  | stranded awaited known isClosed => exact landed rfl awaited
  | arrived awaited known isOpen shared => exact landed rfl awaited
  | @refused shares outcome awaited failed =>
      rw [batch.held_arrived (by rw [awaited]; rfl)]
      cases outcome with
      | success receipts => cases failed
      | failure | timeout => rfl

end Edges

theorem RemoteOp.Expected.not_stale {op : RemoteOp} {outcome : Outcome}
    (expected : RemoteOp.Expected s b id op outcome) (stale : op.Stale b) :
    (Cause.heard op outcome).arrives id = 0 ∧ (Cause.heard op outcome).delegates id = 0 := by
  have unawaited {stage : Stage} (serves : op.serves stage = true)
      (ofDeposit : stage.leg.ofDeposit = true) : False := by
    have idle := stale.idle serves
    rw [expected.awaited stage serves ofDeposit] at idle
    cases idle
  cases op with
  | transferDeposit | delegate => exact (unawaited (RemoteOp.serves_iff.mpr rfl) rfl).elim
  | transferRewards => exact stale.elim
  | undelegate | withdrawUnbonded | withdrawRewards | setWithdrawAddress => exact ⟨rfl, rfl⟩

namespace Books

theorem batch_le_reinvested (b : Books) {batch : DepositBatch}
    (stored : b.deposit? batch.chain batch.epoch = some batch ∨
      (b.deposit? batch.chain batch.epoch = none ∧ batch = .empty batch.chain batch.epoch)) :
    batch.reinvested ≤ b.reinvested batch.chain := by
  rcases stored with found | ⟨-, opened⟩
  · have own := part_le_totalWhere (fun _ => true) DepositBatch.reinvested (mem_deposits found).1
    rwa [part_counted rfl] at own
  · rw [opened]
    exact Nat.zero_le _

theorem held_reinvesting (kept : b.WellKept) {batch : DepositBatch} {amount : Amount}
    (stored : b.deposit? batch.chain batch.epoch = some batch ∨
      (b.deposit? batch.chain batch.epoch = none ∧ batch = .empty batch.chain batch.epoch))
    (pending : batch.status = .pending)
    (room : batch.chain = id → b.reinvested id + amount < Width.limit 128) :
    (b.putDeposit (batch.reinvesting amount)).held id =
      b.held id + if batch.chain = id then amount else 0 := by
  have departing : batch.status.departing = true := by
    rw [pending]
    rfl
  refine kept.depositTotal_grown (fun _ => true) DepositBatch.held (batch.reinvesting amount)
    stored rfl amount id fun own => ?_
  have small := b.batch_le_reinvested stored
  rw [show batch.chain = id from own] at small
  have fits : batch.reinvested + amount < Width.limit 128 :=
    Nat.lt_of_le_of_lt (Nat.add_le_add_right small amount) (room own)
  rw [part_counted rfl, part_counted rfl, batch.held_departing departing,
    (batch.reinvesting amount).held_departing departing]
  exact Width.addSat_of_lt fits

theorem held_delegated (kept : b.WellKept) {batch : DepositBatch}
    (found : b.deposit? batch.chain batch.epoch = some batch)
    (awaited : batch.status = .delegating) (id : ChainId) :
    (b.putDeposit { batch with status := .done }).held id +
      (if batch.chain = id then batch.amount else 0) = b.held id := by
  have put := b.held_put kept { batch with status := .done } (.inl found) id
  have left : ({ batch with status := .done } : DepositBatch).held = 0 := rfl
  rw [left, batch.held_arrived (by rw [awaited]; rfl), ite_self] at put
  exact put

end Books

/-- What arrives by a move is held by the books, and what is delegated no longer is. -/
theorem Move.held (kept : b.WellKept) (orderly : b.Orderly) (move : Move s b cause r)
    (expected : ∀ {op outcome}, cause = .heard op outcome → RemoteOp.Expected s b id op outcome) :
    (b.applyAll r.commands).held id + cause.delegates id = b.held id + cause.arrives id := by
  have founded {op : RemoteOp} {outcome : Outcome} (heard : cause = .heard op outcome) :
      op.Founded b := (expected heard).founded
  -- Most moves write no batch, and no word of deposits or rewards goes with them.
  have unmoved (same : (b.applyAll r.commands).deposits = b.deposits)
      (silent : cause.arrives id = 0 ∧ cause.delegates id = 0) :
      (b.applyAll r.commands).held id + cause.delegates id = b.held id + cause.arrives id := by
    rw [Books.held, Books.depositTotal, same, silent.1, silent.2]
    rfl
  cases move with
  | revised known edge plain =>
      refine unmoved ?_ (edge.silent id)
      rw [Books.applyAll_chain]
      rfl
  | rewarded known edge told =>
      refine unmoved ?_ (edge.silent (fun owner amount outcome heard => ?_) id)
      · rw [Books.applyAll_chain]
        rfl
      · exact (expected heard).begun owner amount rfl
  | @deposited owner chain batch amount minted depositor known current found positive priced
      worthwhile fits =>
      obtain ⟨-, -, pending, -⟩ :=
        orderly.collecting_deposit kept current (show batch = _ by rw [found]; rfl)
      obtain rfl := kept.depositKey (Books.mem_deposits found).1
      have put := b.held_put kept { batch with amount := batch.amount + amount } (.inl found) id
      have same : ({ batch with amount := batch.amount + amount } : DepositBatch).held =
          batch.held := by
        simp [DepositBatch.held, pending, DepositStatus.arrived]
      rw [same] at put
      exact Nat.add_right_cancel put
  | @depositOpened owner chain epoch known current absent =>
      exact Nat.add_right_cancel (b.held_put kept (.empty owner epoch) (.inr ⟨absent, rfl⟩) id)
  | @depositMoved owner batch cause next op notices found edge plain =>
      have flow := edge.flow (orderly.depositFits (Books.mem_deposits found).1).1 founded found id
      obtain rfl := kept.depositKey (Books.mem_deposits found).1
      have put := b.held_put kept { batch with status := next } (.inl found) id
      rw [Books.applyAll_deposit]
      simp only at put
      lia
  | @delegated owner chain batch shares total receipts notices found awaited known summed told =>
      have sums := (founded rfl).delegation found
      obtain rfl := kept.depositKey (Books.mem_deposits found).1
      have spent := Books.held_delegated (kept.putChain (chain.delegating receipts shares total))
        found awaited id
      have delegates : (Cause.heard (.delegate batch.chain batch.epoch shares)
          (.success receipts)).delegates id = if batch.chain = id then batch.amount else 0 := by
        rw [← sums]
        rfl
      rw [delegates]
      exact spent
  | @reinvested owner epoch batch amount receipts notices current found plain =>
      obtain ⟨rfl, rfl, pending, -, stored⟩ := orderly.collecting_deposit kept current found
      have arrives : (Cause.heard (.transferRewards batch.chain amount)
          (.success receipts)).arrives id = if batch.chain = id then amount else 0 :=
        Nat.zero_add _
      rw [arrives]
      refine b.held_reinvesting kept stored pending fun own => ?_
      subst own
      exact (expected rfl).room amount rfl rfl
  | redemptionMoved found edge plain =>
      refine unmoved ?_ (edge.silent id)
      rw [Books.applyAll_redemption]
      rfl
  | released found awaited plain =>
      refine unmoved ?_ ⟨rfl, rfl⟩
      rw [Books.applyAll_released]
      simp
  | stale stale plain => exact unmoved rfl ((expected rfl).not_stale stale)
  | unanswered failed =>
      obtain ⟨response, answer⟩ := (expected rfl).answered
      exact absurd answer (failed response)
  | registered | requested | repriced | epochStarted | redeemed | unbonded | paid | quiet =>
      exact unmoved rfl ⟨rfl, rfl⟩

theorem Move.reinvested_le (kept : b.WellKept) (orderly : b.Orderly) (move : Move s b cause r)
    (id : ChainId) :
    (b.applyAll r.commands).reinvested id ≤
      b.reinvested id + Word.total (Word.rewards id) cause.words := by
  have unmoved (same : (b.applyAll r.commands).reinvested id = b.reinvested id) :
      (b.applyAll r.commands).reinvested id ≤
        b.reinvested id + Word.total (Word.rewards id) cause.words :=
    same ▸ Nat.le_add_right _ _
  cases move with
  | @deposited owner chain batch amount minted depositor known current found positive priced
      worthwhile fits =>
      obtain rfl := kept.depositKey (Books.mem_deposits found).1
      exact unmoved
        (b.reinvested_put kept id { batch with amount := batch.amount + amount } (.inl found) rfl)
  | @depositOpened owner chain epoch known current absent =>
      exact unmoved (b.reinvested_put kept id (.empty owner epoch) (.inr ⟨absent, rfl⟩) rfl)
  | @depositMoved owner batch cause next op notices found edge plain =>
      obtain rfl := kept.depositKey (Books.mem_deposits found).1
      refine unmoved ?_
      rw [Books.applyAll_deposit]
      exact b.reinvested_put kept id { batch with status := next } (.inl found) rfl
  | @delegated owner chain batch shares total receipts notices found awaited known summed told =>
      obtain rfl := kept.depositKey (Books.mem_deposits found).1
      exact unmoved (Books.reinvested_put (kept.putChain _) id { batch with status := .done }
        (.inl found) rfl)
  | @reinvested owner epoch batch amount receipts notices current found plain =>
      obtain ⟨rfl, rfl, -, -, stored⟩ := orderly.collecting_deposit kept current found
      have grown := kept.depositTotal_grown_le (fun _ => true) DepositBatch.reinvested
        (batch.reinvesting amount) stored rfl amount
        (Width.addSat_le 128 batch.reinvested amount) id
      have arrived : Word.total (Word.rewards id) (Cause.words
          (.heard (.transferRewards batch.chain amount) (.success receipts))) =
            if batch.chain = id then amount else 0 := rfl
      rw [arrived]
      exact grown
  | revised | rewarded =>
      refine unmoved ?_
      rw [Books.applyAll_chain]
      rfl
  | redemptionMoved found edge plain =>
      refine unmoved ?_
      rw [Books.applyAll_redemption]
      rfl
  | released found awaited plain =>
      refine unmoved ?_
      rw [Books.applyAll_released]
      simp [Books.reinvested, Books.depositTotal]
  | registered | requested | repriced | epochStarted | redeemed | unbonded | paid | quiet | stale
  | unanswered => exact unmoved rfl

/-! ## One answer -/

theorem Passage.held {kind : EpochKind} {epoch : Epoch} (kept : b.WellKept) (orderly : b.Orderly)
    (passage : Passage s (.asked (.startEpoch kind epoch)) b r) (id : ChainId) :
    (b.applyAll r.commands).held id = b.held id ∧
      (b.applyAll r.commands).reinvested id ≤ b.reinvested id := by
  induction passage with
  | done => exact ⟨rfl, Nat.le_refl _⟩
  | @next b first rest move later ih =>
      obtain ⟨held, reinvested⟩ := ih (kept.applyAll _) (move.orderly kept orderly nofun)
      have unheard : ∀ {op outcome}, Cause.asked (.startEpoch kind epoch) = .heard op outcome →
          RemoteOp.Expected s b id op outcome := nofun
      rw [Response.commands_append, Books.applyAll_append]
      exact ⟨held.trans (move.held kept orderly unheard),
        Nat.le_trans reinvested (move.reinvested_le kept orderly id)⟩

theorem Course.held (kept : b.WellKept) (orderly : b.Orderly) (course : Course s b cause r)
    (expected : ∀ {op outcome}, cause = .heard op outcome → RemoteOp.Expected s b id op outcome) :
    (b.applyAll r.commands).held id + cause.delegates id = b.held id + cause.arrives id ∧
      (b.applyAll r.commands).reinvested id ≤
        b.reinvested id + Word.total (Word.rewards id) cause.words := by
  cases course with
  | single move => exact ⟨move.held kept orderly expected, move.reinvested_le kept orderly id⟩
  | closing move closing =>
      obtain ⟨record, written⟩ := closing.closed_commands
      rw [Response.commands_append, Books.applyAll_append, written]
      exact ⟨move.held kept orderly expected, move.reinvested_le kept orderly id⟩
  | passing passage => exact passage.held kept orderly id

/-! ## Runs -/

namespace HubState

structure Remitted (h : HubState) (words : List Word) (id : ChainId) : Prop where
  balanced : h.books.held id + Word.total (Word.delegated id) words =
    Word.total (Word.deposits id) words + Word.total (Word.rewards id) words
  reinvested : h.books.reinvested id ≤ Word.total (Word.rewards id) words

theorem after_expected {steps : List Step} (sized : ∀ step ∈ steps, step.sized = true)
    (unreset : ∀ step ∈ steps, step.resetsDeposit = false) {op : RemoteOp}
    (outstanding : op ∈ (after steps).outstanding) (s : Surroundings) {outcome : Outcome}
    (room : ∀ amount, op = .transferRewards id amount → outcome.isSuccess = true →
      (after steps).books.reinvested id + amount < Width.limit 128) :
    RemoteOp.Expected s (after steps).books id op outcome where
  founded := (after_sound steps).founded op outstanding
  awaited _ serves ofDeposit := after_awaited unreset outstanding serves ofDeposit
  answered := after_answers sized outstanding outcome
  begun _ _ same := after_begun steps op outstanding (by rw [same]; rfl)
  room := room

theorem after_remitted {steps : List Step} (sized : ∀ step ∈ steps, step.sized = true)
    (unreset : ∀ step ∈ steps, step.resetsDeposit = false)
    (below : Word.total (Word.rewards id) (Word.after steps) < Width.limit 128) :
    (after steps).Remitted (Word.after steps) id := by
  induction steps using List.reverseRecOn with
  | nil => exact ⟨rfl, Nat.le_refl _⟩
  | append_singleton steps step ih =>
      have sizedBefore : ∀ step ∈ steps, step.sized = true := fun step member =>
        sized step (List.mem_append_left _ member)
      have unresetBefore : ∀ step ∈ steps, step.resetsDeposit = false := fun step member =>
        unreset step (List.mem_append_left _ member)
      rw [Word.after_append, Word.total_append] at below
      have before := ih sizedBefore unresetBefore (by omega)
      rw [Word.after_append, after_append]
      cases occurs : (after steps).occurrence? step with
      | none =>
          rw [step_of_none _ occurs, words, occurs]
          simpa using before
      | some occurrence =>
          obtain ⟨cause, r⟩ := occurrence
          have heard : (after steps).words step = cause.words := by rw [words, occurs]; rfl
          have sound := after_sound steps
          rw [heard] at below ⊢
          have expected : ∀ {op outcome}, cause = .heard op outcome →
              RemoteOp.Expected step.surroundings (after steps).books id op outcome := by
            rintro op outcome rfl
            cases step with
            | perform s request => cases (occurrence?_performed _ occurs).1
            | acknowledge s index outcome' =>
                obtain ⟨op', found, same, -⟩ := occurrence?_acknowledged _ occurs
                cases same
                refine after_expected sizedBefore unresetBefore (List.mem_of_getElem? found) s ?_
                rintro amount rfl success
                cases outcome with
                | success receipts =>
                    have bounded := before.reinvested
                    have arrives : Word.total (Word.rewards id)
                        (Cause.words (.heard (.transferRewards id amount) (.success receipts))) =
                          amount := if_pos rfl
                    rw [arrives] at below
                    lia
                | failure | timeout => cases success
          have flow :=
            (occurrence?_course _ sound.kept occurs).held sound.kept sound.orderly expected
          rw [step_of_some _ occurs]
          obtain ⟨held, reinvested⟩ := flow
          obtain ⟨balanced, bounded⟩ := before
          constructor <;> simp only [commit, Word.total_append]
          · simp only [Cause.arrives, Cause.delegates] at held
            omega
          · omega

/-- In every state of a run that resets no deposit batch, what the delegate account
received for delegation and has not delegated is the amount of the batches that
arrived and are not done, with the rewards that joined batches still to arrive.  So
a delegation on its way is covered together with every other batch that arrived. -/
theorem delegations_funded (steps : List Step) (id : ChainId)
    (sized : ∀ step ∈ steps, step.sized = true)
    (unreset : ∀ step ∈ steps, step.resetsDeposit = false)
    (below : Word.total (Word.rewards id) (Word.after steps) < Width.limit 128) :
    Word.funds id (Word.after steps) =
        (after steps).books.arrived id + (after steps).books.ahead id ∧
      ∀ epoch shares, .delegate id epoch shares ∈ (after steps).outstanding →
        (Allocation.sum shares + (after steps).books.arrivedBeside id epoch : Int) ≤
          Word.funds id (Word.after steps) := by
  have sound := after_sound steps
  have remitted := (after_remitted sized unreset below).balanced
  rw [Books.held_eq] at remitted
  have funds : Word.funds id (Word.after steps) =
      (after steps).books.arrived id + (after steps).books.ahead id := by
    simp only [Word.funds]
    omega
  refine ⟨funds, fun epoch shares outstanding => ?_⟩
  have serves : (RemoteOp.delegate id epoch shares).serves ⟨id, epoch, .delegation⟩ = true :=
    RemoteOp.serves_iff.mpr rfl
  have awaited := after_awaited unreset outstanding serves rfl
  obtain ⟨-, -, batch, found, sums⟩ := sound.founded _ outstanding
  obtain ⟨-, rfl⟩ := Books.mem_deposits found
  have delegating : batch.status = .delegating := by
    simpa [Books.awaits, found, Leg.ofDeposit, DepositStatus.leg?_delegation] using awaited
  have covered := Books.amount_add_arrivedBeside sound.kept found (by rw [delegating]; rfl)
  rw [funds, sums]
  lia

end HubState

/-- The delegation of 60 in rewards failed; one of 105, with 5 in rewards, is on its
way, and 3 in rewards have joined the batch after it. -/
def Step.sampleRemittances : List Step :=
  sampleRewards ++
    [.perform (.sample 600 0) (.deposit "cosmoshub" 100 "dave"),
      .acknowledge (.sample 600 0) 0 .failure,
      .acknowledge (.sample 600 0) 0 (.success [.rewards 5]),
      .acknowledge (.sample 600 0) 0 (.success []),
      .perform (.sample 600 100) (.startEpoch .delegation 5),
      .acknowledge (.sample 600 0) 0 (.success []),
      .acknowledge (.sample 600 0) 0 (.success [.rewards 3]),
      .acknowledge (.sample 600 0) 1 (.success [])]

theorem HubState.delegations_funded_sample :
    Word.funds "cosmoshub" (Word.after Step.sampleRemittances) = 165 + 3 ∧
      (105 + 60 : Int) ≤ Word.funds "cosmoshub" (Word.after Step.sampleRemittances) := by
  obtain ⟨funds, covered⟩ := delegations_funded Step.sampleRemittances "cosmoshub"
    (by decide +kernel) (by decide +kernel) (by decide +kernel)
  have arrived : (after Step.sampleRemittances).books.arrived "cosmoshub" = 165 := by
    decide +kernel
  have ahead : (after Step.sampleRemittances).books.ahead "cosmoshub" = 3 := by decide +kernel
  have beside : (after Step.sampleRemittances).books.arrivedBeside "cosmoshub" 4 = 60 := by
    decide +kernel
  have delegation := covered 4 [⟨"alice", 35⟩, ⟨"bob", 70⟩] (by decide +kernel)
  rw [arrived, ahead] at funds
  rw [beside] at delegation
  exact ⟨funds, delegation⟩

end LiquidStaking
