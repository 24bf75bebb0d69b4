import LiquidStaking.Proofs.Answers

/-!
# Control accounts

An account of a chain has an address while its channel is open.  Two things change
it: the account is reported to be open, and an operation that it carries out times
out.  An operation names its chain and its account but not the channel it went
over, so one that was started before the account was opened again closes it like
any other.
-/

namespace LiquidStaking

variable {s : Surroundings} {b : Books} {h : HubState} {cause : Cause} {r : Response}
  {id : ChainId} {account : ControlAccount}

/-- Where an account of a chain is open, as far as the hub knows. -/
def Books.address? (b : Books) (id : ChainId) (account : ControlAccount) : Option Address :=
  (b.chain? id).bind fun chain => chain.address? account

theorem Books.address?_of_known {chain : Chain} (known : b.chain? id = some chain) :
    b.address? id account = chain.address? account := by
  rw [address?, known, Option.bind_some]

/-! ## What a move tells of an account -/

def Cause.reports? (id : ChainId) (account : ControlAccount) : Cause → Option (Option Address)
  | .asked (.accountOpened chain opened address) =>
      if chain = id ∧ opened = account then some (some address) else none
  | .closed chain shut => if chain = id ∧ shut = account then some none else none
  | _ => none

theorem Chain.address?_setAddress (chain : Chain) (set account : ControlAccount)
    (address : Option Address) :
    (chain.setAddress set address).address? account =
      if set = account then address else chain.address? account := by
  cases set <;> cases account <;> rfl

@[simp] theorem Chain.id_setAddress (chain : Chain) (account : ControlAccount)
    (address : Option Address) : (chain.setAddress account address).id = chain.id := by
  cases account <;> rfl

@[simp] theorem Chain.address?_delegating (chain : Chain) (receipts : List Receipt)
    (shares : Allocation) (total : Amount) :
    (chain.delegating receipts shares total).address? = chain.address? := by
  have held : (Hub.holdRewards chain receipts).1.address? = chain.address? := by
    unfold Hub.holdRewards
    dsimp only
    split <;> rfl
  exact held

@[simp] theorem Chain.address?_undelegating (chain : Chain) (receipts : List Receipt)
    (shares : Allocation) (total : Amount) :
    (chain.undelegating receipts shares total).address? = chain.address? :=
  chain.address?_delegating receipts shares total

theorem Books.address?_putChain (record : Chain) :
    (b.putChain record).address? id account =
      if id = record.id then record.address? account else b.address? id account := by
  rw [address?, chain?_putChain]
  split <;> rfl

section Edges

variable {chain chain' : Chain} {ops : List RemoteOp}

theorem ChainEdge.address? {owner : ChainId} (edge : ChainEdge b owner chain cause chain' ops)
    (account : ControlAccount) :
    chain'.address? account = (cause.reports? owner account).getD (chain.address? account) := by
  cases edge with
  | opened opened address =>
      rw [Chain.address?_setAddress]
      by_cases same : opened = account <;> simp [Cause.reports?, same]
  | restaffed | withdrawAddressSet => cases account <;> rfl
  | closed shut =>
      rw [Chain.address?_setAddress]
      by_cases same : shut = account <;> simp [Cause.reports?, same]

theorem ChainEdge.reports?_other {owner : ChainId}
    (edge : ChainEdge b owner chain cause chain' ops) (other : id ≠ owner) :
    cause.reports? id account = none := by
  cases edge with
  | opened | closed => exact if_neg fun same => other same.1.symm
  | restaffed | withdrawAddressSet => rfl

theorem RewardEdge.address? {reported : Amount}
    (edge : RewardEdge b id chain cause chain' ops reported) :
    chain'.address? = chain.address? := by
  cases edge <;> rfl

theorem RewardEdge.reports? {owner : ChainId} {reported : Amount}
    (edge : RewardEdge b owner chain cause chain' ops reported) :
    cause.reports? id account = none := by
  cases edge <;> rfl

theorem DepositEdge.reports? {owner : ChainId} {batch : DepositBatch} {next : DepositStatus}
    {op : Option RemoteOp} (edge : DepositEdge b owner batch cause next op) :
    cause.reports? id account = none := by
  cases edge <;> rfl

theorem RedemptionEdge.reports? {owner : ChainId} {batch : RedemptionBatch}
    {next : RedemptionStatus} {op : Option RemoteOp}
    (edge : RedemptionEdge s b owner batch cause next op) :
    cause.reports? id account = none := by
  cases edge <;> rfl

end Edges

theorem Move.address? (kept : b.WellKept) (move : Move s b cause r) (id : ChainId)
    (account : ControlAccount) :
    (b.applyAll r.commands).address? id account =
      (cause.reports? id account).getD (b.address? id account) := by
  have revised {chain record : Chain} {owner : ChainId} (known : b.chain? owner = some chain)
      (key : record.id = chain.id) (same : record.address? account = chain.address? account) :
      (b.putChain record).address? id account = b.address? id account := by
    rw [Books.address?_putChain, key, kept.chainKey known, same]
    split
    · rename_i own
      rw [own, Books.address?_of_known known]
    · rfl
  cases move with
  | @registered registration sound fresh =>
      have closed : registration.profile.address? account = none := by cases account <;> rfl
      have unknown : b.address? registration.chainId account = none := by
        rw [Books.address?, fresh, Option.bind_none]
      have written : (b.putChain registration.profile).address? id account = _ :=
        b.address?_putChain registration.profile
      rw [closed] at written
      refine written.trans ?_
      split
      · rename_i own
        exact own ▸ unknown.symm
      · rfl
  | @revised owner chain chain' cause ops notices known edge plain =>
      rw [Books.applyAll_chain, Books.address?_putChain, edge.revises.id, kept.chainKey known]
      split
      · rename_i own
        rw [own, edge.address? account, Books.address?_of_known known]
      · rename_i other
        rw [edge.reports?_other other, Option.getD_none]
  | rewarded known edge told =>
      rw [Books.applyAll_chain, edge.reports?, Option.getD_none]
      exact revised known edge.revises.id (congrFun edge.address? account)
  | @repriced owner chain rate epoch known backed priced =>
      have put : (b.putChain { chain with rate }).address? id account = b.address? id account :=
        revised known rfl (by cases account <;> rfl)
      exact put
  | @delegated owner chain batch shares total receipts notices found awaited known summed told =>
      exact revised known (chain.id_delegating receipts shares total)
        (congrFun (chain.address?_delegating receipts shares total) account)
  | @unbonded owner chain batch shares total completion receipts notices found awaited known
      summed due told =>
      exact revised known (chain.id_undelegating receipts shares total)
        (congrFun (chain.address?_undelegating receipts shares total) account)
  | depositMoved found edge plain =>
      rw [Books.applyAll_deposit, edge.reports?]
      rfl
  | redemptionMoved found edge plain =>
      rw [Books.applyAll_redemption, edge.reports?]
      rfl
  | @released owner batch amount receipts notices found awaited plain =>
      rw [Books.applyAll_released]
      simp [Books.address?, Cause.reports?]
  | requested | epochStarted | deposited | depositOpened | reinvested | redeemed | paid | quiet
  | stale | unanswered => rfl

theorem Passage.address? {kind : EpochKind} {epoch : Epoch} (kept : b.WellKept)
    (passage : Passage s (.asked (.startEpoch kind epoch)) b r) (id : ChainId)
    (account : ControlAccount) :
    (b.applyAll r.commands).address? id account = b.address? id account := by
  generalize asked : Cause.asked (.startEpoch kind epoch) = cause at passage
  induction passage with
  | done => rfl
  | next move later ih =>
      subst asked
      rw [Response.commands_append, Books.applyAll_append, ih (kept.applyAll _),
        move.address? kept id account]
      rfl

/-! ## What becomes of an address -/

def RemoteOp.usesAccount (id : ChainId) (account : ControlAccount) (op : RemoteOp) : Bool :=
  op.chain == id && op.account? == some account

theorem Hub.resolve_address? (kept : b.WellKept) {op : RemoteOp} {outcome : Outcome}
    (granted : resolve b.view s op outcome = .ok r) (id : ChainId) (account : ControlAccount) :
    (b.applyAll r.commands).address? id account =
      if outcome = .timeout ∧ op.usesAccount id account then none
      else b.address? id account := by
  rcases resolve_moves kept granted with
    ⟨unclosed, move⟩ | ⟨carrier, first, second, rfl, carries, rfl, move, closing⟩
  · have stays : ¬(outcome = .timeout ∧ op.usesAccount id account = true) := by
      rintro ⟨timedOut, uses⟩
      simp [RemoteOp.usesAccount, unclosed timedOut] at uses
    rw [move.address? kept id account, if_neg stays]
    rfl
  · rw [Response.commands_append, Books.applyAll_append,
      closing.address? (kept.applyAll _) id account, move.address? kept id account]
    by_cases own : op.chain = id ∧ carrier = account
    · simp [Cause.reports?, RemoteOp.usesAccount, carries, own]
    · have other : ¬(op.usesAccount id account = true) := by
        simpa [RemoteOp.usesAccount, carries] using own
      simp [Cause.reports?, own, other]

def Step.opens? (id : ChainId) (account : ControlAccount) : Step → Option Address
  | .perform _ (.accountOpened chain opened address) =>
      if chain = id ∧ opened = account then some address else none
  | _ => none

namespace HubState

def timesOut (h : HubState) (id : ChainId) (account : ControlAccount) : Step → Bool
  | .acknowledge _ index .timeout => (h.outstanding[index]?).any (RemoteOp.usesAccount id account)
  | _ => false

def everTimesOut (h : HubState) (id : ChainId) (account : ControlAccount) : List Step → Bool
  | [] => false
  | step :: later => h.timesOut id account step || (h.step step).everTimesOut id account later

theorem step_address? (kept : h.books.WellKept)
    (answers : ∀ op ∈ h.outstanding, ∀ s outcome,
      ∃ r, Hub.resolve h.books.view s op outcome = .ok r) {step : Step}
    (unreported : step.opens? id account = none) :
    (h.step step).books.address? id account =
      if h.timesOut id account step then none else h.books.address? id account := by
  cases occurs : h.occurrence? step with
  | none =>
      have still : h.timesOut id account step = false := by
        cases step with
        | perform => rfl
        | acknowledge s index outcome =>
            have nothing : h.outstanding[index]? = none := Option.map_eq_none_iff.mp occurs
            cases outcome <;> simp [timesOut, nothing]
      rw [h.step_of_none occurs, still]
      rfl
  | some occurrence =>
      obtain ⟨cause, r⟩ := occurrence
      rw [h.step_of_some occurs]
      cases step with
      | perform s request =>
          obtain ⟨rfl, granted⟩ := h.occurrence?_performed occurs
          cases Hub.answer_course kept granted with
          | single move =>
              refine (move.address? kept id account).trans ?_
              have untold : (Cause.asked request).reports? id account = none := by
                cases request with
                | accountOpened chain opened address =>
                    simpa [Step.opens?, Cause.reports?] using unreported
                | _ => rfl
              rw [untold]
              rfl
          | passing passage => exact passage.address? kept id account
      | acknowledge s index outcome =>
          obtain ⟨op, found, -, granted | ⟨-, failed⟩⟩ := h.occurrence?_acknowledged occurs
          · refine (Hub.resolve_address? kept granted id account).trans ?_
            cases outcome <;> simp [timesOut, found]
          · obtain ⟨r, answer⟩ := answers op (List.mem_of_getElem? found) s outcome
            exact absurd answer (failed r)

theorem after_address? {steps later : List Step}
    (sized : ∀ step ∈ steps ++ later, step.sized = true)
    (unreported : ∀ step ∈ later, step.opens? id account = none) :
    (after (steps ++ later)).books.address? id account =
      if (after steps).everTimesOut id account later then none
      else (after steps).books.address? id account := by
  induction later generalizing steps with
  | nil => rw [List.append_nil]; rfl
  | cons step later ih =>
      have begun : ∀ step ∈ steps, step.sized = true := fun step member =>
        sized step (List.mem_append_left _ member)
      have stepped := step_address? (after_wellKept steps)
        (fun op outstanding s outcome => after_answers begun outstanding outcome (s := s))
        (unreported step List.mem_cons_self)
      have same : ∀ other ∈ steps ++ [step] ++ later, other.sized = true := by simpa using sized
      have rest := ih same fun step member => unreported step (List.mem_cons_of_mem _ member)
      rw [List.append_assoc, List.singleton_append] at rest
      rw [rest, after_append, stepped, everTimesOut]
      cases (after steps).timesOut id account step <;> simp

/-- Once an account is reported to be open at an address it has that address, until an
operation that it carries out times out, whenever that was started; then it has
none, until it is reported again.  Nothing else closes it. -/
theorem open_until_timeout (steps later : List Step) (s : Surroundings) (id : ChainId)
    (account : ControlAccount) (address : Address)
    (sized : ∀ step ∈ steps ++ later, step.sized = true)
    (known : (after steps).books.chain? id ≠ none)
    (unreported : ∀ step ∈ later, step.opens? id account = none) :
    (after (steps ++ .perform s (.accountOpened id account address) :: later)).books.address? id
        account =
      if (after (steps ++ [.perform s (.accountOpened id account address)])).everTimesOut id
          account later then none
      else some address := by
  obtain ⟨chain, known⟩ := Option.ne_none_iff_exists'.mp known
  have kept := after_wellKept steps
  obtain ⟨r, granted⟩ : ∃ r, Request.answer (after steps).books.view s
      (.accountOpened id account address) = .ok r := by
    have read : (after steps).books.view.chain id = .ok chain := Books.view_chain.mpr known
    simp only [Request.answer, Hub.accountOpened, read]
    exact ⟨_, rfl⟩
  have reported : (after (steps ++ [.perform s (.accountOpened id account address)])).books.address?
      id account = some address := by
    have opened := (Hub.accountOpened_move (s := s) kept granted).address? kept id account
    simp only [Cause.reports?, and_self, if_true, Option.getD_some] at opened
    rw [after_append]
    simpa [HubState.step, perform, settle, granted, commit] using opened
  have whole : ∀ step ∈ steps ++ [.perform s (.accountOpened id account address)] ++ later,
      step.sized = true := by
    intro step member
    rw [List.append_assoc, List.singleton_append, List.mem_append, List.mem_cons] at member
    rcases member with old | rfl | new
    · exact sized step (List.mem_append_left _ old)
    · rfl
    · exact sized step (List.mem_append_right _ new)
  have rest := after_address? whole unreported
  rwa [reported, List.append_assoc, List.singleton_append] at rest

/-- The delegate account stays open throughout, and closes over the undelegation. -/
theorem open_until_timeout_sample :
    (after Step.sampleRun).books.address? "cosmoshub" .delegate = some "delegator" ∧
      (after (Step.sampleRun ++ [.acknowledge (.sample 1000 0) 0 .timeout])).books.address?
        "cosmoshub" .delegate = none := by
  have stays := open_until_timeout (Step.sampleRun.take 1) (Step.sampleRun.drop 2)
    (.sample 0 0) "cosmoshub" .delegate "delegator" (by decide +kernel) (by decide +kernel)
    (by decide +kernel)
  have closes := open_until_timeout (Step.sampleRun.take 1)
    (Step.sampleRun.drop 2 ++ [.acknowledge (.sample 1000 0) 0 .timeout])
    (.sample 0 0) "cosmoshub" .delegate "delegator" (by decide +kernel) (by decide +kernel)
    (by decide +kernel)
  exact ⟨stays.trans (if_neg (by decide +kernel)), closes.trans (if_pos (by decide +kernel))⟩

end HubState

/-- Two delegations are on their way over the same channel. -/
def Step.samplePair : List Step :=
  [.perform (.sample 0 0) (.register .sample),
    .perform (.sample 0 0) (.accountOpened "cosmoshub" .delegate "delegator"),
    .perform (.sample 0 0) (.startEpoch .delegation 1),
    .perform (.sample 0 0) (.deposit "cosmoshub" 1000 "carol"),
    .perform (.sample 1000 1000) (.startEpoch .delegation 2),
    .perform (.sample 1000 0) (.deposit "cosmoshub" 1000 "carol"),
    .perform (.sample 2000 1000) (.startEpoch .delegation 3),
    .acknowledge (.sample 2000 0) 0 (.success []),
    .acknowledge (.sample 2000 0) 0 (.success [])]

/-- The channel closes over the first of them, and the account is opened again. -/
def Step.sampleReopened : List Step :=
  samplePair ++ [.acknowledge (.sample 2000 0) 0 .timeout,
    .perform (.sample 2000 0) (.accountOpened "cosmoshub" .delegate "delegator-2")]

/-- Word of the second one, which went over the channel that closed, closes the
account that was opened since. -/
theorem HubState.late_timeout_closes :
    ∃ op, (after Step.samplePair).outstanding[1]? = some op ∧
      op.usesAccount "cosmoshub" .delegate = true ∧
      (after (Step.samplePair ++ [.acknowledge (.sample 2000 0) 0 .timeout])).books.address?
        "cosmoshub" .delegate = none ∧
      (after Step.sampleReopened).outstanding = [op] ∧
      (after Step.sampleReopened).books.address? "cosmoshub" .delegate = some "delegator-2" ∧
      ((after Step.sampleReopened).step
        (.acknowledge (.sample 2000 0) 0 .timeout)).books.address? "cosmoshub" .delegate ≠
          some "delegator-2" := by
  refine ⟨.delegate "cosmoshub" 2 [⟨"alice", 333⟩, ⟨"bob", 667⟩], ?_⟩
  decide +kernel

end LiquidStaking
