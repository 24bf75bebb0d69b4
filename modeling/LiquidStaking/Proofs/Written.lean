import LiquidStaking.Proofs.Storage
import Mathlib.Data.List.Induction

/-!
# What storage reads

Storage answers every read as finite maps would: what was last written under a
key, the chains in the order they were first written, and the claims of an owner
in the order they were first written.
-/

namespace LiquidStaking

/-! ## What commands write -/

namespace Command

def chainId? : Command → Option ChainId
  | .chain record => some record.id
  | _ => none

def chainAt? (id : ChainId) : Command → Option Chain
  | .chain record => if record.id = id then some record else none
  | _ => none

def epochAt? (kind : EpochKind) : Command → Option Epoch
  | .epoch written number => if written = kind then some number else none
  | _ => none

def depositAt? (chain : ChainId) (epoch : Epoch) : Command → Option DepositBatch
  | .deposit record => if record.chain = chain ∧ record.epoch = epoch then some record else none
  | _ => none

def redemptionAt? (chain : ChainId) (epoch : Epoch) : Command → Option RedemptionBatch
  | .redemption record => if record.chain = chain ∧ record.epoch = epoch then some record else none
  | _ => none

def claimAt? (id : String) : Command → Option Claim
  | .claim record => if record.id = id then some record else none
  | _ => none

def claimIdOf? (owner : Address) : Command → Option String
  | .claim record => if record.owner = owner then some record.id else none
  | _ => none

def last? {α : Type} (written? : Command → Option α) (commands : List Command) : Option α :=
  (commands.filterMap written?).getLast?

def firsts {α : Type} [BEq α] (written? : Command → Option α) (commands : List Command) : List α :=
  (commands.filterMap written?).eraseDups

theorem depositAt?_eq_some {chain : ChainId} {epoch : Epoch} {command : Command}
    {record : DepositBatch} : depositAt? chain epoch command = some record ↔
      command = .deposit record ∧ record.chain = chain ∧ record.epoch = epoch := by
  cases command with
  | deposit other =>
      simp only [depositAt?, Option.ite_none_right_eq_some, Option.some.injEq, deposit.injEq]
      constructor
      · rintro ⟨own, rfl⟩
        exact ⟨rfl, own⟩
      · rintro ⟨rfl, own⟩
        exact ⟨own, rfl⟩
  | _ => simp [depositAt?]

theorem redemptionAt?_eq_some {chain : ChainId} {epoch : Epoch} {command : Command}
    {record : RedemptionBatch} : redemptionAt? chain epoch command = some record ↔
      command = .redemption record ∧ record.chain = chain ∧ record.epoch = epoch := by
  cases command with
  | redemption other =>
      simp only [redemptionAt?, Option.ite_none_right_eq_some, Option.some.injEq,
        redemption.injEq]
      constructor
      · rintro ⟨own, rfl⟩
        exact ⟨rfl, own⟩
      · rintro ⟨rfl, own⟩
        exact ⟨own, rfl⟩
  | _ => simp [redemptionAt?]

def OwnersKept (commands : List Command) : Prop :=
  ∀ record other, .claim record ∈ commands → .claim other ∈ commands → record.id = other.id →
    record.owner = other.owner

end Command

open Command (chainId? chainAt? epochAt? depositAt? redemptionAt? claimAt? claimIdOf? last? firsts)

/-- What storage answers after commands applied to an empty store. -/
structure Store.Reflects (store : Store) (commands : List Command) : Prop where
  chainIds : store.chainIds = some (firsts chainId? commands)
  chain? : ∀ id, store.chain? id = some (last? (chainAt? id) commands)
  epoch? : ∀ kind, store.epoch? kind = some (last? (epochAt? kind) commands)
  deposit? : ∀ id e, store.deposit? id e = some (last? (depositAt? id e) commands)
  openDeposits : ∀ id, ∃ batches, store.openDeposits id = some batches ∧
    InOrder DepositBatch.epoch batches ∧
    ∀ batch, batch ∈ batches ↔
      last? (depositAt? id batch.epoch) commands = some batch ∧ batch.status ≠ .done
  redemption? : ∀ id e, store.redemption? id e = some (last? (redemptionAt? id e) commands)
  openRedemptions : ∀ id, ∃ batches, store.openRedemptions id = some batches ∧
    InOrder RedemptionBatch.epoch batches ∧
    ∀ batch, batch ∈ batches ↔
      last? (redemptionAt? id batch.epoch) commands = some batch ∧ batch.status ≠ .done
  claim? : ∀ id, store.claim? id = some (last? (claimAt? id) commands)
  claimsOf : Command.OwnersKept commands → ∀ owner chain, store.claimsOf owner chain =
    some (((firsts (claimIdOf? owner) commands).filterMap fun id =>
      last? (claimAt? id) commands).filter fun claim => chain.all fun id => claim.chain == id)

/-! ## The books as maps -/

namespace Command

variable {α : Type} (written? : Command → Option α) (commands : List Command)

theorem last?_append (command : Command) :
    last? written? (commands ++ [command]) = (written? command).or (last? written? commands) := by
  cases written : written? command <;> simp [last?, written]

theorem firsts_append [BEq α] [LawfulBEq α] (command : Command) :
    firsts written? (commands ++ [command]) =
      match written? command with
      | none => firsts written? commands
      | some new =>
          if new ∈ firsts written? commands then firsts written? commands
          else firsts written? commands ++ [new] := by
  cases written : written? command with
  | none => simp [firsts, written]
  | some new =>
      simp only [firsts, List.filterMap_append, List.filterMap_cons, written, List.filterMap_nil,
        List.eraseDups_append, List.mem_eraseDups]
      by_cases seen : new ∈ commands.filterMap written? <;>
        simp [List.removeAll, seen, List.eraseDups_cons]

theorem mem_firsts [BEq α] [LawfulBEq α] {value : α} :
    value ∈ firsts written? commands ↔ ∃ command ∈ commands, written? command = some value := by
  rw [firsts, List.mem_eraseDups, List.mem_filterMap]

theorem last?_isSome :
    (last? written? commands).isSome = true ↔
      ∃ command ∈ commands, (written? command).isSome = true := by
  rw [last?, List.getLast?_isSome, Ne, List.filterMap_eq_nil_iff]
  simp [Option.isSome_iff_ne_none]

variable {written?} {commands}

theorem last?_eq_none (nothing : ∀ command ∈ commands, written? command = none) :
    last? written? commands = none := by
  rw [last?, List.filterMap_eq_nil_iff.mpr nothing, List.getLast?_nil]

theorem last?_eq_some {value : α} (writes : ∃ command ∈ commands, written? command = some value)
    (only : ∀ command ∈ commands, ∀ other, written? command = some other → other = value) :
    last? written? commands = some value := by
  obtain ⟨command, member, written⟩ := writes
  have found : (last? written? commands).isSome = true :=
    (last?_isSome written? commands).mpr ⟨command, member, by rw [written]; rfl⟩
  obtain ⟨last, is⟩ := Option.isSome_iff_exists.mp found
  obtain ⟨other, listed, gives⟩ := List.mem_filterMap.mp (List.mem_of_getLast? is)
  rw [is, only other listed last gives]

end Command

namespace Books

variable {b : Books}

theorem applyAll_concat (b : Books) (commands : List Command) (command : Command) :
    b.applyAll (commands ++ [command]) = (b.applyAll commands).apply command :=
  b.applyAll_append commands [command]

section Read

variable {α : Type} (read : Books → Option α) {written? : Command → Option α}
  (step : ∀ b command, read (b.apply command) = (written? command).or (read b))

include step

theorem read_applyAll (b : Books) (commands : List Command) :
    read (b.applyAll commands) = (last? written? commands).or (read b) := by
  induction commands using List.reverseRecOn with
  | nil => rfl
  | append_singleton commands command ih =>
      rw [applyAll_concat, step, ih, Command.last?_append, Option.or_assoc]

theorem read_empty (nothing : read .empty = none) (commands : List Command) :
    read (empty.applyAll commands) = last? written? commands := by
  rw [read_applyAll read step, nothing, Option.or_none]

end Read

theorem deposit?_apply (id : ChainId) (e : Epoch) (b : Books) (command : Command) :
    (b.apply command).deposit? id e = (depositAt? id e command).or (b.deposit? id e) := by
  cases command with
  | deposit record =>
      simp only [apply, deposit?_putDeposit, depositAt?, eq_comm (a := id), eq_comm (a := e)]
      split <;> rfl
  | _ => rfl

theorem redemption?_apply (id : ChainId) (e : Epoch) (b : Books) (command : Command) :
    (b.apply command).redemption? id e =
      (redemptionAt? id e command).or (b.redemption? id e) := by
  cases command with
  | redemption record =>
      simp only [apply, redemption?_putRedemption, redemptionAt?, eq_comm (a := id),
        eq_comm (a := e)]
      split <;> rfl
  | _ => rfl

section Once

variable {commands : List Command} {id : ChainId} {e : Epoch}

theorem deposit?_unwritten (nothing : ∀ record, .deposit record ∈ commands →
    record.chain = id → record.epoch ≠ e) :
    (b.applyAll commands).deposit? id e = b.deposit? id e := by
  rw [read_applyAll (fun b => b.deposit? id e) (deposit?_apply id e), Command.last?_eq_none,
    Option.none_or]
  refine fun command member => Option.eq_none_iff_forall_ne_some.mpr fun record written => ?_
  obtain ⟨rfl, sameChain, sameEpoch⟩ := Command.depositAt?_eq_some.mp written
  exact nothing record member sameChain sameEpoch

theorem deposit?_once {record : DepositBatch} (member : .deposit record ∈ commands)
    (only : ∀ other, .deposit other ∈ commands → other.chain = record.chain →
      other.epoch = record.epoch → other = record) :
    (b.applyAll commands).deposit? record.chain record.epoch = some record := by
  have last : last? (depositAt? record.chain record.epoch) commands = some record := by
    refine Command.last?_eq_some ⟨_, member, Command.depositAt?_eq_some.mpr ⟨rfl, rfl, rfl⟩⟩ ?_
    intro command listed other written
    obtain ⟨rfl, sameChain, sameEpoch⟩ := Command.depositAt?_eq_some.mp written
    exact only other listed sameChain sameEpoch
  rw [read_applyAll (fun b => b.deposit? record.chain record.epoch) (deposit?_apply _ _), last,
    Option.some_or]

theorem redemption?_unwritten (nothing : ∀ record, .redemption record ∈ commands →
    record.chain = id → record.epoch ≠ e) :
    (b.applyAll commands).redemption? id e = b.redemption? id e := by
  rw [read_applyAll (fun b => b.redemption? id e) (redemption?_apply id e), Command.last?_eq_none,
    Option.none_or]
  refine fun command member => Option.eq_none_iff_forall_ne_some.mpr fun record written => ?_
  obtain ⟨rfl, sameChain, sameEpoch⟩ := Command.redemptionAt?_eq_some.mp written
  exact nothing record member sameChain sameEpoch

theorem redemption?_once {record : RedemptionBatch} (member : .redemption record ∈ commands)
    (only : ∀ other, .redemption other ∈ commands → other.chain = record.chain →
      other.epoch = record.epoch → other = record) :
    (b.applyAll commands).redemption? record.chain record.epoch = some record := by
  have last : last? (redemptionAt? record.chain record.epoch) commands = some record := by
    refine Command.last?_eq_some ⟨_, member, Command.redemptionAt?_eq_some.mpr ⟨rfl, rfl, rfl⟩⟩ ?_
    intro command listed other written
    obtain ⟨rfl, sameChain, sameEpoch⟩ := Command.redemptionAt?_eq_some.mp written
    exact only other listed sameChain sameEpoch
  rw [read_applyAll (fun b => b.redemption? record.chain record.epoch) (redemption?_apply _ _),
    last, Option.some_or]

theorem deposits_unwritten (nothing : ∀ record, .deposit record ∈ commands → record.chain ≠ id) :
    (b.applyAll commands).deposits id = b.deposits id := by
  induction commands generalizing b with
  | nil => rfl
  | cons command commands ih =>
      rw [applyAll_cons, ih fun record later => nothing record (List.mem_cons_of_mem _ later)]
      cases command with
      | deposit record =>
          rw [apply, deposits_putDeposit, if_neg (nothing record List.mem_cons_self).symm]
      | _ => rfl

theorem redemptions_unwritten
    (nothing : ∀ record, .redemption record ∈ commands → record.chain ≠ id) :
    (b.applyAll commands).redemptions id = b.redemptions id := by
  induction commands generalizing b with
  | nil => rfl
  | cons command commands ih =>
      rw [applyAll_cons, ih fun record later => nothing record (List.mem_cons_of_mem _ later)]
      cases command with
      | redemption record =>
          rw [apply, redemptions_putRedemption, if_neg (nothing record List.mem_cons_self).symm]
      | _ => rfl

end Once

section Written

variable (commands)

theorem chain?_written (id : ChainId) :
    (empty.applyAll commands).chain? id = last? (chainAt? id) commands := by
  refine read_empty (fun b => b.chain? id) (fun b command => ?_) rfl commands
  cases command with
  | chain record =>
      simp only [apply, chain?_putChain, chainAt?, eq_comm (a := id)]
      split <;> rfl
  | _ => rfl

theorem epoch?_written (kind : EpochKind) :
    (empty.applyAll commands).epoch? kind = last? (epochAt? kind) commands := by
  refine read_empty (fun b => b.epoch? kind) (fun b command => ?_) rfl commands
  cases command with
  | epoch written number =>
      simp only [apply, setAt, epochAt?, eq_comm (a := kind)]
      split <;> rfl
  | _ => rfl

theorem deposit?_written (id : ChainId) (e : Epoch) :
    (empty.applyAll commands).deposit? id e = last? (depositAt? id e) commands :=
  read_empty (fun b => b.deposit? id e) (deposit?_apply id e) rfl commands

theorem redemption?_written (id : ChainId) (e : Epoch) :
    (empty.applyAll commands).redemption? id e = last? (redemptionAt? id e) commands :=
  read_empty (fun b => b.redemption? id e) (redemption?_apply id e) rfl commands

theorem claim?_written (id : String) :
    (empty.applyAll commands).claim? id = last? (claimAt? id) commands := by
  refine read_empty (fun b => b.claim? id) (fun b command => ?_) rfl commands
  cases command with
  | claim record =>
      simp only [apply, claim?_putClaim, claimAt?, eq_comm (a := id)]
      split <;> rfl
  | _ => rfl

theorem chainIds_written : (empty.applyAll commands).chainIds = firsts chainId? commands := by
  induction commands using List.reverseRecOn with
  | nil => rfl
  | append_singleton commands command ih =>
      rw [applyAll_concat, Command.firsts_append, ← ih]
      cases command <;> rfl

theorem claim?_known {record : Claim} (kept : Command.OwnersKept (commands ++ [.claim record])) :
    ((empty.applyAll commands).claim? record.id).isSome = true ↔
      record.id ∈ firsts (claimIdOf? record.owner) commands := by
  rw [claim?_written, Command.mem_firsts, Command.last?_isSome]
  constructor
  · rintro ⟨command, member, written⟩
    refine ⟨command, member, ?_⟩
    cases command with
    | claim other =>
        have same : other.id = record.id := by simpa [claimAt?] using written
        have owner := kept other record (List.mem_append_left _ member) (by simp) same
        simp [claimIdOf?, owner, same]
    | _ => simp [claimAt?] at written
  · rintro ⟨command, member, written⟩
    refine ⟨command, member, ?_⟩
    cases command with
    | claim other =>
        have same : other.owner = record.owner ∧ other.id = record.id := by
          simpa [claimIdOf?] using written
        simp [claimAt?, same.2]
    | _ => simp [claimIdOf?] at written

theorem claimIds_written (kept : Command.OwnersKept commands) (owner : Address) :
    (empty.applyAll commands).claimIds owner = firsts (claimIdOf? owner) commands := by
  induction commands using List.reverseRecOn with
  | nil => rfl
  | append_singleton commands command ih =>
      have ih := ih fun record other member member' =>
        kept record other (List.mem_append_left _ member) (List.mem_append_left _ member')
      rw [applyAll_concat, Command.firsts_append, ← ih]
      cases command with
      | claim record =>
          have known := claim?_known commands kept
          simp only [apply, putClaim, claimIdOf?]
          by_cases owned : record.owner = owner
          · subst owned
            simp only [if_true, known, ih]
            split
            · exact ih
            · rw [setAt_same]
          · simp only [owned, if_false]
            split
            · rfl
            · exact setAt_other _ _ (Ne.symm owned)
      | _ => rfl

end Written

theorem mem_openDeposits (kept : b.WellKept) (id : ChainId) (batch : DepositBatch) :
    batch ∈ b.openDeposits id ↔
      b.deposit? id batch.epoch = some batch ∧ batch.status ≠ .done := by
  simp only [openDeposits, List.mem_filter, DepositBatch.isOpen, bne_iff_ne]
  exact and_congr_left fun _ => ⟨kept.deposit?_mem, fun found => (mem_deposits found).1⟩

theorem mem_openRedemptions (kept : b.WellKept) (id : ChainId) (batch : RedemptionBatch) :
    batch ∈ b.openRedemptions id ↔
      b.redemption? id batch.epoch = some batch ∧ batch.status ≠ .done := by
  simp only [openRedemptions, List.mem_filter, RedemptionBatch.isOpen, bne_iff_ne]
  exact and_congr_left fun _ => ⟨kept.redemption?_mem, fun found => (mem_redemptions found).1⟩

end Books

/-! ## Storage as maps -/

namespace Store

theorem Holds.reflects {store : Store} {commands : List Command}
    (holds : store.Holds (Books.empty.applyAll commands)) : store.Reflects commands := by
  have kept := Books.WellKept.empty.applyAll commands
  exact {
    chainIds := by rw [holds.chainIds, Books.chainIds_written]
    chain? := fun id => by rw [holds.chain?, Books.chain?_written]
    epoch? := fun kind => by rw [holds.epoch?, Books.epoch?_written]
    deposit? := fun id e => by
      rw [← Books.deposit?_written]
      exact (holds.deposits id).found e
    openDeposits := fun id => by
      refine ⟨_, holds.openDeposits id, (kept.depositsInOrder id).filter _, fun batch => ?_⟩
      rw [Books.mem_openDeposits kept, Books.deposit?_written]
    redemption? := fun id e => by
      rw [← Books.redemption?_written]
      exact (holds.redemptions id).found e
    openRedemptions := fun id => by
      refine ⟨_, holds.openRedemptions id, (kept.redemptionsInOrder id).filter _, fun batch => ?_⟩
      rw [Books.mem_openRedemptions kept, Books.redemption?_written]
    claim? := fun id => by rw [holds.claim?, Books.claim?_written]
    claimsOf := fun owners owner chain => by
      have read : (Books.empty.applyAll commands).claim? = fun id => last? (claimAt? id) commands :=
        funext fun id => Books.claim?_written commands id
      rw [holds.claimsOf, Books.claimsOf, Books.claimIds_written commands owners, read] }

theorem apply_effect (store : Store) {command : Command} {effect : Effect}
    (asks : command.effect? = some effect) : store.apply command = some (store, some effect) := by
  cases command <;> simp_all [Command.effect?, apply]

/-- Storage refines finite maps: whatever commands are applied to an empty store,
whatever texts they hold, it takes them, hands back what they ask for, and answers
every read as the maps do, so that every operation sees the books. -/
theorem applyAll_refines {commands : List Command} (fits : ∀ command ∈ commands, command.Fits) :
    ∃ store, empty.applyAll commands = some (store, commands.filterMap Command.effect?) ∧
      store.Reflects commands ∧ store.view = (Books.empty.applyAll commands).view ∧
      ∀ command effect, command.effect? = some effect →
        store.apply command = some (store, some effect) := by
  obtain ⟨store, applied, holds, -⟩ := holds_empty.applyAll fits
  exact ⟨store, applied, holds.reflects, holds.view, fun _ _ => store.apply_effect⟩

def sampleCommands : List Command :=
  [.deposit { DepositBatch.empty "\":" 3 with status := .failed },
    .deposit { DepositBatch.empty "\":" 1 with amount := 7 },
    .claim ⟨"1:", "\":", 1, "alice", 5, "uatom", .pending⟩,
    .token (.burn "statom" 5),
    .deposit { DepositBatch.empty "\":" 2 with status := .done },
    .claim ⟨"1", "\":", 1, "bob", 6, "uatom", .pending⟩,
    .claim ⟨"1:", "\":", 1, "alice", 5, "uatom", .claimable⟩,
    .epoch .delegation 4]

theorem applyAll_refines_sample :
    (∀ command ∈ sampleCommands, command.Fits) ∧
      ∃ store, empty.applyAll sampleCommands = some (store, [.token (.burn "statom" 5)]) ∧
        store.openDeposits "\":" = some
          [{ DepositBatch.empty "\":" 1 with amount := 7 },
            { DepositBatch.empty "\":" 3 with status := .failed }] ∧
        store.claimsOf "alice" none = some [⟨"1:", "\":", 1, "alice", 5, "uatom", .claimable⟩] := by
  have fits : ∀ command ∈ sampleCommands, command.Fits := by
    simp only [sampleCommands, List.forall_mem_cons, Command.Fits]
    exact ⟨⟨by decide, by decide, by decide⟩, ⟨by decide, by decide, by decide⟩,
      ⟨by decide, by decide⟩, trivial, ⟨by decide, by decide, by decide⟩,
      ⟨by decide, by decide⟩, ⟨by decide, by decide⟩, by decide, nofun⟩
  obtain ⟨store, applied, reflects, view, -⟩ := applyAll_refines fits
  have owners : Command.OwnersKept sampleCommands := by
    intro record other written written'
    simp only [sampleCommands, List.mem_cons, reduceCtorEq, Command.claim.injEq, false_or,
      or_false, List.not_mem_nil] at written written'
    rcases written with rfl | rfl | rfl <;> rcases written' with rfl | rfl | rfl <;> decide
  have opened : store.openDeposits "\":" = _ := congrArg (fun v : View => v.openDeposits "\":") view
  exact ⟨fits, store, applied, opened, reflects.claimsOf owners "alice" none⟩

end Store

end LiquidStaking
