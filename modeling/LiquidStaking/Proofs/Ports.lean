import LiquidStaking.ControlPort
import LiquidStaking.Proofs.Keys

/-!
# Ports tell their accounts

A port is a fixed head, the hub, and the id of an account: its chain and its role, with a
point before each.  Neither the hub nor a role has a point in its name, so the first point
and the last one tell the three apart, whatever the chain is called.  A chain that is
accepted has no point either, and its ports have at most 128 bytes.
-/

namespace LiquidStaking.ControlPort

variable {start before after text rest : List Char} {hub hub' : Address}
  {chain chain' id : ChainId} {account account' role : ControlAccount} {port : String}

def ofAccount (hub : Address) (accountId : String) : String := portHead ++ hub ++ "." ++ accountId

/-! ## Cutting texts -/

theorem stripStart?_eq_some : stripStart? start text = some rest ↔ text = start ++ rest := by
  induction start generalizing text with
  | nil => simp [stripStart?]
  | cons c start ih =>
      cases text with
      | nil => simp [stripStart?]
      | cons d text =>
          by_cases same : c = d
          · simp [stripStart?, same, ih]
          · simp [stripStart?, same, Ne.symm same]

theorem splitFirst?_eq_some :
    splitFirst? text = some (before, after) ↔ '.' ∉ before ∧ text = before ++ '.' :: after := by
  constructor
  · intro split
    unfold splitFirst? at split
    split at split
    · cases split
    · rename_i c rest dropped
      cases split
      have stops := List.head?_dropWhile_not (· != '.') text
      rw [dropped] at stops
      obtain rfl : c = '.' := by simpa using stops
      refine ⟨fun inside => ?_, ?_⟩
      · simpa using List.all_eq_true.mp List.all_takeWhile _ inside
      · rw [← dropped, List.takeWhile_append_dropWhile]
  · rintro ⟨plain, rfl⟩
    have passes : ∀ c ∈ before, (c != '.') = true := by
      rintro c member
      exact bne_iff_ne.mpr fun point => plain (point ▸ member)
    rw [splitFirst?, List.dropWhile_append_of_pos passes, List.takeWhile_append_of_pos passes]
    simp

theorem splitLast?_eq_some :
    splitLast? text = some (before, after) ↔ '.' ∉ after ∧ text = before ++ '.' :: after := by
  have turned : text.reverse = after.reverse ++ '.' :: before.reverse ↔
      text = before ++ '.' :: after := by
    rw [← List.reverse_inj]
    simp
  rw [← turned, ← List.mem_reverse, ← splitFirst?_eq_some, splitLast?]
  constructor
  · intro split
    obtain ⟨⟨last, front⟩, cut, same⟩ := Option.map_eq_some_iff.mp split
    obtain ⟨rfl, rfl⟩ := Prod.mk.inj same
    simpa using cut
  · intro cut
    simp [cut]

theorem splitFirst?_of_plain (plain : '.' ∉ before) (after : List Char) :
    splitFirst? (before ++ '.' :: after) = some (before, after) :=
  splitFirst?_eq_some.mpr ⟨plain, rfl⟩

theorem splitLast?_of_plain (before : List Char) (plain : '.' ∉ after) :
    splitLast? (before ++ '.' :: after) = some (before, after) :=
  splitLast?_eq_some.mpr ⟨plain, rfl⟩

/-! ## Roles -/

theorem role_plain (account : ControlAccount) : '.' ∉ account.name.toList := by
  cases account <;> decide

theorem role_injective (same : account.name = account'.name) : account = account' := by
  cases account <;> cases account' <;> first | rfl | exact absurd same (by decide)

theorem ofName?_eq_some {name : String} :
    ControlAccount.ofName? name = some account ↔ account.name = name := by
  constructor
  · intro named
    unfold ControlAccount.ofName? at named
    split at named
    · cases named
      exact Eq.symm ‹_›
    · split at named
      · cases named
        exact Eq.symm ‹_›
      · cases named
  · rintro rfl
    cases account <;> decide

/-! ## Ports -/

theorem toList_portId (hub : Address) (chain : ChainId) (account : ControlAccount) :
    (portId hub chain account).toList =
      portHead.toList ++ ((hub.toList ++ '.' :: chain.toList) ++ '.' :: account.name.toList) := by
  simp [portId, accountId]

theorem portId_parts (same : portId hub chain account = portId hub' chain' account') :
    hub.toList ++ '.' :: chain.toList = hub'.toList ++ '.' :: chain'.toList ∧
      account = account' := by
  have texts := congrArg String.toList same
  rw [toList_portId, toList_portId] at texts
  obtain ⟨fronts, names⟩ := Key.split_at_last (role_plain account) (role_plain account')
    (List.append_cancel_left texts)
  exact ⟨fronts, role_injective (String.toList_injective names)⟩

theorem portId_injective (same : portId hub chain account = portId hub chain' account') :
    chain = chain' ∧ account = account' := by
  obtain ⟨fronts, roles⟩ := portId_parts same
  exact ⟨String.toList_injective (List.cons.inj (List.append_cancel_left fronts)).2, roles⟩

theorem portId_cancel (plain : '.' ∉ hub.toList) (plain' : '.' ∉ hub'.toList)
    (same : portId hub chain account = portId hub' chain' account') :
    hub = hub' ∧ chain = chain' ∧ account = account' := by
  obtain ⟨fronts, roles⟩ := portId_parts same
  obtain ⟨hubs, chains⟩ := Key.split_at_first plain plain' fronts
  exact ⟨String.toList_injective hubs, String.toList_injective chains, roles⟩

/-- A port is read by its first point and its last one. -/
theorem parse?_eq_some :
    parse? port = some (chain, account) ↔
      chain ≠ "" ∧ ∃ hub : Address, '.' ∉ hub.toList ∧ port = portId hub chain account := by
  constructor
  · intro parsed
    simp only [parse?, Option.bind_eq_bind, Option.bind_eq_some_iff] at parsed
    obtain ⟨text, head, ⟨hub, id⟩, first, ⟨name, role⟩, last, found, named, parsed⟩ := parsed
    obtain ⟨plain, rfl⟩ := splitFirst?_eq_some.mp first
    obtain ⟨-, joined⟩ := splitLast?_eq_some.mp last
    split at parsed
    · cases parsed
    rename_i present
    cases parsed
    refine ⟨fun empty => present (String.ofList_eq_empty_iff.mp empty), String.ofList hub,
      by simpa using plain, String.toList_injective ?_⟩
    rw [toList_portId, stripStart?_eq_some.mp head, ofName?_eq_some.mp named]
    simp only at joined
    simp [joined]
  · rintro ⟨present, hub, plain, rfl⟩
    have head : stripStart? portHead.toList (portId hub chain account).toList =
        some (hub.toList ++ '.' :: (chain.toList ++ '.' :: account.name.toList)) := by
      rw [stripStart?_eq_some, toList_portId]
      simp
    have first := splitFirst?_of_plain plain (chain.toList ++ '.' :: account.name.toList)
    have last := splitLast?_of_plain chain.toList (role_plain account)
    have named : ControlAccount.ofName? account.name = some account := ofName?_eq_some.mpr rfl
    simp [parse?, head, first, last, named, present]

theorem parse?_portId (parsed : parse? (portId hub chain account) = some (id, role))
    (plain : '.' ∉ chain.toList) (plain' : '.' ∉ id.toList) : id = chain ∧ role = account := by
  obtain ⟨-, owner, -, same⟩ := parse?_eq_some.mp parsed
  obtain ⟨fronts, roles⟩ := portId_parts same
  obtain ⟨-, chains⟩ := Key.split_at_last plain plain' fronts
  exact ⟨String.toList_injective chains.symm, roles.symm⟩

/-! ## Lengths -/

theorem mem_all (account : ControlAccount) : account ∈ ControlAccount.all := by
  cases account <;> decide

theorem chainIdError?_eq_none :
    chainIdError? chain = none ↔
      '.' ∉ chain.toList ∧ ∀ account, Bytes.textLength (accountId chain account) ≤ 47 := by
  unfold chainIdError?
  split
  · simp_all
  · rename_i plain
    simp only [Option.map_eq_none_iff, List.find?_eq_none, List.forall_mem_map,
      decide_eq_true_eq, Nat.not_lt, plain, not_false_eq_true, true_and]
    exact ⟨fun short account => short account (mem_all account),
      fun short account _ => short account⟩

theorem textLength_portId (hub : Address) (chain : ChainId) (account : ControlAccount) :
    Bytes.textLength (portId hub chain account) =
      15 + Bytes.textLength hub + Bytes.textLength (accountId chain account) := by
  have head : portHead.utf8ByteSize = 14 := by decide
  have point : ".".utf8ByteSize = 1 := by decide
  simp only [Bytes.textLength, portId, String.utf8ByteSize_append, head, point]
  omega

/-! ## What ports tell -/

/-- A port whose hub has no point tells its account, and two of them are the same only if
all that is in them is; nothing else is read as a port.  A chain is accepted exactly if it
has no point and both ids of its accounts have at most 47 bytes, and then the ports of a hub
of at most 66 bytes have at most 128. -/
theorem ports_told_apart :
    (∀ (hub : Address) (chain : ChainId) (account : ControlAccount), '.' ∉ hub.toList →
      chain ≠ "" → parse? (portId hub chain account) = some (chain, account)) ∧
    (∀ (hub hub' : Address) (chain chain' : ChainId) (account account' : ControlAccount),
      '.' ∉ hub.toList → '.' ∉ hub'.toList →
      portId hub chain account = portId hub' chain' account' →
      hub = hub' ∧ chain = chain' ∧ account = account') ∧
    (∀ (port : String) (chain : ChainId) (account : ControlAccount),
      parse? port = some (chain, account) ↔
        chain ≠ "" ∧ ∃ hub : Address, '.' ∉ hub.toList ∧ port = portId hub chain account) ∧
    (∀ port : String, parse? port = none ↔
      ∀ (hub : Address) (chain : ChainId) (account : ControlAccount), '.' ∉ hub.toList →
        chain ≠ "" → port ≠ portId hub chain account) ∧
    (∀ chain : ChainId, chainIdError? chain = none ↔
      '.' ∉ chain.toList ∧ ∀ account, Bytes.textLength (accountId chain account) ≤ 47) ∧
    ∀ (hub : Address) (chain : ChainId), chainIdError? chain = none →
      Bytes.textLength hub ≤ 66 → ∀ account, Bytes.textLength (portId hub chain account) ≤ 128 := by
  have unread (port : String) : parse? port = none ↔
      ∀ (hub : Address) (chain : ChainId) (account : ControlAccount), '.' ∉ hub.toList →
        chain ≠ "" → port ≠ portId hub chain account := by
    rw [Option.eq_none_iff_forall_ne_some]
    constructor
    · intro unread hub chain account plain present same
      exact unread (chain, account) (parse?_eq_some.mpr ⟨present, hub, plain, same⟩)
    · rintro foreign ⟨chain, account⟩ parsed
      obtain ⟨present, hub, plain, same⟩ := parse?_eq_some.mp parsed
      exact foreign hub chain account plain present same
  have short (hub : Address) (chain : ChainId) (accepted : chainIdError? chain = none)
      (fits : Bytes.textLength hub ≤ 66) (account : ControlAccount) :
      Bytes.textLength (portId hub chain account) ≤ 128 := by
    have ids := (chainIdError?_eq_none.mp accepted).2 account
    rw [textLength_portId]
    omega
  exact ⟨fun hub chain account plain present =>
      parse?_eq_some.mpr ⟨present, hub, plain, rfl⟩,
    fun _ _ _ _ _ _ => portId_cancel, fun _ _ _ => parse?_eq_some, unread,
    fun _ => chainIdError?_eq_none, short⟩

/-- A chain with points in its name is told from its port all the same, and the longest ids
and the longest hub, of two bytes a character, fill the 128 bytes. -/
theorem ports_told_apart_extreme :
    ('.' ∉ "hub".toList ∧ "a.b." ≠ "") ∧
      parse? "icacontroller-hub.a.b..unbond" = some ("a.b.", .unbond) ∧
      chainIdError? "ééééééééééééééééééé" = none ∧
      Bytes.textLength "ééééééééééééééééééééééééééééééééé" ≤ 66 ∧
      Bytes.textLength (portId "ééééééééééééééééééééééééééééééééé" "ééééééééééééééééééé" .delegate)
        ≤ 128 := by
  have plain : '.' ∉ "hub".toList := by decide
  have present : "a.b." ≠ "" := by decide
  have accepted : chainIdError? "ééééééééééééééééééé" = none := by decide
  have fits : Bytes.textLength "ééééééééééééééééééééééééééééééééé" ≤ 66 := by decide
  obtain ⟨parsed, -, -, -, -, short⟩ := ports_told_apart
  exact ⟨⟨plain, present⟩, parsed "hub" "a.b." .unbond plain present, accepted, fits,
    short _ _ accepted fits .delegate⟩

end LiquidStaking.ControlPort
