import LiquidStaking.Proofs.Json.Strings
import LiquidStaking.Store.Key

/-!
# Keys tell entries apart

The books share one key space with everything else that is stored, and their
components may be any text.  Yet two keys of which one belongs to the books are
written alike only if they are the same key: no family opens another, except
that the chains' opens the plain key of their list, which does not end in a
colon; and the epoch that closes a batch's key holds no colon itself.
-/

namespace LiquidStaking.Key

def family : Key → String
  | .chainIds => "store::chain_ids"
  | .chain _ => "store::chain"
  | .epoch _ => "store::current_epoch"
  | .deposit .. => "store::proxy_delegation"
  | .openDeposits _ => "store::open_proxy_delegations"
  | .redemption .. => "store::proxy_unbonding"
  | .openRedemptions _ => "store::open_proxy_unbondings"
  | .claim _ => "store::user_unbonding"
  | .claimIds _ => "store::delegator_unbondings"
  | .nextReplyId => "callback::next_reply_id"
  | .stashed _ => "callback::stashed"
  | .registered .. => "callback::registered"
  | .creator => "access::creator"
  | .admin => "access::admin"
  | .pendingAdmin => "access::pending_admin"
  | .keeper => "access::epoch_keeper"
  | .delegationEpoch => "staking_hub::delegation_epoch"
  | .undelegationEpoch => "staking_hub::undelegation_epoch"
  | .accountTimeout => "staking_hub::ica_timeout_seconds"
  | .transferTimeout => "staking_hub::transfer_timeout_seconds"

def components : Key → List String
  | .chain id => [id]
  | .epoch kind => [kind.name]
  | .deposit id number => [id, Digits.ofNat number]
  | .openDeposits id => [id]
  | .redemption id number => [id, Digits.ofNat number]
  | .openRedemptions id => [id]
  | .claim id => [id]
  | .claimIds owner => [owner]
  | .stashed replyId => [Digits.ofNat replyId]
  | .registered channel port sequence => [channel, port, Digits.ofNat sequence]
  | _ => []

def isBooks : Key → Bool
  | .chainIds => true
  | .chain _ => true
  | .epoch _ => true
  | .deposit .. => true
  | .openDeposits _ => true
  | .redemption .. => true
  | .openRedemptions _ => true
  | .claim _ => true
  | .claimIds _ => true
  | _ => false

def closed (components : List String) : List Char :=
  components.flatMap fun component => component.toList ++ [':']

theorem compound_nil (family : String) : compound family [] = family := String.append_empty

theorem toList_compound (family : String) (components : List String) :
    (compound family components).toList = family.toList ++ closed components := by
  simp [compound, closed, List.flatMap_map]

theorem render_eq (key : Key) : key.render = compound key.family key.components := by
  cases key with
  | chainIds | nextReplyId | creator | admin | pendingAdmin | keeper | delegationEpoch
  | undelegationEpoch | accountTimeout | transferTimeout => exact (compound_nil _).symm
  | _ => rfl

theorem toList_render (key : Key) :
    key.render.toList = key.family.toList ++ closed key.components := by
  rw [render_eq, toList_compound]

theorem closed_last {components : List String} (some : components ≠ []) :
    (closed components).getLast? = .some ':' := by
  obtain ⟨front, last, rfl⟩ := (List.eq_nil_or_concat components).resolve_left some
  rw [closed, List.concat_eq_append, List.flatMap_append, List.flatMap_singleton,
    ← List.append_assoc, List.getLast?_concat]

theorem render_last {key : Key} (some : key.components ≠ []) :
    key.render.toList.getLast? = .some ':' := by
  rw [toList_render, List.getLast?_append, closed_last some]
  rfl

/-- The list of chains is stored apart from everything else: where its key opens
another, that one ends in a colon. -/
theorem render_chainIds {other : Key} (same : Key.chainIds.render = other.render) :
    other = .chainIds := by
  have noColon : (Key.chainIds.render).toList.getLast? ≠ some ':' := by decide
  have alone : other.components = [] := by
    refine Decidable.byContradiction fun some => noColon ?_
    rw [same, render_last some]
  rw [render_eq other, alone, compound_nil] at same
  cases other with
  | chainIds => rfl
  | nextReplyId | creator | admin | pendingAdmin | keeper | delegationEpoch
  | undelegationEpoch | accountTimeout | transferTimeout => exact absurd same (by decide)
  | _ => exact absurd alone (List.cons_ne_nil _ _)

/-! ## Families -/

def bookFamilies : List String :=
  ["store::chain", "store::current_epoch", "store::proxy_delegation",
    "store::open_proxy_delegations", "store::proxy_unbonding", "store::open_proxy_unbondings",
    "store::user_unbonding", "store::delegator_unbondings"]

def otherFamilies : List String :=
  ["callback::next_reply_id", "callback::stashed", "callback::registered", "access::creator",
    "access::admin", "access::pending_admin", "access::epoch_keeper",
    "staking_hub::delegation_epoch", "staking_hub::undelegation_epoch",
    "staking_hub::ica_timeout_seconds", "staking_hub::transfer_timeout_seconds"]

theorem family_mem {key : Key} (entry : key ≠ .chainIds) :
    key.family ∈ bookFamilies ++ otherFamilies := by
  cases key <;> first
    | exact absurd rfl entry
    | simp [family, bookFamilies, otherFamilies]

/-- Neither text opens the other. -/
abbrev Apart (first second : String) : Prop :=
  ¬first.toList <+: second.toList ∧ ¬second.toList <+: first.toList

theorem append_ne_of_apart {first second : String} (differ : Apart first second)
    (rest other : List Char) : first.toList ++ rest ≠ second.toList ++ other := by
  intro same
  rcases List.append_eq_append_iff.mp same with ⟨more, longer, -⟩ | ⟨more, longer, -⟩
  · exact differ.1 ⟨more, longer.symm⟩
  · exact differ.2 ⟨more, longer.symm⟩

theorem families_apart : ∀ first ∈ bookFamilies ++ otherFamilies,
    ∀ second ∈ bookFamilies ++ otherFamilies, first ≠ second → Apart first second := by
  decide

theorem family_eq {key other : Key} (same : key.render = other.render) :
    key.family = other.family := by
  by_cases list : key = .chainIds
  · subst list
    rw [render_chainIds same]
  by_cases list' : other = .chainIds
  · subst list'
    exact absurd (render_chainIds same.symm) list
  refine Decidable.byContradiction fun differ => ?_
  have texts := congrArg String.toList same
  rw [toList_render, toList_render] at texts
  exact append_ne_of_apart
    (families_apart _ (family_mem list) _ (family_mem list') differ) _ _ texts

/-! ## Components -/

theorem closed_single {first second : String} (same : closed [first] = closed [second]) :
    first = second := by
  have texts : first.toList ++ [':'] = second.toList ++ [':'] := by simpa [closed] using same
  exact String.toList_injective (List.append_cancel_right texts)

theorem split_at_last {mark : Char} {front front' last last' : List Char} (plain : mark ∉ last)
    (plain' : mark ∉ last') (same : front ++ mark :: last = front' ++ mark :: last') :
    front = front' ∧ last = last' := by
  have nothing {between last last' : List Char} (plain : mark ∉ last)
      (split : mark :: last = between ++ mark :: last') : between = [] ∧ last = last' := by
    cases between with
    | nil => exact ⟨rfl, (List.cons.inj split).2⟩
    | cons c between =>
        have tail := (List.cons.inj split).2
        exact absurd (by simp [tail]) plain
  rcases List.append_eq_append_iff.mp same with ⟨between, longer, split⟩ | ⟨between, longer, split⟩
  · obtain ⟨rfl, rfl⟩ := nothing plain split
    exact ⟨by simp [longer], rfl⟩
  · obtain ⟨rfl, rfl⟩ := nothing plain' split
    exact ⟨by simp [longer], rfl⟩

theorem split_at_first {mark : Char} {front front' last last' : List Char} (plain : mark ∉ front)
    (plain' : mark ∉ front') (same : front ++ mark :: last = front' ++ mark :: last') :
    front = front' ∧ last = last' := by
  have turned : last.reverse ++ mark :: front.reverse =
      last'.reverse ++ mark :: front'.reverse := by
    simpa using congrArg List.reverse same
  obtain ⟨lasts, fronts⟩ :=
    split_at_last (by simpa using plain) (by simpa using plain') turned
  exact ⟨List.reverse_inj.mp fronts, List.reverse_inj.mp lasts⟩

theorem notMem_render {mark : Char} (noDigit : Digits.isDigit mark = false) (n : Nat) :
    mark ∉ Digits.render n := fun member =>
  Bool.noConfusion (noDigit.symm.trans (Digits.isDigit_render n mark member))

theorem colon_notMem_render (n : Nat) : ':' ∉ Digits.render n := notMem_render (by decide) n

/-- A number holds no colon, so the last but one ends what stands before it. -/
theorem closed_numbered {first second : String} {m n : Nat}
    (same : closed [first, Digits.ofNat m] = closed [second, Digits.ofNat n]) :
    first = second ∧ m = n := by
  have apart (text : String) (n : Nat) :
      closed [text, Digits.ofNat n] = (text.toList ++ ':' :: Digits.render n) ++ [':'] := by
    simp [closed, Digits.ofNat]
  rw [apart, apart] at same
  obtain ⟨texts, numbers⟩ := split_at_last (colon_notMem_render m) (colon_notMem_render n)
    (List.append_cancel_right same)
  exact ⟨String.toList_injective texts, Digits.ofNat_injective (congrArg String.ofList numbers)⟩

theorem kind_injective {kind other : EpochKind} (same : kind.name = other.name) : kind = other := by
  cases kind <;> cases other <;> first | rfl | exact absurd same (by decide)

/-- Two keys of which one belongs to the books are written alike only if they are
the same. -/
theorem render_injective {key other : Key} (books : key.isBooks = true)
    (same : key.render = other.render) : key = other := by
  have family := family_eq same
  have texts := congrArg String.toList same
  rw [toList_render, toList_render, family] at texts
  have parts := List.append_cancel_left texts
  clear texts same
  cases key with
  | chainIds =>
      cases other <;> simp [Key.family] at family
      rfl
  | chain id =>
      cases other <;> simp [Key.family] at family
      exact congrArg _ (closed_single parts)
  | epoch kind =>
      cases other <;> simp [Key.family] at family
      exact congrArg _ (kind_injective (closed_single parts))
  | deposit id number =>
      cases other <;> simp [Key.family] at family
      obtain ⟨rfl, rfl⟩ := closed_numbered parts
      rfl
  | openDeposits id =>
      cases other <;> simp [Key.family] at family
      exact congrArg _ (closed_single parts)
  | redemption id number =>
      cases other <;> simp [Key.family] at family
      obtain ⟨rfl, rfl⟩ := closed_numbered parts
      rfl
  | openRedemptions id =>
      cases other <;> simp [Key.family] at family
      exact congrArg _ (closed_single parts)
  | claim id =>
      cases other <;> simp [Key.family] at family
      exact congrArg _ (closed_single parts)
  | claimIds owner =>
      cases other <;> simp [Key.family] at family
      exact congrArg _ (closed_single parts)
  | _ => exact Bool.noConfusion books

/-! ## Keys beside the books -/

theorem render_ne_of_books {key other : Key} (books : key.isBooks = true)
    (beside : other.isBooks = false) : other.render ≠ key.render := by
  intro same
  rw [← render_injective books same.symm, books] at beside
  exact Bool.noConfusion beside

theorem render_ne_of_apart {key other : Key} (differ : Apart key.family other.family) :
    key.render ≠ other.render := by
  intro same
  have texts := congrArg String.toList same
  rw [toList_render, toList_render] at texts
  exact append_ne_of_apart differ _ _ texts

end LiquidStaking.Key
