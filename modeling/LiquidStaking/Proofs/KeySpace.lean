import LiquidStaking.Proofs.Attribution
import LiquidStaking.Proofs.Registry

/-!
# One key space

All that is stored shares one key space, and no two entries of it have the same key, whatever
the names of chains, owners and ports are.  Only a channel has to keep colons out of its name,
because the port after it may hold any.
-/

namespace LiquidStaking.Key

variable {key other : Key}

def Plain : Key → Prop
  | .registered channel _ _ => ':' ∉ channel.toList
  | _ => True

theorem eq_of_setting (setting : key.isSetting = true) (same : key.family = other.family) :
    key = other := by
  cases key <;> first
    | exact Bool.noConfusion setting
    | cases other <;> simp [family] at same
      rfl

theorem render_injective_of_plain (plain : key.Plain) (plain' : other.Plain)
    (same : key.render = other.render) : key = other := by
  have family := family_eq same
  rcases key.sorted with books | registry | setting
  · exact render_injective books same
  · cases key with
    | nextReplyId =>
        cases other <;> simp [Key.family] at family
        rfl
    | stashed replyId =>
        cases other <;> simp [Key.family] at family
        exact congrArg _ (stashed_injective same)
    | registered channel port sequence =>
        cases other <;> simp [Key.family] at family
        obtain ⟨rfl, rfl, rfl⟩ := registered_injective plain plain' same
        rfl
    | _ => exact Bool.noConfusion registry
  · exact eq_of_setting setting family

/-- Different entries have different keys, and claims of different chains, epochs or owners
have different ids, as long as no channel holds a colon and no owner a slash. -/
theorem keys_never_collide :
    (∀ key other : Key, key.Plain → other.Plain → key ≠ other → key.render ≠ other.render) ∧
    ∀ (chain chain' : ChainId) (epoch epoch' : Epoch) (owner owner' : Address),
      '/' ∉ owner.toList → '/' ∉ owner'.toList →
      claimId chain epoch owner = claimId chain' epoch' owner' →
      chain = chain' ∧ epoch = epoch' ∧ owner = owner' :=
  ⟨fun _ _ plain plain' differ same => differ (render_injective_of_plain plain plain' same),
    fun _ _ _ _ _ _ => claimId_injective⟩

/-- A chain called like the end of another key, a port that looks like a channel's and a
sequence, and a chain that looks like a batch. -/
theorem keys_never_collide_sample :
    (Key.Plain (.registered "channel-1" "7:8" 9) ∧ Key.Plain (.registered "channel-1" "7" 89) ∧
      '/' ∉ "alice".toList) ∧
      (Key.chain "_ids").render ≠ Key.chainIds.render ∧
      (Key.registered "channel-1" "7:8" 9).render ≠ (Key.registered "channel-1" "7" 89).render ∧
      claimId "osmo/1" 2 "alice" ≠ claimId "osmo" 12 "alice" := by
  have apart : Key.Plain (.registered "channel-1" "7:8" 9) := by
    unfold Plain
    decide
  have apart' : Key.Plain (.registered "channel-1" "7" 89) := by
    unfold Plain
    decide
  have plain : '/' ∉ "alice".toList := by decide
  exact ⟨⟨apart, apart', plain⟩,
    keys_never_collide.1 (.chain "_ids") .chainIds trivial trivial (by decide),
    keys_never_collide.1 _ _ apart apart' (by decide),
    fun same => absurd (keys_never_collide.2 _ _ _ _ _ _ plain plain same).1 (by decide)⟩

/-- A colon in the name of a channel could be taken from its port. -/
example : (Key.registered "channel-1:7" "8" 9).render =
    (Key.registered "channel-1" "7:8" 9).render := by
  cbv

end LiquidStaking.Key
