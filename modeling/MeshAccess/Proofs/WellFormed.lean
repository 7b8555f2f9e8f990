import Mathlib.Data.List.Nodup
import MeshAccess.Proofs.Entries

/-!
# Compiled documents are well formed

A destination node relies on the shape of the rules that it is given: each lists source addresses,
none of them twice, grants some login, and either starts a session or holds it. `compile_wellFormed`
says that this is so for every policy, whether or not it would be accepted when loaded.

It goes block by block. `entriesOf` gives the block of one rule of the policy, `Entry.WellFormed`
is what is true of each entry in it, and `Paired` how the entries of a block are related: there are
at most two, and the sources under the own scope are among those of all users
(`sources_own_subset`).
-/

namespace MeshAccess

namespace Compiler

variable {c : Compiler} {srcs : List OwnedNode} {dst : OwnedNode}

/-! ## Actions -/

/-- A session either starts at once, with both kinds of forwarding, or is held without any. -/
structure OneOutcome (a : Wire.Action) : Prop where
  outcome : a.accept = !a.holdAndDelegate.isSome
  agentForwarding : a.agentForwarding = a.accept
  localPortForwarding : a.localPortForwarding = a.accept

/-- What an action has to be like for the rule of the policy that it is drawn up for: users are told
of a recording where there are recorders, and of failed recording where recording is enforced. -/
structure ProperAction (r : Rule) (a : Wire.Action) : Prop extends OneOutcome a where
  message : a.message.isSome = true ↔ r.recorder ≠ []
  onRecordingFailure :
    a.onRecordingFailure.isSome = true ↔ r.recorder ≠ [] ∧ r.enforceRecorder = true

theorem oneOutcome_baseAction (s : Settings) (r : Rule) : OneOutcome (baseAction s r) := by
  rw [baseAction]
  cases r.action with
  | check => exact ⟨rfl, rfl, rfl⟩
  | accept | unknown => exact ⟨rfl, rfl, rfl⟩

theorem message_baseAction (s : Settings) (r : Rule) : (baseAction s r).message = none := by
  rw [baseAction]
  cases r.action <;> rfl

theorem onRecordingFailure_baseAction (s : Settings) (r : Rule) :
    (baseAction s r).onRecordingFailure = none := by
  rw [baseAction]
  cases r.action <;> rfl

theorem properAction_action (s : Settings) (r : Rule) (srcs : List OwnedNode) (dst : OwnedNode) :
    ProperAction r (action s r srcs dst) := by
  have hbase := oneOutcome_baseAction s r
  rw [action]
  by_cases hr : r.recorder = []
  · rw [if_pos hr]
    refine ⟨hbase, ?_, ?_⟩
    · rw [message_baseAction]
      exact ⟨fun h => absurd h Bool.false_ne_true, fun h => absurd hr h⟩
    · rw [onRecordingFailure_baseAction]
      exact ⟨fun h => absurd h Bool.false_ne_true, fun h => absurd hr h.1⟩
  · -- recorders add to the action and leave alone what happens to the session
    rw [if_neg hr]
    refine ⟨⟨hbase.outcome, hbase.agentForwarding, hbase.localPortForwarding⟩, ?_, ?_⟩
    · exact ⟨fun _ => hr, fun _ => rfl⟩
    · cases r.enforceRecorder with
      | true => exact ⟨fun _ => ⟨hr, rfl⟩, fun _ => rfl⟩
      | false =>
          exact ⟨fun h => absurd h Bool.false_ne_true, fun h => absurd h.2 Bool.false_ne_true⟩

/-! ## Entries -/

/-- What every entry of a document is like. -/
structure Entry.WellFormed (e : Entry) : Prop where
  principals_ne_nil : e.rule.principals ≠ []
  nodup_principals : e.rule.principals.Nodup
  grants : e.rule.sshUsers.isEmpty = false
  action : ProperAction e.origin e.rule.action

theorem principal_injective : Function.Injective Wire.Principal.mk :=
  fun _ _ h => congrArg Wire.Principal.address h

/-- What is emitted is well formed: what is not is left out of the document. -/
theorem Emitted.wellFormed {e : Entry} {user : Option User} (h : Emitted c srcs dst e user) :
    e.WellFormed where
  principals_ne_nil := by
    rw [h.principals]
    exact fun hnil => h.addresses (List.map_eq_nil_iff.mp hnil)
  nodup_principals := by
    rw [h.principals]
    exact (nodup_sources ..).map principal_injective
  grants := by
    rw [h.sshUsers]
    exact Bool.eq_false_iff.mpr fun he => h.users (Logins.isEmpty_ofTokens.mp he)
  action := by
    rw [h.action]
    exact properAction_action ..

/-! ## The two entries of a rule -/

/-- What a token brings in from the nodes of one user, it brings in from the nodes of all. -/
theorem sources_own_subset {p : Policy} {r : Rule} {v : User} :
    sources p r srcs (some v) ⊆ sources p r srcs none := by
  intro a ha
  obtain ⟨n, hn, ha, t, ht, he, hm⟩ := mem_sources.mp ha
  rw [Alias.matchesSource_own_eq, Bool.and_eq_true] at hm
  exact mem_sources.mpr ⟨n, hn, ha, t, ht, he, hm.2⟩

/-- How the entries of one rule are related: at most one under each scope, and where there are both,
they stand next to each other with the same logins and action, and the nodes let in under the own
scope are let in under the other as well. -/
inductive Paired : List Entry → Prop where
  | nothing : Paired []
  | single (e : Entry) : Paired [e]
  | both {own any : Entry} (hown : own.scope = .own) (hany : any.scope = .any)
      (hlogins : own.rule.sshUsers = any.rule.sshUsers)
      (haction : own.rule.action = any.rule.action)
      (hprincipals : own.rule.principals ⊆ any.rule.principals) : Paired [own, any]

/-- Under one scope, a rule yields at most one rule. -/
theorem scopedRule_eq_nil_or (c : Compiler) (srcs : List OwnedNode) (dst : OwnedNode) (r : Rule)
    (s : Scope) :
    scopedRule c srcs dst r s = [] ∨ ∃ w, scopedRule c srcs dst r s = [w] := by
  cases hu : s.user? dst with
  | none => exact Or.inl (scopedRule_of_none hu)
  | some user =>
      rw [scopedRule_of_some hu, grant]
      repeat' split
      all_goals simp

theorem Emitted.paired {r : Rule} {w w' : Wire.Rule} {user user' : Option User}
    (hown : Emitted c srcs dst ⟨r, .own, w⟩ user) (hany : Emitted c srcs dst ⟨r, .any, w'⟩ user') :
    Paired [⟨r, .own, w⟩, ⟨r, .any, w'⟩] := by
  obtain ⟨v, -, rfl⟩ := Option.map_eq_some_iff.mp hown.scope
  obtain rfl : none = user' := Option.some.inj hany.scope
  refine .both rfl rfl (hown.sshUsers.trans hany.sshUsers.symm)
    (hown.action.trans hany.action.symm) ?_
  rw [hown.principals, hany.principals]
  exact List.map_subset _ sources_own_subset

theorem paired_entriesOf {r : Rule} (hr : r ∈ c.policy.rules) :
    Paired (entriesOf c srcs dst r) := by
  by_cases ha : r.action.isSupported = true
  · rw [entriesOf_eq ha]
    have hanyCases := scopedRule_eq_nil_or c srcs dst r .any
    rcases scopedRule_eq_nil_or c srcs dst r .own with hown | ⟨w, hown⟩
    · rcases hanyCases with hany | ⟨w', hany⟩
      · rw [hown, hany]
        exact .nothing
      · rw [hown, hany]
        exact .single _
    · rcases hanyCases with hany | ⟨w', hany⟩
      · rw [hown, hany]
        exact .single _
      · have hw : w ∈ scopedRule c srcs dst r .own := hown ▸ List.mem_singleton_self w
        have hw' : w' ∈ scopedRule c srcs dst r .any := hany ▸ List.mem_singleton_self w'
        obtain ⟨user, hemit⟩ := mem_scopedRule hw hr ha
        obtain ⟨user', hemit'⟩ := mem_scopedRule hw' hr ha
        rw [hown, hany]
        exact hemit.paired hemit'
  · rw [entriesOf, if_neg ha]
    exact .nothing

theorem wellFormed_of_mem_entriesOf {r : Rule} (hr : r ∈ c.policy.rules) {e : Entry}
    (he : e ∈ entriesOf c srcs dst r) : e.WellFormed := by
  have hmem : e ∈ c.entries srcs dst := List.mem_flatMap.mpr ⟨r, hr, he⟩
  obtain ⟨user, hemit⟩ := emitted_of_mem hmem
  exact hemit.wellFormed

/-- **Every document is well formed.** It is made of the entries of the rules of the policy, one
rule after the other. Those of one rule are paired, and every one of them is well formed. -/
theorem compile_wellFormed (c : Compiler) (srcs : List OwnedNode) (dst : OwnedNode) :
    (c.compile srcs dst).rules
        = c.policy.rules.flatMap (fun r => (entriesOf c srcs dst r).map Entry.rule) ∧
      ∀ r ∈ c.policy.rules, Paired (entriesOf c srcs dst r) ∧
        ∀ e ∈ entriesOf c srcs dst r, e.origin = r ∧ e.WellFormed := by
  refine ⟨?_, ?_⟩
  · rw [← map_rule_entries, entries, List.map_flatMap]
  · intro r hr
    refine ⟨paired_entriesOf hr, ?_⟩
    intro e he
    exact ⟨origin_of_mem_entriesOf he, wellFormed_of_mem_entriesOf hr he⟩

end Compiler

end MeshAccess
