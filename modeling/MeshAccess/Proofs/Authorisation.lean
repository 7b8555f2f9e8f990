import Mathlib.Data.List.Forall2
import MeshAccess.Proofs.Entries

/-!
# Who may log in

The main statement, `compile_authorises`, says of every policy, loaded or not, which source
addresses each of its rules lets in on a destination, and that the document holds nothing else. It
is stated through relations that do not mention the compiler: `OwnAddress` and `AnyAddress` are the
sets of addresses that a rule grants under its two scopes, `Grants` says that a list of rules grants
such a set, and `Yields` puts the two grants of a rule together.

Both directions count. Soundness is that no address outside the sets is a principal, completeness
that none inside them is left out and that a rule is dropped only where its set is empty.
-/

namespace MeshAccess.Compiler

variable {c : Compiler} {srcs : List OwnedNode} {dst : OwnedNode}

/-! ## The addresses that a rule grants -/

/-- An address that a rule grants as one of the destination's owner: of an untagged node whose owner
has the login of the destination's owner, which is not empty and which some source token names. -/
def OwnAddress (p : Policy) (r : Rule) (srcs : List OwnedNode) (dst : OwnedNode) (a : String) :
    Prop :=
  ∃ n ∈ srcs, a ∈ n.addresses ∧ n.node.tags = [] ∧
    ∃ u v, n.owner = some u ∧ dst.owner = some v ∧ u.login = v.login ∧ v.login ≠ "" ∧
      ∃ t ∈ r.src, Names p v.login t

/-- An address that a rule grants as one of any user: of a node that some source token reaches. -/
def AnyAddress (p : Policy) (r : Rule) (srcs : List OwnedNode) (a : String) : Prop :=
  ∃ n ∈ srcs, a ∈ n.addresses ∧ ∃ t ∈ r.src, Reaches p r.action n t

/-- The addresses granted under the own scope are the sources among the nodes of the destination's
owner. -/
theorem ownAddress_iff {r : Rule} {a : String} :
    OwnAddress c.policy r srcs dst a ↔
      ∃ user, Scope.own.user? dst = some user ∧ a ∈ sources c.policy r srcs user := by
  constructor
  · rintro ⟨n, hn, ha, ht, u, v, hu, hv, hl, hne, t, htr, hnames⟩
    refine ⟨some v, congrArg (Option.map some) hv, mem_sources.mpr ⟨n, hn, ha, t, htr, ?_, ?_⟩⟩
    · -- a token that names a login is no tag, so a check does not keep it out
      cases he : (Alias.classify t).isSourceFor r.action with
      | true => rfl
      | false =>
          obtain ⟨⟨text, hc⟩, -⟩ := Alias.isSourceFor_eq_false_iff.mp he
          have hm : (Alias.classify t).matchesSource c.policy n (some v) = true :=
            Alias.matchesSource_own_iff.mpr ⟨ht, hne, ⟨u, hu, hl⟩, hnames⟩
          rw [hc] at hm
          exact absurd hm (by simp [Alias.matchesSource, Alias.matchesOwn])
    · exact Alias.matchesSource_own_iff.mpr ⟨ht, hne, ⟨u, hu, hl⟩, hnames⟩
  · rintro ⟨user, hs, ha⟩
    obtain ⟨v, hv, rfl⟩ := Option.map_eq_some_iff.mp hs
    obtain ⟨n, hn, ha, t, htr, -, hm⟩ := mem_sources.mp ha
    obtain ⟨ht, hne, ⟨u, hu, hl⟩, hnames⟩ := Alias.matchesSource_own_iff.mp hm
    exact ⟨n, hn, ha, ht, u, v, hu, hv, hl, hne, t, htr, hnames⟩

/-- The addresses granted under the other scope are the sources among all nodes. -/
theorem anyAddress_iff {r : Rule} {a : String} :
    AnyAddress c.policy r srcs a ↔
      ∃ user, Scope.any.user? dst = some user ∧ a ∈ sources c.policy r srcs user := by
  constructor
  · rintro ⟨n, hn, ha, t, ht, hr⟩
    obtain ⟨he, hm⟩ := Alias.eligible_any_iff.mpr hr
    exact ⟨none, rfl, mem_sources.mpr ⟨n, hn, ha, t, ht, he, hm⟩⟩
  · rintro ⟨user, hs, ha⟩
    obtain rfl : none = user := Option.some.inj hs
    obtain ⟨n, hn, ha, t, ht, he, hm⟩ := mem_sources.mp ha
    exact ⟨n, hn, ha, t, ht, Alias.eligible_any_iff.mp ⟨he, hm⟩⟩

/-! ## What a rule yields -/

/-- The list grants `logins` under `action` to exactly the addresses of a set: in one rule that
lists each of them once if the grant is due and the set is not empty, and not at all otherwise. -/
inductive Grants (due : Prop) (addresses : String → Prop) (logins : SortedMap String)
    (action : Wire.Action) : List Wire.Rule → Prop where
  | absent (h : ¬(due ∧ ∃ a, addresses a)) : Grants due addresses logins action []
  | present {listed : List String} (hdue : due) (hne : listed ≠ []) (hnodup : listed.Nodup)
      (hmem : ∀ a, a ∈ listed ↔ addresses a) :
      Grants due addresses logins action [⟨listed.map Wire.Principal.mk, logins, action⟩]

/-- What a rule of a policy adds to the document of `dst`: nothing if its action is unknown or it
lists no user, and otherwise the grant to the own nodes of the destination's owner before the one to
the nodes of all users. -/
inductive Yields (c : Compiler) (srcs : List OwnedNode) (dst : OwnedNode) (r : Rule) :
    List Wire.Rule → Prop where
  | nothing (h : r.action = .unknown ∨ r.users = []) : Yields c srcs dst r []
  | scopes {own any : List Wire.Rule} (ha : r.action ≠ .unknown) (hu : r.users ≠ [])
      (hown : Grants ((Destination.evaluate dst r.dst).owner = true)
        (OwnAddress c.policy r srcs dst) (Logins.ofTokens r.users)
        (action c.settings r srcs dst) own)
      (hany : Grants ((Destination.evaluate dst r.dst).tagged = true)
        (AnyAddress c.policy r srcs) (Logins.ofTokens r.users)
        (action c.settings r srcs dst) any) :
      Yields c srcs dst r (own ++ any)

/-- Under each scope a rule grants the sources of that scope. -/
theorem grants_scopedRule {r : Rule} {s : Scope} {addresses : String → Prop} (hu : r.users ≠ [])
    (h : ∀ a, addresses a ↔
      ∃ user, s.user? dst = some user ∧ a ∈ sources c.policy r srcs user) :
    Grants (s.isReached (Destination.evaluate dst r.dst) = true) addresses
      (Logins.ofTokens r.users) (action c.settings r srcs dst) (scopedRule c srcs dst r s) := by
  cases hs : s.user? dst with
  | none =>
      rw [scopedRule_of_none hs]
      refine .absent ?_
      rintro ⟨-, a, ha⟩
      obtain ⟨user, hs', -⟩ := (h a).mp ha
      rw [hs] at hs'
      exact nomatch hs'
  | some user =>
      have hmem : ∀ a, a ∈ sources c.policy r srcs user ↔ addresses a := by
        intro a
        rw [h a, hs]
        constructor
        · intro ha
          exact ⟨user, rfl, ha⟩
        · rintro ⟨user', he, ha⟩
          rw [Option.some.inj he]
          exact ha
      rw [scopedRule_of_some hs]
      by_cases hd : s.isReached (Destination.evaluate dst r.dst) = true ∧ r.users ≠ []
      · rw [if_pos hd, grant]
        -- a grant to no address at all is left out of the document
        by_cases he : sources c.policy r srcs user = []
        · rw [if_pos he]
          refine .absent ?_
          rintro ⟨-, a, ha⟩
          have hnil := (hmem a).mpr ha
          rw [he] at hnil
          exact absurd hnil List.not_mem_nil
        · rw [if_neg he]
          exact .present hd.1 he (nodup_sources ..) hmem
      · rw [if_neg hd]
        exact .absent fun hdue => hd ⟨hdue.1, hu⟩

/-- A rule that lists no user yields nothing under either scope. -/
theorem scopedRule_of_users_nil {r : Rule} (hu : r.users = []) (s : Scope) :
    scopedRule c srcs dst r s = [] := by
  cases hs : s.user? dst with
  | none => exact scopedRule_of_none hs
  | some user =>
      rw [scopedRule_of_some hs]
      exact if_neg fun hd => hd.2 hu

theorem yields_compileRule (r : Rule) : Yields c srcs dst r (compileRule c r srcs dst) := by
  cases ha : r.action with
  | unknown =>
      have hnil : compileRule c r srcs dst = [] := by
        rw [compileRule, ha]
        rfl
      rw [hnil]
      exact .nothing (Or.inl ha)
  | accept | check =>
      have hsup : r.action.isSupported = true := by
        rw [ha]
        rfl
      have hknown : r.action ≠ .unknown := by
        intro h
        rw [ha] at h
        cases h
      rw [compileRule_eq hsup]
      by_cases hu : r.users = []
      · rw [scopedRule_of_users_nil hu, scopedRule_of_users_nil hu]
        exact .nothing (Or.inr hu)
      · refine .scopes hknown hu ?_ ?_
        · exact grants_scopedRule hu fun _ => ownAddress_iff
        · exact grants_scopedRule hu fun _ => anyAddress_iff

/-- **Authorisation is sound and complete.** The rules of a document are those that the rules of the
policy yield one after the other, and each of these yields exactly the grants that are due. -/
theorem compile_authorises (c : Compiler) (srcs : List OwnedNode) (dst : OwnedNode) :
    ∃ outs, List.Forall₂ (Yields c srcs dst) c.policy.rules outs ∧
      (c.compile srcs dst).rules = outs.flatten := by
  refine ⟨c.policy.rules.map fun r => compileRule c r srcs dst, ?_, ?_⟩
  · rw [List.forall₂_map_right_iff, List.forall₂_same]
    intro r _
    exact yields_compileRule r
  · exact List.flatMap_def

end MeshAccess.Compiler
