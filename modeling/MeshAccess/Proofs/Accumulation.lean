import MeshAccess.Proofs.Entries

/-!
# Grants accumulate

The rules of a policy are compiled one after the other, and nothing of one rule reaches the next:
what a rule yields depends on the groups and the settings, not on the rules around it
(`compileRule_withRules`). So the document of two lists of rules, one behind the other, is the two
documents one behind the other, and a rule may stand anywhere without taking a grant away.

`Idle` lists the reasons why a rule adds nothing. `compileRule_eq_nil_iff` says that there are no
others: a rule that is not idle adds to the document wherever it stands.
-/

namespace MeshAccess

namespace Compiler

variable {c : Compiler} {srcs : List OwnedNode} {dst : OwnedNode} {r : Rule}

/-- The compiler with the same groups and settings and the given rules. -/
def withRules (c : Compiler) (rules : List Rule) : Compiler :=
  c.update { c.policy with rules := rules }

/-! ## Rules on their own -/

/-- The source addresses of a rule depend on the groups of the policy alone. -/
theorem sources_eq_of_groups {p q : Policy} (h : p.groups = q.groups) (r : Rule)
    (srcs : List OwnedNode) (user : Option User) :
    sources p r srcs user = sources q r srcs user := by
  refine sources_congr rfl ?_
  intro t _
  simp only [expandSource, Alias.matchesSource_eq_of_groups h]

/-- What a rule yields does not depend on the rules around it. -/
theorem compileRule_withRules (rules : List Rule) (r : Rule) :
    compileRule (c.withRules rules) r srcs dst = compileRule c r srcs dst := by
  have hg : (c.withRules rules).policy.groups = c.policy.groups := rfl
  exact compileRule_congr rfl rfl rfl fun user => sources_eq_of_groups hg r srcs user

/-- The document of a list of rules is what they yield one by one. -/
theorem rules_compile_withRules (rules : List Rule) :
    ((c.withRules rules).compile srcs dst).rules
      = rules.flatMap fun r => compileRule c r srcs dst := by
  show (rules.flatMap fun r => compileRule (c.withRules rules) r srcs dst) = _
  simp only [compileRule_withRules]

/-! ## Rules that add nothing -/

/-- Some node that has an address is a source of the rule, among the nodes of one user or of all. -/
def HasSource (p : Policy) (r : Rule) (srcs : List OwnedNode) (user : Option User) : Prop :=
  ∃ n ∈ srcs, n.addresses ≠ [] ∧ ∃ t ∈ r.src,
    (Alias.classify t).isSourceFor r.action = true ∧
      (Alias.classify t).matchesSource p n user = true

/-- Why a rule adds nothing to the document of a destination. -/
inductive Idle (p : Policy) (srcs : List OwnedNode) (dst : OwnedNode) (r : Rule) : Prop where
  /-- Its action is not supported. -/
  | unsupported (h : r.action.isSupported = false)
  /-- It grants no login. -/
  | noLogin (h : (Logins.ofTokens r.users).isEmpty = true)
  /-- It does not apply to the destination, neither as its owner's node nor by a tag. -/
  | elsewhere (h : ∀ s : Scope, s.isReached (Destination.evaluate dst r.dst) = false)
  /-- It has no source under a scope in which it does apply. -/
  | noSource (h : ∀ (s : Scope) (user : Option User), s.user? dst = some user →
      s.isReached (Destination.evaluate dst r.dst) = true → ¬HasSource p r srcs user)

theorem sources_eq_nil_iff {p : Policy} {user : Option User} :
    sources p r srcs user = [] ↔ ¬HasSource p r srcs user := by
  rw [List.eq_nil_iff_forall_not_mem]
  simp only [mem_sources]
  constructor
  · rintro h ⟨n, hn, hne, t, ht, he, hm⟩
    obtain ⟨a, ha⟩ := List.exists_mem_of_ne_nil _ hne
    exact h a ⟨n, hn, ha, t, ht, he, hm⟩
  · rintro h a ⟨n, hn, ha, t, ht, he, hm⟩
    exact h ⟨n, hn, List.ne_nil_of_mem ha, t, ht, he, hm⟩

theorem grant_eq_nil_iff {addresses : List String} {logins : SortedMap String}
    {action : Wire.Action} : grant addresses logins action = [] ↔ addresses = [] := by
  rw [grant]
  by_cases h : addresses = []
  · rw [if_pos h]
    exact ⟨fun _ => h, fun _ => rfl⟩
  · rw [if_neg h]
    exact ⟨fun hcons => absurd hcons (List.cons_ne_nil _ _), fun hnil => absurd hnil h⟩

/-- Under one scope a rule yields nothing exactly when one of the conditions of a grant fails. -/
theorem scopedRule_eq_nil_iff {s : Scope} :
    scopedRule c srcs dst r s = [] ↔
      ∀ user, s.user? dst = some user → s.isReached (Destination.evaluate dst r.dst) = true →
        r.users ≠ [] → ¬HasSource c.policy r srcs user := by
  cases hs : s.user? dst with
  | none =>
      rw [scopedRule_of_none hs]
      exact ⟨fun _ user h => absurd h (by simp), fun _ => rfl⟩
  | some user =>
      rw [scopedRule_of_some hs]
      constructor
      · intro h user' huser hd hu
        rw [if_pos ⟨hd, hu⟩, grant_eq_nil_iff, sources_eq_nil_iff, Option.some.inj huser] at h
        exact h
      · intro h
        by_cases hd : s.isReached (Destination.evaluate dst r.dst) = true ∧ r.users ≠ []
        · rw [if_pos hd, grant_eq_nil_iff, sources_eq_nil_iff]
          exact h user rfl hd.1 hd.2
        · exact if_neg hd

/-- A rule yields nothing exactly when it is idle. -/
theorem compileRule_eq_nil_iff :
    compileRule c r srcs dst = [] ↔ Idle c.policy srcs dst r := by
  by_cases ha : r.action.isSupported = true
  · rw [compileRule_eq ha, List.append_eq_nil_iff, scopedRule_eq_nil_iff, scopedRule_eq_nil_iff]
    constructor
    · rintro ⟨hown, hany⟩
      by_cases hu : r.users = []
      · exact .noLogin (Logins.isEmpty_ofTokens.mpr hu)
      · refine .noSource ?_
        intro s user hs hd
        cases s with
        | own => exact hown user hs hd hu
        | any => exact hany user hs hd hu
    · intro hidle
      -- whatever the reason, it holds under both scopes
      have hscope : ∀ (s : Scope) user, s.user? dst = some user →
          s.isReached (Destination.evaluate dst r.dst) = true → r.users ≠ [] →
            ¬HasSource c.policy r srcs user := by
        intro s user hs hd hu
        cases hidle with
        | unsupported h => exact absurd (h.symm.trans ha) Bool.false_ne_true
        | noLogin h => exact absurd (Logins.isEmpty_ofTokens.mp h) hu
        | elsewhere h => exact absurd ((h s).symm.trans hd) Bool.false_ne_true
        | noSource h => exact h s user hs hd
      exact ⟨hscope .own, hscope .any⟩
  · rw [compileRule, if_neg ha]
    exact ⟨fun _ => .unsupported (Bool.eq_false_iff.mpr ha), fun _ => rfl⟩

/-! ## Documents -/

/-- A rule in the middle of others leaves the document as it is exactly when it yields nothing. -/
theorem compile_insert_eq_iff (A B : List Rule) :
    (c.withRules (A ++ r :: B)).compile srcs dst = (c.withRules (A ++ B)).compile srcs dst ↔
      compileRule c r srcs dst = [] := by
  rw [Wire.Document.mk.injEq, rules_compile_withRules, rules_compile_withRules,
    List.flatMap_append, List.flatMap_append, List.flatMap_cons, List.append_right_inj,
    List.append_left_eq_self]

/-- **Grants accumulate rule by rule.** Rules that stand behind others add their grants behind those
of the others, which stay as they are. A rule put in anywhere leaves the document unchanged exactly
when it is idle. -/
theorem compile_accumulates (c : Compiler) (srcs : List OwnedNode) (dst : OwnedNode)
    (A B : List Rule) :
    ((c.withRules (A ++ B)).compile srcs dst).rules
        = ((c.withRules A).compile srcs dst).rules ++ ((c.withRules B).compile srcs dst).rules ∧
      ((c.withRules A).compile srcs dst).rules <+: ((c.withRules (A ++ B)).compile srcs dst).rules ∧
      ∀ r, (c.withRules (A ++ r :: B)).compile srcs dst = (c.withRules (A ++ B)).compile srcs dst ↔
        Idle c.policy srcs dst r := by
  have happend : ((c.withRules (A ++ B)).compile srcs dst).rules
      = ((c.withRules A).compile srcs dst).rules ++ ((c.withRules B).compile srcs dst).rules := by
    simp only [rules_compile_withRules, List.flatMap_append]
  refine ⟨happend, ⟨_, happend.symm⟩, ?_⟩
  intro r
  exact (compile_insert_eq_iff A B).trans compileRule_eq_nil_iff

end Compiler

end MeshAccess
