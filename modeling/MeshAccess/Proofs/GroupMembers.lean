import Mathlib.Data.List.Forall2
import MeshAccess.Proofs.Entries

/-!
# Groups are abbreviations

A rule may list a group or, in its place, the members of the group, as far as these are written as
users are. `compile_expandGroup` says that this makes no difference to any document but for the
order of principals: rule by rule, under the own scope and under the other, for rules with and
without checks.

The two ways of writing are not matched alike. Among the nodes of one user a group is asked for the
login of that user, otherwise for the login of the owner of the node, and a listed member is asked
for the owner each time. `Alias.matchesSource_group_iff` is where these come together: a node is
matched under the own scope only if its owner has the login of that user.
-/

namespace MeshAccess

/-! ## A group in place of its members -/

/-- The rule with the given members in every place where it lists the group. -/
def Rule.expandGroup (group : String) (members : List String) (r : Rule) : Rule :=
  { r with src := r.src.flatMap fun t => if t = group then members else [t] }

theorem Rule.mem_src_expandGroup {group : String} {members : List String} {r : Rule} {t : String} :
    t ∈ (r.expandGroup group members).src ↔
      t ∈ r.src ∧ t ≠ group ∨ group ∈ r.src ∧ t ∈ members := by
  show t ∈ r.src.flatMap (fun t => if t = group then members else [t]) ↔ _
  rw [List.mem_flatMap]
  constructor
  · rintro ⟨t', ht', h⟩
    by_cases hgroup : t' = group
    · rw [if_pos hgroup] at h
      exact Or.inr ⟨hgroup ▸ ht', h⟩
    · rw [if_neg hgroup] at h
      obtain rfl := List.mem_singleton.mp h
      exact Or.inl ⟨ht', hgroup⟩
  · rintro (⟨ht, hne⟩ | ⟨hgroup, ht⟩)
    · exact ⟨t, ht, by rw [if_neg hne]; exact List.mem_singleton_self t⟩
    · exact ⟨group, hgroup, by rw [if_pos rfl]; exact ht⟩

namespace Policy

/-- The members listed for a group; none for a group that is not defined. -/
def members (p : Policy) (group : String) : List String := (p.groups.get? group).getD []

/-- The policy in which the rules list the members of the group in place of the group. -/
def expandGroup (p : Policy) (group : String) : Policy :=
  { p with rules := p.rules.map (Rule.expandGroup group (p.members group)) }

/-- The group is named as groups are, and all its members are written as users are. -/
structure ListsUsers (p : Policy) (group : String) : Prop where
  named : Alias.isGroupName group = true
  users : ∀ m ∈ p.members group, ∃ login, Alias.classify m = .user login

theorem isMember_iff_mem_members {p : Policy} {group login : String} :
    p.isMember group login = true ↔ login ≠ "" ∧ login ∈ p.members group := by
  rw [isMember_iff, members]
  cases p.groups.get? group <;> simp

end Policy

/-! ## Matching a group and its members -/

/-- A node is of the user with one login at most. -/
theorem OwnedNode.eq_of_hasUser {n : OwnedNode} {login login' : String}
    (h : n.hasUser login = true) (h' : n.hasUser login' = true) : login = login' := by
  obtain ⟨-, u, ho, rfl⟩ := hasUser_iff.mp h
  obtain ⟨-, u', ho', rfl⟩ := hasUser_iff.mp h'
  rw [Option.some.inj (ho.symm.trans ho')]

namespace Alias

variable {p : Policy} {n : OwnedNode} {name : String}

/-- Among the nodes of all users, a group matches as its members do. -/
theorem matchesAny_group_iff :
    (group name).matchesAny p n = true ↔
      ∃ m ∈ p.members name, (user m).matchesAny p n = true := by
  show (!n.isTagged && n.owner.any fun u => p.isMember name u.login) = true ↔
    ∃ m ∈ p.members name, (!n.isTagged && n.hasUser m) = true
  simp only [Bool.and_eq_true, Option.any_eq_true, Policy.isMember_iff_mem_members,
    OwnedNode.hasUser_iff]
  constructor
  · rintro ⟨ht, u, ho, hne, hmem⟩
    exact ⟨u.login, hmem, ht, hne, u, ho, rfl⟩
  · rintro ⟨m, hmem, ht, hne, u, ho, rfl⟩
    exact ⟨ht, u, ho, hne, hmem⟩

/-- A group brings in the nodes that its members bring in, under either scope. -/
theorem matchesSource_group_iff {user : Option User} :
    (group name).matchesSource p n user = true ↔
      ∃ m ∈ p.members name, (Alias.user m).matchesSource p n user = true := by
  cases user with
  | none => exact matchesAny_group_iff
  | some u =>
      simp only [matchesSource_own_eq, Bool.and_eq_true]
      constructor
      · rintro ⟨hown, hm⟩
        obtain ⟨m, hmem, hm⟩ := matchesAny_group_iff.mp hm
        exact ⟨m, hmem, hown, hm⟩
      · rintro ⟨m, hmem, hown, hm⟩
        exact ⟨hown, matchesAny_group_iff.mpr ⟨m, hmem, hm⟩⟩

end Alias

/-! ## Sources -/

namespace Compiler

/-- The compiler of the policy in which the rules list the members of the group in its place. -/
def expandGroup (c : Compiler) (group : String) : Compiler := c.update (c.policy.expandGroup group)

variable {c : Compiler} {srcs : List OwnedNode} {dst : OwnedNode} {group : String}

/-- A token of a rule brings in a node exactly when one does after the group has been replaced. -/
theorem exists_token_expandGroup_iff {p : Policy} (h : p.ListsUsers group) (r : Rule)
    (n : OwnedNode) (user : Option User) :
    (∃ t ∈ (r.expandGroup group (p.members group)).src,
        (Alias.classify t).isSourceFor r.action = true ∧
          (Alias.classify t).matchesSource p n user = true) ↔
      ∃ t ∈ r.src, (Alias.classify t).isSourceFor r.action = true ∧
        (Alias.classify t).matchesSource p n user = true := by
  have hgroup : Alias.classify group = .group group := Alias.classify_of_isGroupName h.named
  have hmember : ∀ m ∈ p.members group, Alias.classify m = .user m := by
    intro m hm
    obtain ⟨login, hlogin⟩ := h.users m hm
    rw [hlogin, Alias.eq_of_classify (Or.inl hlogin)]
  simp only [Rule.mem_src_expandGroup]
  constructor
  · rintro ⟨t, ⟨ht, -⟩ | ⟨hg, ht⟩, he, hm⟩
    · exact ⟨t, ht, he, hm⟩
    · -- a member in the place of the group: the group itself matches
      rw [hmember t ht] at hm
      refine ⟨group, hg, ?_, ?_⟩
      · rw [hgroup]
        rfl
      · rw [hgroup]
        exact Alias.matchesSource_group_iff.mpr ⟨t, ht, hm⟩
  · rintro ⟨t, ht, he, hm⟩
    by_cases htg : t = group
    · -- the group itself, which matches by one of its members
      subst htg
      rw [hgroup] at hm
      obtain ⟨m, hmem, hm⟩ := Alias.matchesSource_group_iff.mp hm
      refine ⟨m, Or.inr ⟨ht, hmem⟩, ?_, ?_⟩
      · rw [hmember m hmem]
        rfl
      · rw [hmember m hmem]
        exact hm
    · exact ⟨t, Or.inl ⟨ht, htg⟩, he, hm⟩

/-- Replacing the group leaves the source addresses of a rule the same but for their order. -/
theorem sources_expandGroup (h : c.policy.ListsUsers group) (r : Rule) (user : Option User) :
    (sources c.policy r srcs user).Perm
      (sources (c.expandGroup group).policy (r.expandGroup group (c.policy.members group)) srcs
        user) := by
  have hg : (c.expandGroup group).policy.groups = c.policy.groups := rfl
  refine (List.perm_ext_iff_of_nodup (nodup_sources _ _ _ _) (nodup_sources _ _ _ _)).mpr ?_
  intro a
  simp only [mem_sources, Alias.matchesSource_eq_of_groups hg]
  refine exists_congr fun n => and_congr_right fun _ => and_congr_right fun _ => ?_
  exact (exists_token_expandGroup_iff h r n user).symm

/-! ## Documents -/

/-- The rules grant the same, and the order of the principals alone may be another. -/
structure SameGrant (w w' : Wire.Rule) : Prop where
  principals : w.principals.Perm w'.principals
  sshUsers : w.sshUsers = w'.sshUsers
  action : w.action = w'.action

/-- The entries grant the same under one scope, and the one stems from the origin of the other with
the group replaced. -/
structure SameEntry (group : String) (members : List String) (e e' : Entry) : Prop where
  origin : e'.origin = e.origin.expandGroup group members
  scope : e'.scope = e.scope
  rule : SameGrant e.rule e'.rule

theorem grant_perm {addresses addresses' : List String} (h : addresses.Perm addresses')
    (logins : SortedMap String) (action : Wire.Action) :
    List.Forall₂ SameGrant (grant addresses logins action) (grant addresses' logins action) := by
  rw [grant, grant]
  by_cases ha : addresses = []
  · subst ha
    rw [if_pos rfl, if_pos h.nil_eq.symm]
    exact .nil
  · have ha' : addresses' ≠ [] := by
      rintro rfl
      exact ha h.eq_nil
    rw [if_neg ha, if_neg ha']
    exact .cons ⟨h.map _, rfl, rfl⟩ .nil

theorem scopedRule_expandGroup (h : c.policy.ListsUsers group) (r : Rule) (s : Scope) :
    List.Forall₂ SameGrant (scopedRule c srcs dst r s)
      (scopedRule (c.expandGroup group) srcs dst
        (r.expandGroup group (c.policy.members group)) s) := by
  have hd : (r.expandGroup group (c.policy.members group)).dst = r.dst := rfl
  have hu : (r.expandGroup group (c.policy.members group)).users = r.users := rfl
  cases hs : s.user? dst with
  | none =>
      rw [scopedRule_of_none hs, scopedRule_of_none hs]
      exact .nil
  | some user =>
      rw [scopedRule_of_some hs, scopedRule_of_some hs, hd, hu]
      by_cases hreached : s.isReached (Destination.evaluate dst r.dst) = true ∧ r.users ≠ []
      · rw [if_pos hreached, if_pos hreached]
        exact grant_perm (sources_expandGroup h r user) _ _
      · rw [if_neg hreached, if_neg hreached]
        exact .nil

theorem entriesOf_expandGroup (h : c.policy.ListsUsers group) (r : Rule) :
    List.Forall₂ (SameEntry group (c.policy.members group)) (entriesOf c srcs dst r)
      (entriesOf (c.expandGroup group) srcs dst
        (r.expandGroup group (c.policy.members group))) := by
  have hscope : ∀ s : Scope, List.Forall₂ (SameEntry group (c.policy.members group))
      ((scopedRule c srcs dst r s).map (Entry.mk r s))
      ((scopedRule (c.expandGroup group) srcs dst
        (r.expandGroup group (c.policy.members group)) s).map
          (Entry.mk (r.expandGroup group (c.policy.members group)) s)) := by
    intro s
    rw [List.forall₂_map_left_iff, List.forall₂_map_right_iff]
    exact (scopedRule_expandGroup h r s).imp fun w w' hw => ⟨rfl, rfl, hw⟩
  by_cases hr : r.action.isSupported = true
  · have hr' : (r.expandGroup group (c.policy.members group)).action.isSupported = true := hr
    rw [entriesOf_eq hr, entriesOf_eq hr']
    exact List.rel_append (hscope .own) (hscope .any)
  · have hr' : ¬(r.expandGroup group (c.policy.members group)).action.isSupported = true := hr
    rw [entriesOf, entriesOf, if_neg hr, if_neg hr']
    exact .nil

theorem entries_expandGroup (h : c.policy.ListsUsers group) :
    List.Forall₂ (SameEntry group (c.policy.members group)) (c.entries srcs dst)
      ((c.expandGroup group).entries srcs dst) := by
  show List.Forall₂ _ (c.policy.rules.flatMap (entriesOf c srcs dst))
    ((c.policy.rules.map (Rule.expandGroup group (c.policy.members group))).flatMap
      (entriesOf (c.expandGroup group) srcs dst))
  rw [List.flatMap_map]
  induction c.policy.rules with
  | nil => exact .nil
  | cons r rules ih =>
      rw [List.flatMap_cons, List.flatMap_cons]
      exact List.rel_append (entriesOf_expandGroup h r) ih

/-- **A group is an abbreviation for its members.** Replacing a group by its members in all rules,
where these are written as users are, gives documents with the same rules in the same order, entry
by entry under the same scope, and with the same logins, actions and principals, but for the order
of principals within a rule. -/
theorem compile_expandGroup (c : Compiler) (srcs : List OwnedNode) (dst : OwnedNode)
    {group : String} (h : c.policy.ListsUsers group) :
    List.Forall₂ SameGrant (c.compile srcs dst).rules
        ((c.expandGroup group).compile srcs dst).rules ∧
      List.Forall₂ (SameEntry group (c.policy.members group)) (c.entries srcs dst)
        ((c.expandGroup group).entries srcs dst) := by
  have hentries : List.Forall₂ (SameEntry group (c.policy.members group)) (c.entries srcs dst)
      ((c.expandGroup group).entries srcs dst) := entries_expandGroup h
  refine ⟨?_, hentries⟩
  rw [← map_rule_entries, ← map_rule_entries, List.forall₂_map_left_iff,
    List.forall₂_map_right_iff]
  exact hentries.imp fun e e' he => he.rule

namespace OnCall

/-- A group that lists one of its members twice, in a rule without a check for own nodes and
production, and in one with a check for production. -/
def compiler : Compiler where
  policy :=
    ⟨SortedMap.empty.insert "group:ops" ["bob@example.com", "ann@example.com", "bob@example.com"],
      [⟨.accept, none, ["group:ops"], ["autogroup:self", "tag:live"], ["root"], [], false⟩,
        ⟨.check, some "12h", ["group:ops"], ["tag:live"], ["ubuntu"], [], false⟩]⟩
  settings := .standard

/-- A user of the group. -/
def ann : User := ⟨⟨1⟩, "ann@example.com", none⟩

/-- A node of each user of the group. -/
def sources : List OwnedNode :=
  [⟨⟨⟨1⟩, "laptop", some ⟨10, 0, 0, 1⟩, none, some ⟨1⟩, []⟩, some ann⟩,
    ⟨⟨⟨2⟩, "phone", some ⟨10, 0, 0, 2⟩, none, some ⟨2⟩, []⟩,
      some ⟨⟨2⟩, "bob@example.com", none⟩⟩]

/-- A node in production that `ann` owns. -/
def server : OwnedNode :=
  ⟨⟨⟨3⟩, "server", some ⟨10, 0, 0, 3⟩, none, some ⟨1⟩, [⟨"tag:live", by decide⟩]⟩, some ann⟩

theorem listsUsers : compiler.policy.ListsUsers "group:ops" := by
  refine ⟨by decide, ?_⟩
  intro m hm
  have hmembers : compiler.policy.members "group:ops"
      = ["bob@example.com", "ann@example.com", "bob@example.com"] := by decide
  rw [hmembers] at hm
  have huser : ∀ m ∈ ["bob@example.com", "ann@example.com", "bob@example.com"],
      Alias.classify m = .user m := by decide
  exact ⟨m, huser m hm⟩

end OnCall

/-- The group brings its nodes in by their own order, its members by that in which they are
listed. -/
theorem compile_expandGroup_of_onCall :
    OnCall.compiler.policy.ListsUsers "group:ops" ∧
      ((OnCall.compiler.compile OnCall.sources OnCall.server).rules.map Wire.Rule.principals
          = [[⟨"10.0.0.1"⟩], [⟨"10.0.0.1"⟩, ⟨"10.0.0.2"⟩], [⟨"10.0.0.1"⟩, ⟨"10.0.0.2"⟩]] ∧
        ((OnCall.compiler.expandGroup "group:ops").compile OnCall.sources
            OnCall.server).rules.map Wire.Rule.principals
          = [[⟨"10.0.0.1"⟩], [⟨"10.0.0.2"⟩, ⟨"10.0.0.1"⟩], [⟨"10.0.0.2"⟩, ⟨"10.0.0.1"⟩]]) ∧
      List.Forall₂ SameGrant (OnCall.compiler.compile OnCall.sources OnCall.server).rules
        ((OnCall.compiler.expandGroup "group:ops").compile OnCall.sources OnCall.server).rules ∧
      List.Forall₂ (SameEntry "group:ops" (OnCall.compiler.policy.members "group:ops"))
        (OnCall.compiler.entries OnCall.sources OnCall.server)
        ((OnCall.compiler.expandGroup "group:ops").entries OnCall.sources OnCall.server) := by
  refine ⟨OnCall.listsUsers, ⟨by decide +kernel, by decide +kernel⟩, ?_⟩
  exact compile_expandGroup OnCall.compiler OnCall.sources OnCall.server OnCall.listsUsers

end Compiler

end MeshAccess
