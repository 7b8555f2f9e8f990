import MeshAccess.Matching

/-!
# Whom a token stands for

`Alias.matchesSource` decides whether a token brings in a node by case distinction on the form of
the token, once for the nodes of one user and once for the nodes of all users. This module says
which nodes those are without going through the functions that decide it: `Names` relates a token
to the logins it stands for, `Reaches` relates it to the nodes it brings in when any user's nodes
may be sources. `eligible_any_iff` is about the nodes of all users, and `matchesSource_own_eq` says
that those of one user are matched in the same way, among the user's own nodes.

Two facts about nodes carry everything that depends on tags: no token but a tag brings in a tagged
node (`matchesSource_of_isTagged`), and a tag brings in nothing but tagged nodes.
-/

namespace MeshAccess

/-! ## Tokens by their form -/

namespace Alias

/-- A token stands for all members exactly when it is spelled in one of the two ways. -/
theorem classify_eq_member_iff {token : String} :
    classify token = .member ↔ token = "autogroup:member" ∨ token = "autogroup:members" := by
  constructor
  · intro h
    by_cases hm : token = "autogroup:member" ∨ token = "autogroup:members"
    · exact hm
    · exfalso
      rw [classify, if_neg hm] at h
      repeat' split at h
      all_goals cases h
  · intro h
    rw [classify, if_pos h]

/-- A token that names a user, a group or a tag is the name itself. -/
theorem eq_of_classify {token name : String}
    (h : classify token = .user name ∨ classify token = .group name ∨ classify token = .tag name) :
    token = name := by
  rw [classify] at h
  repeat' split at h
  all_goals rcases h with h | h | h <;> cases h
  all_goals rfl

theorem head?_of_startsWith {s : Char} {start : List Char} {token : String}
    (h : startsWith (s :: start) token = true) : token.toList.head? = some s := by
  obtain ⟨rest, hrest⟩ := startsWith_iff.mp h
  rw [← hrest]
  rfl

/-- What none of the fixed groups has keeps a token from being one of them. -/
theorem classify_of_not_fixed {token : String} {P : String → Prop} (h : P token)
    (hfixed : ∀ s ∈ ["autogroup:member", "autogroup:members", "autogroup:self", nonrootToken],
      ¬P s) :
    classify token =
      if isTagName token then .tag token
      else if isGroupName token then .group token
      else if '@' ∈ token.toList then .user token
      else .unknown token := by
  have hne : ∀ s ∈ ["autogroup:member", "autogroup:members", "autogroup:self", nonrootToken],
      token ≠ s := by
    rintro s hs rfl
    exact hfixed _ hs h
  have hm : ¬(token = "autogroup:member" ∨ token = "autogroup:members") :=
    not_or.mpr ⟨hne _ (by simp), hne _ (by simp)⟩
  rw [classify, if_neg hm, if_neg (hne _ (by simp)), if_neg (hne _ (by simp))]

/-- The fixed groups all begin with the same letter, and what begins with another is none of
them. -/
theorem classify_of_head?_ne {token : String} (h : token.toList.head? ≠ some 'a') :
    classify token =
      if isTagName token then .tag token
      else if isGroupName token then .group token
      else if '@' ∈ token.toList then .user token
      else .unknown token :=
  classify_of_not_fixed (P := fun s => s.toList.head? ≠ some 'a') h (by decide)

/-- A token names a tag exactly when it begins as tags do, and then it is the tag's text. -/
theorem classify_eq_tag_iff {token text : String} :
    classify token = .tag text ↔ token = text ∧ isTagName token = true := by
  constructor
  · intro h
    refine ⟨eq_of_classify (Or.inr (Or.inr h)), ?_⟩
    by_cases ht : isTagName token = true
    · exact ht
    · exfalso
      rw [classify, if_neg ht] at h
      repeat' split at h
      all_goals cases h
  · rintro ⟨rfl, ht⟩
    have hhead : token.toList.head? ≠ some 'a' := by simp [head?_of_startsWith ht]
    rw [classify_of_head?_ne hhead, if_pos ht]

/-- A text that begins as names of groups do names a group. -/
theorem classify_of_isGroupName {token : String} (h : isGroupName token = true) :
    classify token = .group token := by
  have hg : token.toList.head? = some 'g' := head?_of_startsWith h
  have ht : ¬isTagName token = true := by
    intro ht
    have ht' : token.toList.head? = some 't' := head?_of_startsWith ht
    exact absurd (hg.symm.trans ht') (by decide)
  have hhead : token.toList.head? ≠ some 'a' := by simp [hg]
  rw [classify_of_head?_ne hhead, if_neg ht, if_pos h]

end Alias

/-- The text of a tag names that tag. -/
theorem Tag.classify_text (t : Tag) : Alias.classify t.text = .tag t.text := by
  refine Alias.classify_eq_tag_iff.mpr ⟨rfl, ?_⟩
  have hv := t.valid
  rw [Tag.fault?] at hv
  show (Text.dropStart? Tag.start t.text.toList).isSome = true
  cases hd : Text.dropStart? Tag.start t.text.toList with
  | none =>
      rw [hd] at hv
      exact nomatch hv
  | some name => rfl

/-! ## Nodes and groups -/

namespace OwnedNode

variable {n : OwnedNode}

theorem isTagged_eq_false_iff : n.isTagged = false ↔ n.node.tags = [] := by
  show (!n.node.tags.isEmpty) = false ↔ _
  rw [Bool.not_eq_false', List.isEmpty_iff]

theorem hasTag_iff {text : String} :
    n.hasTag text = true ↔ ∃ t ∈ n.node.tags, t.text = text := by
  show (n.node.tags.any fun t => t.text == text) = true ↔ _
  simp only [List.any_eq_true, beq_iff_eq]

/-- A node is of the user with a login exactly when its owner has that login and it is not the
empty one. -/
theorem hasUser_iff {login : String} :
    n.hasUser login = true ↔ login ≠ "" ∧ ∃ u, n.owner = some u ∧ u.login = login := by
  show (n.owner.any fun u => login != "" && u.login == login) = true ↔ _
  simp only [Option.any_eq_true, Bool.and_eq_true, bne_iff_ne, ne_eq, beq_iff_eq]
  constructor
  · rintro ⟨u, ho, hl, hu⟩
    exact ⟨hl, u, ho, hu⟩
  · rintro ⟨hl, u, ho, hu⟩
    exact ⟨u, ho, hl, hu⟩

end OwnedNode

theorem Policy.isMember_iff {p : Policy} {group login : String} :
    p.isMember group login = true ↔
      login ≠ "" ∧ ∃ members, p.groups.get? group = some members ∧ login ∈ members := by
  simp only [Policy.isMember, Bool.and_eq_true, bne_iff_ne, ne_eq, Option.any_eq_true,
    List.contains_iff_mem]

/-! ## The own nodes of a user -/

/-- Whether the node is one of the user's own: untagged, and with an owner of the user's login. -/
def OwnedNode.isOwnOf (n : OwnedNode) (u : User) : Bool := !n.isTagged && n.hasUser u.login

namespace OwnedNode

variable {n : OwnedNode}

theorem isOwnOf_iff {u : User} :
    n.isOwnOf u = true ↔ n.node.tags = [] ∧ n.hasUser u.login = true := by
  rw [isOwnOf, Bool.and_eq_true, Bool.not_eq_true', isTagged_eq_false_iff]

theorem hasTag_of_tags_nil (h : n.node.tags = []) (text : String) : n.hasTag text = false := by
  show (n.node.tags.any fun t => t.text == text) = false
  rw [h]
  rfl

end OwnedNode

/-- Of a node that is the user's own, an alias asks the same under either scope. -/
theorem Alias.matchesOwn_eq_matchesAny {p : Policy} {n : OwnedNode} {u : User}
    (h : n.isOwnOf u = true) (a : Alias) : a.matchesOwn p n u = a.matchesAny p n := by
  obtain ⟨ht, hu⟩ := OwnedNode.isOwnOf_iff.mp h
  have hb : n.isTagged = false := OwnedNode.isTagged_eq_false_iff.mpr ht
  cases a with
  | member =>
      show true = !n.isTagged
      rw [hb]
      rfl
  | user login =>
      show n.hasUser login = (!n.isTagged && n.hasUser login)
      rw [hb]
      rfl
  | group name =>
      -- the owner of the node has the login that the group is asked for
      obtain ⟨-, owner, ho, hl⟩ := OwnedNode.hasUser_iff.mp hu
      show p.isMember name u.login
        = (!n.isTagged && n.owner.any fun owner => p.isMember name owner.login)
      rw [hb, ho, ← hl]
      rfl
  | tag text => exact (OwnedNode.hasTag_of_tags_nil ht text).symm
  | self | nonroot | unknown _ => rfl

/-- Matching among the nodes of one user is matching among all nodes, restricted to the user's
own. -/
theorem Alias.matchesSource_own_eq (p : Policy) (n : OwnedNode) (u : User) (a : Alias) :
    a.matchesSource p n (some u) = (n.isOwnOf u && a.matchesSource p n none) := by
  show (n.isOwnOf u && a.matchesOwn p n u) = (n.isOwnOf u && a.matchesAny p n)
  cases h : n.isOwnOf u with
  | false => rfl
  | true => rw [matchesOwn_eq_matchesAny h]

/-! ## The logins a token names -/

/-- The token stands for the user with this login: it is a spelling for all members, the login
itself, or a group that lists the login. -/
inductive Names (p : Policy) (login : String) : String → Prop where
  | members {token : String} (h : token = "autogroup:member" ∨ token = "autogroup:members") :
      Names p login token
  | login (h : Alias.classify login = .user login) : Names p login login
  | group {name : String} {members : List String} (h : Alias.classify name = .group name)
      (hg : p.groups.get? name = some members) (hl : login ∈ members) : Names p login name

/-! ## The nodes a token brings in -/

/-- The token brings in the node as a source of any user for a rule with the given action: an
untagged node as a member or by the login of its owner, and any node by a tag that it carries, but
by a tag only into a rule without a check. -/
inductive Reaches (p : Policy) (action : RuleAction) (n : OwnedNode) : String → Prop where
  | member {token : String} (ht : n.node.tags = [])
      (h : token = "autogroup:member" ∨ token = "autogroup:members") : Reaches p action n token
  | owner {token : String} {u : User} (ht : n.node.tags = []) (ho : n.owner = some u)
      (hl : u.login ≠ "") (h : Names p u.login token) : Reaches p action n token
  | tag {t : Tag} (ha : action ≠ .check) (ht : t ∈ n.node.tags) : Reaches p action n t.text

namespace Alias

/-- Only a tag is kept out of a rule, and only out of a rule with a check. -/
theorem isSourceFor_eq_false_iff {a : Alias} {action : RuleAction} :
    a.isSourceFor action = false ↔ (∃ text, a = .tag text) ∧ action = .check := by
  cases a with
  | tag text => cases action <;> simp [isSourceFor]
  | _ => simp [isSourceFor]

/-- What an eligible token matches, it reaches. -/
theorem reaches_of_matchesAny {p : Policy} {action : RuleAction} {n : OwnedNode} {token : String}
    (he : (classify token).isSourceFor action = true)
    (h : (classify token).matchesAny p n = true) : Reaches p action n token := by
  cases hc : classify token with
  | member =>
      rw [hc] at h
      have ht : (!n.isTagged) = true := h
      rw [Bool.not_eq_true', OwnedNode.isTagged_eq_false_iff] at ht
      exact .member ht (classify_eq_member_iff.mp hc)
  | user login =>
      rw [hc] at h
      obtain ⟨ht, hu⟩ := Bool.and_eq_true_iff.mp h
      rw [Bool.not_eq_true', OwnedNode.isTagged_eq_false_iff] at ht
      obtain ⟨hne, u, ho, hl⟩ := OwnedNode.hasUser_iff.mp hu
      have htoken := eq_of_classify (Or.inl hc)
      subst htoken hl
      exact .owner ht ho hne (.login hc)
  | group name =>
      rw [hc] at h
      obtain ⟨ht, hany⟩ := Bool.and_eq_true_iff.mp h
      rw [Bool.not_eq_true', OwnedNode.isTagged_eq_false_iff] at ht
      obtain ⟨u, ho, hmember⟩ := (Option.any_eq_true _ _).mp hany
      obtain ⟨hne, members, hg, hl⟩ := Policy.isMember_iff.mp hmember
      have htoken := eq_of_classify (Or.inr (Or.inl hc))
      subst htoken
      exact .owner ht ho hne (.group hc hg hl)
  | tag text =>
      rw [hc] at h he
      obtain ⟨t, ht, htext⟩ := OwnedNode.hasTag_iff.mp h
      -- had the rule a check, the tag would not be eligible
      have ha : action ≠ .check := by
        rintro rfl
        exact nomatch he
      rw [eq_of_classify (Or.inr (Or.inr hc)), ← htext]
      exact .tag ha ht
  | self | nonroot | unknown _ =>
      rw [hc] at h
      exact nomatch h

/-- The converse: whatever a token reaches, it may bring in and does bring in. -/
theorem eligible_of_reaches {p : Policy} {action : RuleAction} {n : OwnedNode} {token : String}
    (h : Reaches p action n token) :
    (classify token).isSourceFor action = true ∧ (classify token).matchesAny p n = true := by
  cases h with
  | member ht h =>
      rw [classify_eq_member_iff.mpr h]
      refine ⟨rfl, ?_⟩
      show (!n.isTagged) = true
      rw [OwnedNode.isTagged_eq_false_iff.mpr ht]
      rfl
  | @owner _ u ht ho hl h =>
      have hb : n.isTagged = false := OwnedNode.isTagged_eq_false_iff.mpr ht
      cases h with
      | members h =>
          rw [classify_eq_member_iff.mpr h]
          refine ⟨rfl, ?_⟩
          show (!n.isTagged) = true
          rw [hb]
          rfl
      | login h =>
          rw [h]
          refine ⟨rfl, ?_⟩
          show (!n.isTagged && n.hasUser u.login) = true
          rw [hb, OwnedNode.hasUser_iff.mpr ⟨hl, u, ho, rfl⟩]
          rfl
      | group h hg hm =>
          rw [h]
          refine ⟨rfl, ?_⟩
          show (!n.isTagged && n.owner.any fun u => p.isMember token u.login) = true
          rw [hb, ho, Option.any_some, Policy.isMember_iff.mpr ⟨hl, _, hg, hm⟩]
          rfl
  | @tag t ha ht =>
      rw [t.classify_text]
      refine ⟨?_, OwnedNode.hasTag_iff.mpr ⟨t, ht, rfl⟩⟩
      cases hb : (Alias.tag t.text).isSourceFor action with
      | true => rfl
      | false => exact absurd (isSourceFor_eq_false_iff.mp hb).2 ha

/-- Without the restriction to one user's nodes, the eligible tokens that match a node are exactly
those that reach it. -/
theorem eligible_any_iff {p : Policy} {action : RuleAction} {n : OwnedNode} {token : String} :
    (classify token).isSourceFor action = true ∧
        (classify token).matchesSource p n none = true ↔
      Reaches p action n token := by
  constructor
  · rintro ⟨he, hm⟩
    exact reaches_of_matchesAny he hm
  · intro h
    exact eligible_of_reaches h

/-- What reaches an untagged node by way of its owner's login is what names that login. -/
theorem reaches_iff_names {p : Policy} {action : RuleAction} {n : OwnedNode} {u : User}
    {token : String} (ht : n.node.tags = []) (ho : n.owner = some u) (hne : u.login ≠ "") :
    Reaches p action n token ↔ Names p u.login token := by
  constructor
  · intro h
    cases h with
    | member _ h => exact .members h
    | owner _ ho' _ h =>
        rw [Option.some.inj (ho.symm.trans ho')]
        exact h
    | tag _ hmem =>
        rw [ht] at hmem
        exact absurd hmem List.not_mem_nil
  · intro h
    exact .owner ht ho hne h

/-- Among the sources of one user are the untagged nodes of exactly that login, provided it is not
empty and the token names it. -/
theorem matchesSource_own_iff {p : Policy} {n : OwnedNode} {user : User} {token : String} :
    (classify token).matchesSource p n (some user) = true ↔
      n.node.tags = [] ∧ user.login ≠ "" ∧ (∃ u, n.owner = some u ∧ u.login = user.login) ∧
        Names p user.login token := by
  -- without a check every token is eligible
  have hany : (classify token).matchesSource p n none = true ↔ Reaches p .accept n token := by
    rw [← eligible_any_iff]
    exact (and_iff_right (by cases classify token <;> rfl)).symm
  rw [matchesSource_own_eq, Bool.and_eq_true, OwnedNode.isOwnOf_iff, OwnedNode.hasUser_iff, hany]
  constructor
  · rintro ⟨⟨ht, hne, u, ho, hl⟩, hr⟩
    rw [← hl] at hne ⊢
    exact ⟨ht, hne, ⟨u, ho, rfl⟩, (reaches_iff_names ht ho hne).mp hr⟩
  · rintro ⟨ht, hne, ⟨u, ho, hl⟩, hnames⟩
    rw [← hl] at hne hnames ⊢
    exact ⟨⟨ht, hne, u, ho, rfl⟩, (reaches_iff_names ht ho hne).mpr hnames⟩

/-- A tagged node is a source only by one of its tags, and never among the nodes of one user; who
owns it does not matter. -/
theorem matchesSource_of_isTagged {p : Policy} {n : OwnedNode} (a : Alias) (user : Option User)
    (ht : n.isTagged = true) :
    a.matchesSource p n user =
      match a, user with
      | .tag text, none => n.hasTag text
      | _, _ => false := by
  cases user with
  | some u =>
      show (!n.isTagged && n.hasUser u.login && a.matchesOwn p n u) = _
      rw [ht]
      cases a <;> rfl
  | none =>
      show a.matchesAny p n = _
      cases a with
      | member =>
          show (!n.isTagged) = false
          rw [ht]
          rfl
      | user login =>
          show (!n.isTagged && n.hasUser login) = false
          rw [ht]
          rfl
      | group name =>
          show (!n.isTagged && n.owner.any fun u => p.isMember name u.login) = false
          rw [ht]
          rfl
      | tag text => rfl
      | self | nonroot | unknown _ => rfl

/-- Whom a token brings in depends on the groups of the policy, not on its rules. -/
theorem matchesSource_eq_of_groups {p q : Policy} (h : p.groups = q.groups) (a : Alias)
    (n : OwnedNode) (user : Option User) : a.matchesSource p n user = a.matchesSource q n user := by
  have hm : ∀ group login, p.isMember group login = q.isMember group login := by
    intro group login
    rw [Policy.isMember, Policy.isMember, h]
  cases user with
  | some u => cases a <;> simp only [matchesSource, matchesOwn, hm]
  | none => cases a <;> simp only [matchesSource, matchesAny, hm]

/-- Into a rule with a check go all tokens but those that begin as tags do. -/
theorem isSourceFor_check (token : String) :
    (classify token).isSourceFor .check = !isTagName token := by
  cases ht : isTagName token with
  | true =>
      rw [classify_eq_tag_iff.mpr ⟨rfl, ht⟩]
      rfl
  | false =>
      cases he : (classify token).isSourceFor .check with
      | true => rfl
      | false =>
          obtain ⟨⟨text, hc⟩, -⟩ := isSourceFor_eq_false_iff.mp he
          rw [(classify_eq_tag_iff.mp hc).2] at ht
          exact nomatch ht

/-- No token that may go into a rule with a check matches a tagged node. -/
theorem matchesSource_eq_false_of_check {p : Policy} {n : OwnedNode} {token : String}
    (user : Option User) (ht : n.isTagged = true)
    (he : (classify token).isSourceFor .check = true) :
    (classify token).matchesSource p n user = false := by
  rw [matchesSource_of_isTagged _ user ht]
  split
  · rename_i text hc
    rw [hc] at he
    exact nomatch he
  · rfl

end Alias

end MeshAccess
