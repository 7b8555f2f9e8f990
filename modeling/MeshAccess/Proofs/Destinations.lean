import MeshAccess.Proofs.Reordering

/-!
# How a destination is reached

A destination is reached as its owner's node by `autogroup:self` and by the login of the owner, and
through a tag by that tag. Logins are free texts, and the login of a user without an email address
may be spelled like an alias of another class: like a tag, a group, all members or every login but
root. `Alias.isLogin` and `Alias.isReserved` tell these classes from those of a login.

`evaluate_by_class` says which tokens reach a node. As the owner's node it is reached by the tokens
that name its owner by their class (`NamesOwner`), and besides by a token of a reserved class that
is the owner's very login, provided that it is no tag of the node (`SpellsOwner`).
`evaluate_reservedLogin` shows that the second case is not empty.
-/

namespace MeshAccess

namespace Alias

variable {token : String}

/-- Whether the alias may stand for the login of a user: it names a user, or nothing known. -/
def isLogin : Alias → Bool
  | .user _ | .unknown _ => true
  | .group _ | .tag _ | .member | .self | .nonroot => false

/-- Whether the alias names something else than a login and the own nodes of a user. -/
def isReserved : Alias → Bool
  | .group _ | .tag _ | .member | .nonroot => true
  | .user _ | .unknown _ | .self => false

theorem classify_eq_self_iff : classify token = .self ↔ token = "autogroup:self" := by
  constructor
  · intro h
    by_cases hs : token = "autogroup:self"
    · exact hs
    · exfalso
      rw [classify, if_neg hs] at h
      repeat' split at h
      all_goals cases h
  · rintro rfl
    decide

end Alias

namespace Destination

variable {n : OwnedNode} {token : String} {tokens : List String}

/-! ## Tokens one by one -/

/-- The token names the owner of the node by its class: it is `autogroup:self`, or it has the form
of a login and is the owner's, which is not empty. -/
def NamesOwner (n : OwnedNode) (token : String) : Prop :=
  ∃ u, n.owner = some u ∧
    (token = "autogroup:self" ∨
      (Alias.classify token).isLogin = true ∧ u.login = token ∧ token ≠ "")

/-- The token is the login of the owner of the node although it names something else by its class,
and it is no tag that the node carries. -/
def SpellsOwner (n : OwnedNode) (token : String) : Prop :=
  ∃ u, n.owner = some u ∧ (Alias.classify token).isReserved = true ∧ u.login = token ∧
    ∀ t ∈ n.node.tags, t.text ≠ token

theorem ne_empty_of_isReserved (h : (Alias.classify token).isReserved = true) : token ≠ "" := by
  rintro rfl
  exact absurd h (by decide)

/-- Only what has the class of a tag is the text of a tag. -/
theorem text_ne_of_classify_ne {t : Tag} (h : Alias.classify token ≠ .tag token) :
    t.text ≠ token := by
  rintro rfl
  exact h t.classify_text

theorem hasUser_of_spellsOwner (h : SpellsOwner n token) : n.hasUser token = true := by
  obtain ⟨u, ho, hres, hl, -⟩ := h
  exact OwnedNode.hasUser_iff.mpr ⟨ne_empty_of_isReserved hres, u, ho, hl⟩

/-- What reaches a node as its owner's names the owner by its class, or is a reserved login. -/
theorem names_or_spells_of_reachesOwner (h : reachesOwner n token = true) :
    NamesOwner n token ∨ SpellsOwner n token := by
  rw [reachesOwner] at h
  cases hc : Alias.classify token with
  | tag text =>
      rw [hc] at h
      obtain ⟨rfl, -⟩ := Alias.classify_eq_tag_iff.mp hc
      obtain ⟨hcarried, hu⟩ := Bool.and_eq_true_iff.mp h
      rw [Bool.not_eq_true', ← Bool.not_eq_true, OwnedNode.hasTag_iff] at hcarried
      obtain ⟨-, u, ho, hl⟩ := OwnedNode.hasUser_iff.mp hu
      refine Or.inr ⟨u, ho, by rw [hc]; rfl, hl, ?_⟩
      intro t ht htext
      exact hcarried ⟨t, ht, htext⟩
  | self =>
      rw [hc] at h
      obtain ⟨u, ho⟩ := Option.isSome_iff_exists.mp h
      exact Or.inl ⟨u, ho, Or.inl (Alias.classify_eq_self_iff.mp hc)⟩
  | user _ | unknown _ =>
      rw [hc] at h
      obtain ⟨hne, u, ho, hl⟩ := OwnedNode.hasUser_iff.mp h
      exact Or.inl ⟨u, ho, Or.inr ⟨by rw [hc]; rfl, hl, hne⟩⟩
  | group _ | member | nonroot =>
      rw [hc] at h
      obtain ⟨-, u, ho, hl⟩ := OwnedNode.hasUser_iff.mp h
      refine Or.inr ⟨u, ho, by rw [hc]; rfl, hl, ?_⟩
      intro t _
      refine text_ne_of_classify_ne ?_
      rw [hc]
      intro htag
      cases htag

theorem reachesOwner_of_namesOwner (h : NamesOwner n token) : reachesOwner n token = true := by
  obtain ⟨u, ho, rfl | ⟨hlogin, hl, hne⟩⟩ := h
  · rw [reachesOwner, Alias.classify_eq_self_iff.mpr rfl]
    show n.owner.isSome = true
    rw [ho]
    rfl
  · have hu : n.hasUser token = true := OwnedNode.hasUser_iff.mpr ⟨hne, u, ho, hl⟩
    rw [reachesOwner]
    cases hc : Alias.classify token with
    | user _ | unknown _ => exact hu
    | group _ | tag _ | member | self | nonroot =>
        rw [hc] at hlogin
        exact absurd hlogin Bool.false_ne_true

theorem reachesOwner_of_spellsOwner (h : SpellsOwner n token) : reachesOwner n token = true := by
  have hu := hasUser_of_spellsOwner h
  obtain ⟨u, -, hres, -, hcarried⟩ := h
  rw [reachesOwner]
  cases hc : Alias.classify token with
  | tag text =>
      obtain ⟨rfl, -⟩ := Alias.classify_eq_tag_iff.mp hc
      have hnone : n.hasTag token = false := by
        rw [← Bool.not_eq_true, OwnedNode.hasTag_iff]
        rintro ⟨t, ht, htext⟩
        exact hcarried t ht htext
      show (!n.hasTag token && n.hasUser token) = true
      rw [hnone, hu]
      rfl
  | group _ | member | nonroot => exact hu
  | user _ | unknown _ | self =>
      rw [hc] at hres
      exact absurd hres Bool.false_ne_true

/-- A token reaches a node through a tag exactly when it is the text of a tag that the node
carries. -/
theorem reachesTag_iff : reachesTag n token = true ↔ ∃ t ∈ n.node.tags, t.text = token := by
  rw [reachesTag]
  constructor
  · intro h
    cases hc : Alias.classify token with
    | tag text =>
        rw [hc] at h
        obtain ⟨rfl, -⟩ := Alias.classify_eq_tag_iff.mp hc
        exact OwnedNode.hasTag_iff.mp h
    | user _ | group _ | member | self | nonroot | unknown _ =>
        rw [hc] at h
        exact absurd h Bool.false_ne_true
  · rintro ⟨t, ht, rfl⟩
    rw [t.classify_text]
    exact OwnedNode.hasTag_iff.mpr ⟨t, ht, rfl⟩

/-! ## Lists of tokens -/

/-- **How a destination is reached.** As its owner's node, by a token that names its owner by its
class and, beyond that, by one that is the owner's very login although it has a reserved class,
unless it is a tag that the node carries; through a tag, by the tags that it carries. Neither the
order of tokens nor repeats count. -/
theorem evaluate_by_class (n : OwnedNode) (tokens : List String) :
    ((evaluate n tokens).owner = true ↔
        ∃ token ∈ tokens, NamesOwner n token ∨ SpellsOwner n token) ∧
      ((evaluate n tokens).tagged = true ↔ ∃ token ∈ tokens, ∃ t ∈ n.node.tags, t.text = token) ∧
      ∀ tokens', SameItems tokens tokens' → evaluate n tokens' = evaluate n tokens := by
  refine ⟨?_, ?_, ?_⟩
  · refine List.any_eq_true.trans (exists_congr fun token => and_congr_right fun _ => ?_)
    constructor
    · intro h
      exact names_or_spells_of_reachesOwner h
    · rintro (h | h)
      · exact reachesOwner_of_namesOwner h
      · exact reachesOwner_of_spellsOwner h
  · refine List.any_eq_true.trans (exists_congr fun token => and_congr_right fun _ => ?_)
    exact reachesTag_iff
  · intro tokens' h
    exact Compiler.evaluate_of_sameItems h

/-! ## A user named like a group -/

/-- A user without an email address whose name is spelled like a group. -/
def ops : User := ⟨⟨1⟩, "group:ops", none⟩

/-- An untagged node of that user. -/
def desk : OwnedNode := ⟨⟨⟨1⟩, "desk", some ⟨10, 0, 0, 1⟩, none, some ⟨1⟩, []⟩, some ops⟩

/-- The login reaches the node wherever it stands in the list and however often. -/
theorem evaluate_ops :
    SameItems ["bob", "group:ops"] ["group:ops", "bob", "group:ops"] ∧
      evaluate desk ["group:ops", "bob", "group:ops"] = evaluate desk ["bob", "group:ops"] ∧
      (evaluate desk ["bob", "group:ops"]).owner = true := by
  have hsame : SameItems ["bob", "group:ops"] ["group:ops", "bob", "group:ops"] := by
    intro t
    simp only [List.mem_cons]
    tauto
  obtain ⟨howner, -, horder⟩ := evaluate_by_class desk ["bob", "group:ops"]
  refine ⟨hsame, horder _ hsame, howner.mpr ⟨"group:ops", ?_, Or.inr ?_⟩⟩
  · exact List.mem_cons_of_mem _ List.mem_cons_self
  · exact ⟨ops, rfl, by decide, rfl, fun t ht => absurd ht List.not_mem_nil⟩

/-- **The class of a token does not decide alone.** A token that names a group reaches a node as its
owner's where the owner goes by the same text. -/
theorem evaluate_reservedLogin :
    ¬∀ (n : OwnedNode) (tokens : List String),
      (evaluate n tokens).owner = true ↔ ∃ token ∈ tokens, NamesOwner n token := by
  intro h
  have hreached : (evaluate desk ["group:ops"]).owner = true := by decide
  obtain ⟨token, htoken, u, -, hself | ⟨hlogin, -, -⟩⟩ := (h desk ["group:ops"]).mp hreached
  · exact absurd (List.mem_singleton.mp htoken ▸ hself) (by decide)
  · rw [List.mem_singleton.mp htoken] at hlogin
    exact absurd hlogin (by decide)

end Destination

end MeshAccess
