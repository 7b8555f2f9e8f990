import Mathlib.Data.List.Induction
import MeshAccess.Proofs.Entries
import MeshAccess.Proofs.SavedPolicies

/-!
# Which logins a rule grants

The map of granted logins is filled token by token, and literal logins share its keys with the two
reserved ones, the wildcard and root. A key has the value of the last token with an entry for it
(`get?_listed`), and `get?_root_ofTokens` says what becomes of root.

A wildcard is not meant to cover root: where there is one, root has an entry of its own, which
refuses it unless it is listed. That holds of every rule but one whose tokens list the wildcard as
a literal login, and neither root nor the token for every login but root. For every rule of every
document, `root_decided_iff` says so, and `wildcard_covers_root` is such a rule.
-/

namespace MeshAccess

namespace Logins

variable {tokens : List String}

theorem root_ne_wildcard : root ≠ wildcard := by decide

theorem root_ne_nonrootToken : root ≠ Alias.nonrootToken := by decide

theorem listed_append_singleton (tokens : List String) (t : String) :
    listed (tokens ++ [t]) = (listed tokens).insert (entry t).1 (entry t).2 := by
  rw [listed, List.foldl_append]
  rfl

theorem entry_nonrootToken : entry Alias.nonrootToken = (wildcard, same) := by
  rw [entry, if_pos rfl]

theorem entry_of_ne {t : String} (ht : t ≠ Alias.nonrootToken) : entry t = (t, t) := by
  rw [entry, if_neg ht]

/-- A key other than the wildcard has entries of the token that it is, which is not the one for
every login but root. -/
theorem entry_eq_iff_of_ne_wildcard {t k : String} (hk : k ≠ wildcard) :
    (entry t).1 = k ↔ t = k ∧ k ≠ Alias.nonrootToken := by
  by_cases ht : t = Alias.nonrootToken
  · subst ht
    rw [entry_nonrootToken]
    exact ⟨fun h => absurd h.symm hk, fun h => absurd h.1.symm h.2⟩
  · rw [entry_of_ne ht]
    exact ⟨fun h => ⟨h, fun hkn => ht (h.trans hkn)⟩, fun h => h.1⟩

/-- The wildcard has entries of itself, and of the token for every login but root. -/
theorem entry_eq_wildcard_iff {t : String} :
    (entry t).1 = wildcard ↔ t = wildcard ∨ t = Alias.nonrootToken := by
  by_cases ht : t = Alias.nonrootToken
  · rw [ht, entry_nonrootToken]
    exact ⟨fun _ => Or.inr rfl, fun _ => rfl⟩
  · rw [entry_of_ne ht]
    exact ⟨Or.inl, fun h => h.resolve_right ht⟩

/-- A key has the value that the last token with an entry for it gives. -/
theorem get?_listed {k : String} :
    (listed tokens).get? k
      = (tokens.findRev? fun t => (entry t).1 == k).map fun t => (entry t).2 := by
  induction tokens using List.reverseRecOn with
  | nil => rfl
  | append_singleton tokens t ih =>
      rw [listed_append_singleton, SortedMap.get?_insert, ih, List.findRev?_eq_find?_reverse,
        List.findRev?_eq_find?_reverse, List.reverse_concat, List.find?_cons]
      by_cases hk : k = (entry t).1
      · subst hk
        rw [if_pos rfl, beq_self_eq_true]
        rfl
      · rw [if_neg hk, beq_eq_false_iff_ne.mpr (Ne.symm hk)]

/-- A login other than the wildcard is listed as itself or not at all. -/
theorem get?_listed_of_ne_wildcard {k : String} (hk : k ≠ wildcard) :
    (listed tokens).get? k
      = if k ∈ tokens ∧ k ≠ Alias.nonrootToken then some k else none := by
  rw [get?_listed, List.findRev?_eq_find?_reverse]
  cases hfind : tokens.reverse.find? fun t => (entry t).1 == k with
  | none =>
      rw [List.find?_eq_none] at hfind
      have hnot : ¬(k ∈ tokens ∧ k ≠ Alias.nonrootToken) := by
        rintro ⟨hmem, hkn⟩
        refine hfind k (List.mem_reverse.mpr hmem) ?_
        rw [beq_iff_eq, entry_eq_iff_of_ne_wildcard hk]
        exact ⟨rfl, hkn⟩
      rw [if_neg hnot]
      rfl
  | some t =>
      have hmem := List.mem_reverse.mp (List.mem_of_find?_eq_some hfind)
      have hentry := List.find?_some hfind
      obtain ⟨rfl, hkn⟩ := (entry_eq_iff_of_ne_wildcard hk).mp (beq_iff_eq.mp hentry)
      rw [if_pos ⟨hmem, hkn⟩, Option.map_some, entry_of_ne hkn]

/-- The wildcard is listed by the token for every login but root, and literally. -/
theorem contains_wildcard_listed :
    (listed tokens).contains wildcard = true
      ↔ Alias.nonrootToken ∈ tokens ∨ wildcard ∈ tokens := by
  rw [SortedMap.contains, get?_listed, Option.isSome_map, List.findRev?_eq_find?_reverse,
    List.find?_isSome]
  constructor
  · rintro ⟨t, ht, hentry⟩
    rcases entry_eq_wildcard_iff.mp (beq_iff_eq.mp hentry) with rfl | rfl
    · exact Or.inr (List.mem_reverse.mp ht)
    · exact Or.inl (List.mem_reverse.mp ht)
  · rintro (h | h)
    · exact ⟨_, List.mem_reverse.mpr h, beq_iff_eq.mpr (entry_eq_wildcard_iff.mpr (Or.inr rfl))⟩
    · exact ⟨_, List.mem_reverse.mpr h, beq_iff_eq.mpr (entry_eq_wildcard_iff.mpr (Or.inl rfl))⟩

theorem get?_root_listed :
    (listed tokens).get? root = if root ∈ tokens then some root else none := by
  rw [get?_listed_of_ne_wildcard root_ne_wildcard]
  exact if_congr (and_iff_left root_ne_nonrootToken) rfl rfl

theorem contains_root_listed : (listed tokens).contains root = decide (root ∈ tokens) := by
  rw [SortedMap.contains, get?_root_listed]
  by_cases h : root ∈ tokens
  · rw [if_pos h, decide_eq_true h]
    rfl
  · rw [if_neg h, decide_eq_false h]
    rfl

/-- Root is granted where it is listed, and otherwise refused where every login but root is. -/
theorem get?_root_ofTokens :
    (ofTokens tokens).get? root
      = if root ∈ tokens then some root
        else if Alias.nonrootToken ∈ tokens then some "" else none := by
  rw [ofTokens]
  simp only [contains_root_listed]
  by_cases hr : root ∈ tokens
  · -- where root is listed it is there already, so nothing refuses it
    rw [decide_eq_true hr, if_neg fun h => Bool.false_ne_true h.2, get?_root_listed, if_pos hr,
      if_pos hr]
  · rw [decide_eq_false hr, if_neg hr]
    by_cases hn : Alias.nonrootToken ∈ tokens
    · rw [if_pos ⟨hn, rfl⟩, if_pos hn, SortedMap.get?_insert, if_pos rfl]
    · rw [if_neg fun h => hn h.1, if_neg hn, get?_root_listed, if_neg hr]

/-- What refuses root adds no wildcard. -/
theorem contains_wildcard_ofTokens :
    (ofTokens tokens).contains wildcard = true
      ↔ Alias.nonrootToken ∈ tokens ∨ wildcard ∈ tokens := by
  rw [← contains_wildcard_listed, ofTokens]
  split
  · rw [SortedMap.contains, SortedMap.get?_insert, if_neg root_ne_wildcard.symm]
    rfl
  · rfl

/-- The tokens list the wildcard as a literal login, and neither root nor the token for every login
but root. -/
def BareWildcard (tokens : List String) : Prop :=
  wildcard ∈ tokens ∧ Alias.nonrootToken ∉ tokens ∧ root ∉ tokens

/-- Root has its own entry beside a wildcard: itself where it is listed, and the refusal where it is
not. -/
def DecidesRoot (tokens : List String) (logins : SortedMap String) : Prop :=
  logins.get? root = some (if root ∈ tokens then root else "")

instance (tokens : List String) (logins : SortedMap String) :
    Decidable (DecidesRoot tokens logins) :=
  inferInstanceAs (Decidable (_ = _))

/-- Beside a wildcard, root is decided on its own unless the wildcard is a bare one. -/
theorem decidesRoot_ofTokens_iff (h : (ofTokens tokens).contains wildcard = true) :
    DecidesRoot tokens (ofTokens tokens) ↔ ¬BareWildcard tokens := by
  have hw := contains_wildcard_ofTokens.mp h
  rw [DecidesRoot, get?_root_ofTokens, BareWildcard]
  by_cases hr : root ∈ tokens
  · rw [if_pos hr, if_pos hr]
    tauto
  · rw [if_neg hr, if_neg hr]
    by_cases hn : Alias.nonrootToken ∈ tokens
    · rw [if_pos hn]
      tauto
    · rw [if_neg hn]
      have hnone : ¬(none : Option String) = some "" := nofun
      tauto

end Logins

namespace Compiler

/-- **A wildcard covers root only where it is listed as a login.** A rule of a document with a
wildcard decides root on its own, by whether the rule of the policy that it stems from lists root,
exactly when that rule's wildcard is not a bare one. -/
theorem root_decided_iff (c : Compiler) (srcs : List OwnedNode) (dst : OwnedNode) :
    (c.compile srcs dst).rules = (c.entries srcs dst).map Entry.rule ∧
      ∀ e ∈ c.entries srcs dst, e.rule.sshUsers.contains Logins.wildcard = true →
        (Logins.DecidesRoot e.origin.users e.rule.sshUsers
          ↔ ¬Logins.BareWildcard e.origin.users) := by
  refine ⟨map_rule_entries.symm, ?_⟩
  intro e he hw
  obtain ⟨user, hemit⟩ := emitted_of_mem he
  rw [hemit.sshUsers] at hw ⊢
  exact Logins.decidesRoot_ofTokens_iff hw

/-! ## A rule for a bare wildcard -/

namespace ListedWildcard

/-- Members may log in on the own nodes of the same user as the listed login `*`. -/
def text : String :=
  "\x7b\"ssh\":[\x7b\"action\":\"accept\",\"src\":[\"autogroup:member\"],
  \"dst\":[\"autogroup:self\"],\"users\":[\"*\"]\x7d]\x7d"

/-- The policy that the text holds. -/
def policy : Policy :=
  ⟨.empty, [⟨.accept, none, ["autogroup:member"], ["autogroup:self"], ["*"], [], false⟩]⟩

/-- A user. -/
def ann : User := ⟨⟨1⟩, "ann", none⟩

/-- A node of the user. -/
def desk : OwnedNode := ⟨⟨⟨1⟩, "desk", some ⟨10, 0, 0, 1⟩, none, some ⟨1⟩, []⟩, some ann⟩

/-- Another node of the user. -/
def laptop : OwnedNode := ⟨⟨⟨2⟩, "laptop", some ⟨10, 0, 0, 2⟩, none, some ⟨1⟩, []⟩, some ann⟩

theorem load_text : Policy.load text = .ok policy :=
  Policy.load_eq_ok (Json.Document.ofText_eq_build rfl) (by decide +kernel) (by decide +kernel)
    (by decide +kernel) (by decide +kernel)

end ListedWildcard

/-- **A wildcard may cover root.** The document that an accepted policy yields for the desk has a
rule with a wildcard and without an entry for root. -/
theorem wildcard_covers_root :
    ¬∀ (text : String) (p : Policy), Policy.load text = .ok p →
      ∀ (s : Settings) (srcs : List OwnedNode) (dst : OwnedNode),
        ∀ e ∈ (Compiler.mk p s).entries srcs dst,
          e.rule.sshUsers.contains Logins.wildcard = true →
            Logins.DecidesRoot e.origin.users e.rule.sshUsers := by
  intro h
  have hdesk := h ListedWildcard.text ListedWildcard.policy ListedWildcard.load_text .standard
    [ListedWildcard.laptop] ListedWildcard.desk
  exact absurd hdesk (by decide +kernel)

end Compiler

end MeshAccess
