import MeshAccess.Proofs.GrantedLogins
import MeshAccess.Proofs.Reordering

/-!
# What a list of logins says

The map of granted logins is meant to depend on which tokens are listed, and not on where and how
often. `Logins.granted` reads it off the listed tokens in that way. `ofTokens_determined` compares
it with the map: they agree on every key, unless the wildcard is also listed as a literal login,
behind the last token for every login but root. The literal one then takes the place of the
wildcard that grants every login (`Overridden`), which is all that the order of tokens can decide.
`order_decides_wildcard` is such a list.
-/

namespace MeshAccess

/-! ## Maps by their values -/

namespace SortedMap

variable {α : Type}

theorem mem_entries_iff {m : SortedMap α} {k : String} {v : α} :
    (k, v) ∈ m.entries ↔ m.get? k = some v := by
  rw [get?, List.lookup_eq_some_iff]
  constructor
  · intro h
    obtain ⟨before, after, hsplit⟩ := List.append_of_mem h
    refine ⟨before, after, hsplit, ?_⟩
    -- what stands before the entry has smaller keys
    have hasc := m.ascending
    rw [hsplit, List.pairwise_append] at hasc
    intro e he
    have hlt : e.1 < k := hasc.2.2 e he (k, v) List.mem_cons_self
    rw [bne_iff_ne]
    rintro rfl
    exact String.lt_irrefl _ hlt
  · rintro ⟨before, after, hsplit, -⟩
    rw [hsplit]
    exact List.mem_append_right before List.mem_cons_self

/-- A map is determined by the values of its keys. -/
theorem ext_get? {m n : SortedMap α} (h : ∀ k, m.get? k = n.get? k) : m = n := by
  have hne : ∀ e f : String × α, e.1 < f.1 → e ≠ f := by
    rintro e _ hlt rfl
    exact String.lt_irrefl _ hlt
  have hperm : m.entries.Perm n.entries := by
    refine (List.perm_ext_iff_of_nodup (m.ascending.imp (hne _ _)) (n.ascending.imp (hne _ _))).mpr
      fun e => ?_
    rw [mem_entries_iff, mem_entries_iff, h]
  refine ext_entries (hperm.eq_of_pairwise ?_ m.ascending n.ascending)
  intro e f _ _ hef hfe
  exact absurd hfe (String.lt_asymm hef)

end SortedMap

namespace Logins

variable {tokens tokens' : List String} {k : String}

/-! ## What is listed for a key -/

/-- What the listed tokens grant for a requested login, wherever they stand: where the token for
every login but root is among them, the wildcard grants the login as requested, and root is refused
unless it is listed; every other listed login is granted as itself, and no login besides. -/
def granted (tokens : List String) (k : String) : Option String :=
  if k = wildcard ∧ Alias.nonrootToken ∈ tokens then some same
  else if k = root ∧ root ∉ tokens ∧ Alias.nonrootToken ∈ tokens then some ""
  else if k ∈ tokens ∧ k ≠ Alias.nonrootToken then some k
  else none

/-- Whether a token has an entry for the wildcard. -/
def filesWildcard (t : String) : Bool := t == wildcard || t == Alias.nonrootToken

/-- The token for every login but root is listed, but of the tokens with an entry for the wildcard
the last one is the literal wildcard. -/
def Overridden (tokens : List String) : Prop :=
  Alias.nonrootToken ∈ tokens ∧ tokens.findRev? filesWildcard = some wildcard

instance (tokens : List String) : Decidable (Overridden tokens) :=
  inferInstanceAs (Decidable (_ ∧ _))

theorem filesWildcard_iff {t : String} :
    filesWildcard t = true ↔ t = wildcard ∨ t = Alias.nonrootToken := by
  rw [filesWildcard, Bool.or_eq_true, beq_iff_eq, beq_iff_eq]

theorem granted_wildcard :
    granted tokens wildcard
      = if Alias.nonrootToken ∈ tokens then some same
        else if wildcard ∈ tokens then some wildcard else none := by
  have hroot : wildcard ≠ root := root_ne_wildcard.symm
  have hnonroot : wildcard ≠ Alias.nonrootToken := by decide
  simp only [granted, hroot, hnonroot, true_and, false_and, ne_eq, not_false_eq_true, and_true,
    if_false]

/-- The wildcard has the value that the listed tokens grant it, unless that is overridden. -/
theorem get?_wildcard_listed :
    (listed tokens).get? wildcard
      = if Overridden tokens then some wildcard else granted tokens wildcard := by
  have hfiles : (fun t => (entry t).1 == wildcard) = filesWildcard := by
    funext t
    rw [Bool.eq_iff_iff, beq_iff_eq, entry_eq_wildcard_iff, filesWildcard_iff]
  rw [get?_listed, hfiles, granted_wildcard]
  cases hlast : tokens.findRev? filesWildcard with
  | none =>
      have hnone : ∀ t ∈ tokens, ¬filesWildcard t = true := by
        rw [List.findRev?_eq_find?_reverse, List.find?_eq_none] at hlast
        intro t ht
        exact hlast t (List.mem_reverse.mpr ht)
      have hn : Alias.nonrootToken ∉ tokens :=
        fun h => hnone _ h (filesWildcard_iff.mpr (Or.inr rfl))
      have hw : wildcard ∉ tokens := fun h => hnone _ h (filesWildcard_iff.mpr (Or.inl rfl))
      have ho : ¬Overridden tokens := fun h => hn h.1
      rw [if_neg ho, if_neg hn, if_neg hw]
      rfl
  | some t =>
      have hfind := hlast
      rw [List.findRev?_eq_find?_reverse] at hlast
      have ht : t ∈ tokens := List.mem_reverse.mp (List.mem_of_find?_eq_some hlast)
      rcases filesWildcard_iff.mp (List.find?_some hlast) with rfl | rfl
      · -- the literal wildcard stands last, so it counts whether it overrides another token or not
        show some (entry wildcard).2 = _
        rw [entry_of_ne (by decide), if_pos ht]
        by_cases hn : Alias.nonrootToken ∈ tokens
        · have ho : Overridden tokens := ⟨hn, hfind⟩
          rw [if_pos ho]
        · have ho : ¬Overridden tokens := fun h => hn h.1
          rw [if_neg ho, if_neg hn]
      · have ho : ¬Overridden tokens := by
          intro h
          exact absurd (hfind.symm.trans h.2) (by decide)
        show some (entry Alias.nonrootToken).2 = _
        rw [entry_nonrootToken, if_neg ho, if_pos ht]

/-! ## The whole map -/

/-- What refuses root leaves every other login as it is listed. -/
theorem get?_ofTokens_of_ne_root (hk : k ≠ root) :
    (ofTokens tokens).get? k = (listed tokens).get? k := by
  rw [ofTokens]
  split
  · rw [SortedMap.get?_insert, if_neg hk]
  · rfl

/-- Every key of the map has the value that the listed tokens grant it, but for the wildcard where
that is overridden. -/
theorem get?_ofTokens :
    (ofTokens tokens).get? k
      = if k = wildcard ∧ Overridden tokens then some wildcard else granted tokens k := by
  by_cases hw : k = wildcard
  · subst hw
    rw [get?_ofTokens_of_ne_root root_ne_wildcard.symm, get?_wildcard_listed]
    simp only [true_and]
  · rw [if_neg fun h => hw h.1, granted, if_neg fun h => hw h.1]
    by_cases hr : k = root
    · subst hr
      rw [get?_root_ofTokens]
      by_cases hroot : root ∈ tokens
      · have hrefused : ¬(root = root ∧ root ∉ tokens ∧ Alias.nonrootToken ∈ tokens) :=
          fun h => h.2.1 hroot
        rw [if_pos hroot, if_neg hrefused, if_pos ⟨hroot, root_ne_nonrootToken⟩]
      · have hlisted : ¬(root ∈ tokens ∧ root ≠ Alias.nonrootToken) := fun h => hroot h.1
        rw [if_neg hroot, if_neg hlisted]
        exact if_congr ⟨fun hn => ⟨rfl, hroot, hn⟩, fun h => h.2.2⟩ rfl rfl
    · rw [if_neg fun h => hr h.1, get?_ofTokens_of_ne_root hr, get?_listed_of_ne_wildcard hw]

/-- Lists of the same tokens grant the same. -/
theorem granted_of_sameItems (h : SameItems tokens tokens') : granted tokens' = granted tokens := by
  funext k
  simp only [granted, ← h _]

/-- Where the token for every login but root is listed, the wildcard has its own value exactly where
it is overridden. -/
theorem overridden_iff (hn : Alias.nonrootToken ∈ tokens) :
    Overridden tokens ↔ (ofTokens tokens).get? wildcard = some wildcard := by
  have hne : some same ≠ some wildcard := by decide
  rw [get?_ofTokens, granted_wildcard, if_pos hn]
  by_cases h : Overridden tokens
  · rw [if_pos ⟨rfl, h⟩]
    exact ⟨fun _ => rfl, fun _ => h⟩
  · rw [if_neg fun h' => h h'.2]
    exact ⟨fun h' => absurd h' h, fun h' => absurd h' hne⟩

/-- Lists of the same tokens stand for the same map exactly when both or neither of them override
the wildcard. -/
theorem ofTokens_eq_iff (h : SameItems tokens tokens') :
    ofTokens tokens' = ofTokens tokens ↔ (Overridden tokens ↔ Overridden tokens') := by
  constructor
  · intro heq
    by_cases hn : Alias.nonrootToken ∈ tokens
    · rw [overridden_iff hn, overridden_iff ((h _).mp hn), heq]
    · have hn' : Alias.nonrootToken ∉ tokens' := fun hn' => hn ((h _).mpr hn')
      exact ⟨fun ho => absurd ho.1 hn, fun ho => absurd ho.1 hn'⟩
  · intro hiff
    refine SortedMap.ext_get? fun k => ?_
    rw [get?_ofTokens, get?_ofTokens, granted_of_sameItems h]
    exact if_congr (and_congr_right fun _ => hiff.symm) rfl rfl

/-- **The login mapping is determined by which logins are listed**, unless the wildcard is listed
behind every token for every login but root. Every key has the value that the listed tokens grant
it, but for the wildcard, which an overriding literal one takes for itself; and lists of the same
tokens, in any order and with any repeats, stand for the same map exactly when both or neither of
them override the wildcard. -/
theorem ofTokens_determined (tokens : List String) :
    (∀ k, (ofTokens tokens).get? k
        = if k = wildcard ∧ Overridden tokens then some wildcard else granted tokens k) ∧
      ∀ tokens', SameItems tokens tokens' →
        (ofTokens tokens' = ofTokens tokens ↔ (Overridden tokens ↔ Overridden tokens')) := by
  refine ⟨fun k => get?_ofTokens, ?_⟩
  intro tokens' h
  exact ofTokens_eq_iff h

/-- A literal wildcard before the token for every login but root takes nothing from it, and then
neither the order of tokens nor repeats change the map. -/
theorem ofTokens_wildcardFirst :
    SameItems ["*", "deploy", "autogroup:nonroot"] ["deploy", "*", "*", "autogroup:nonroot"] ∧
      ofTokens ["deploy", "*", "*", "autogroup:nonroot"]
        = ofTokens ["*", "deploy", "autogroup:nonroot"] := by
  have hsame : SameItems ["*", "deploy", "autogroup:nonroot"]
      ["deploy", "*", "*", "autogroup:nonroot"] := by
    intro t
    simp only [List.mem_cons]
    tauto
  refine ⟨hsame, ?_⟩
  exact ((ofTokens_determined ["*", "deploy", "autogroup:nonroot"]).2 _ hsame).mpr (by decide)

/-- **The order of tokens may decide what the wildcard grants.** A literal wildcard behind the token
for every login but root leaves no grant of every login, and the other way round there is one. -/
theorem order_decides_wildcard :
    (¬∀ tokens k, (ofTokens tokens).get? k = granted tokens k) ∧
      ¬∀ tokens tokens', tokens.Perm tokens' → ofTokens tokens' = ofTokens tokens := by
  refine ⟨?_, ?_⟩
  · intro h
    have hwild := h ["autogroup:nonroot", "*"] wildcard
    exact absurd hwild (by decide +kernel)
  · intro h
    have hswap := h ["autogroup:nonroot", "*"] ["*", "autogroup:nonroot"] (by decide)
    exact absurd hswap (by decide +kernel)

end Logins

end MeshAccess
