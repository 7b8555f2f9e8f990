import MeshAccess.Proofs.GroupMembers

/-!
# A user's own email as a token

Two grammars meet in a token that is the email of a user: the one that decides which texts are
emails and the one that sorts tokens by their form. A token that holds an `@` names a user unless it
begins as tags or groups do, and nothing in the grammar of emails keeps a display name from
beginning so.

`Email.matchesSource_ownNode` says for which emails the token brings in the untagged nodes of the
user: all that begin neither as tags nor as groups do, and in particular all that are written
without angle brackets. What comes before the `@` of such an email is a quoted text or is made of
atoms, and the colon is no character of an atom (`Email.startsWith_text_of_not_isBracketed`).
-/

namespace MeshAccess

namespace Text

/-! ## Cutting -/

variable {mark cs before rest : List Char}

theorem eq_append_of_splitFirst? (h : splitFirst? mark cs = some (before, rest)) :
    cs = before ++ (mark ++ rest) := by
  induction cs generalizing before with
  | nil =>
      obtain ⟨rest', hdrop, heq⟩ := Option.map_eq_some_iff.mp h
      obtain ⟨rfl, rfl⟩ := Prod.mk.inj heq
      rw [List.nil_append]
      exact dropStart?_eq_some_iff.mp hdrop
  | cons c cs ih =>
      rw [splitFirst?] at h
      cases hdrop : dropStart? mark (c :: cs) with
      | some rest' =>
          rw [hdrop] at h
          obtain ⟨rfl, rfl⟩ := Prod.mk.inj (Option.some.inj h)
          rw [List.nil_append]
          exact dropStart?_eq_some_iff.mp hdrop
      | none =>
          rw [hdrop] at h
          obtain ⟨⟨before', rest'⟩, hsplit, heq⟩ := Option.map_eq_some_iff.mp h
          obtain ⟨rfl, rfl⟩ := Prod.mk.inj heq
          rw [List.cons_append, ← ih hsplit]

/-- There is a cut wherever the mark stands in the text. -/
theorem splitFirst?_eq_none_iff : splitFirst? mark cs = none ↔ ¬mark <:+: cs := by
  induction cs with
  | nil => rw [splitFirst?, Option.map_eq_none_iff, dropStart?_eq_none_iff, List.infix_nil,
      List.prefix_nil]
  | cons c cs ih =>
      rw [splitFirst?, List.infix_cons_iff, not_or, ← dropStart?_eq_none_iff, ← ih]
      cases dropStart? mark (c :: cs) <;> simp

theorem eq_append_of_splitLast? (h : splitLast? mark cs = some (before, rest)) :
    cs = before ++ (mark ++ rest) := by
  obtain ⟨⟨after, before'⟩, hsplit, heq⟩ := Option.map_eq_some_iff.mp h
  obtain ⟨rfl, rfl⟩ := Prod.mk.inj heq
  rw [← List.reverse_inj, eq_append_of_splitFirst? hsplit]
  simp

theorem splitLast?_eq_none_iff : splitLast? mark cs = none ↔ ¬mark <:+: cs := by
  rw [splitLast?, Option.map_eq_none_iff, splitFirst?_eq_none_iff, List.reverse_infix]

/-- A character that is no separator stands in one of the parts. -/
theorem exists_mem_pieces {m c : Char} (hne : c ≠ m) (hc : c ∈ cs) :
    ∃ p ∈ pieces m cs, c ∈ p := by
  induction cs with
  | nil => exact absurd hc List.not_mem_nil
  | cons d cs ih =>
      rw [pieces]
      by_cases hd : d = m
      · obtain ⟨p, hp, hcp⟩ := ih (List.mem_of_ne_of_mem (hd ▸ hne) hc)
        rw [if_pos hd]
        exact ⟨p, List.mem_cons_of_mem _ hp, hcp⟩
      · rw [if_neg hd]
        -- `d` stands at the head of the first part of the rest
        rcases List.mem_cons.mp hc with rfl | hc
        · cases pieces m cs with
          | nil => exact ⟨[c], List.mem_cons_self, List.mem_cons_self⟩
          | cons p ps => exact ⟨c :: p, List.mem_cons_self, List.mem_cons_self⟩
        · obtain ⟨p, hp, hcp⟩ := ih hc
          cases hpieces : pieces m cs with
          | nil => exact absurd (hpieces ▸ hp) List.not_mem_nil
          | cons q qs =>
              rcases List.mem_cons.mp (hpieces ▸ hp) with rfl | hp
              · exact ⟨d :: p, List.mem_cons_self, List.mem_cons_of_mem _ hcp⟩
              · exact ⟨p, List.mem_cons_of_mem _ hp, hcp⟩

theorem trim_subset (cs : List Char) : trim cs ⊆ cs := by
  intro c hc
  have hdrop := List.dropWhile_subset isBlank (List.mem_reverse.mp hc)
  exact List.dropWhile_subset isBlank (List.mem_reverse.mp hdrop)

/-- A text without `m` that begins a text begins what stands before an `m` in it. -/
theorem prefix_of_prefix_append_cons {start : List Char} {m : Char} (hm : m ∉ start)
    (h : start <+: cs ++ m :: rest) : start <+: cs := by
  have hmark : cs ++ [m] <+: cs ++ m :: rest := ⟨rest, by rw [List.append_assoc]; rfl⟩
  rcases List.prefix_or_prefix_of_prefix h hmark with hs | hs
  · rcases List.prefix_concat_iff.mp hs with rfl | hs
    · exact absurd (List.mem_append_right cs List.mem_cons_self) hm
    · exact hs
  · exact absurd (hs.subset (List.mem_append_right cs List.mem_cons_self)) hm

end Text

namespace Alias

/-! ## Tokens that hold an `@` -/

/-- The fixed groups are spelled without an `@`, so a token with one is sorted by its start
alone. -/
theorem classify_of_at_mem {token : String} (h : '@' ∈ token.toList) :
    classify token =
      if isTagName token then .tag token
      else if isGroupName token then .group token
      else .user token := by
  rw [classify_of_not_fixed (P := fun s => '@' ∈ s.toList) h (by decide), if_pos h]

/-- A tag brings in no untagged node. -/
theorem tag_matchesSource_eq_false {p : Policy} {n : OwnedNode} (ht : n.isTagged = false)
    (text : String) (user : Option User) : (Alias.tag text).matchesSource p n user = false := by
  have hnone : n.hasTag text = false :=
    OwnedNode.hasTag_of_tags_nil (OwnedNode.isTagged_eq_false_iff.mp ht) text
  cases user with
  | some u => exact Bool.and_false _
  | none => exact hnone

/-- A login brings in an untagged node of the user exactly when it is that user's. -/
theorem user_matchesSource_iff {p : Policy} {n : OwnedNode} {u : User} {login : String}
    (ho : n.owner = some u) (ht : n.isTagged = false) (hne : u.login ≠ "") {user : Option User}
    (huser : user = some u ∨ user = none) :
    (Alias.user login).matchesSource p n user = true ↔ login = u.login := by
  have hown : n.hasUser u.login = true := OwnedNode.hasUser_iff.mpr ⟨hne, u, ho, rfl⟩
  have hlogin : n.hasUser login = true ↔ login = u.login := by
    constructor
    · intro h
      exact OwnedNode.eq_of_hasUser h hown
    · rintro rfl
      exact hown
  have hany : (Alias.user login).matchesSource p n none = true ↔ login = u.login := by
    show (!n.isTagged && n.hasUser login) = true ↔ _
    rw [ht, ← hlogin]
    rfl
  rcases huser with rfl | rfl
  · have hself : n.isOwnOf u = true :=
      OwnedNode.isOwnOf_iff.mpr ⟨OwnedNode.isTagged_eq_false_iff.mp ht, hown⟩
    rw [matchesSource_own_eq, hself, Bool.true_and]
    exact hany
  · exact hany

end Alias

namespace Email

open MeshAccess.Text

/-! ## How emails begin -/

/-- The address stands in angle brackets, behind a display name or an empty one. -/
def IsBracketed (e : Email) : Prop := [' ', '<'] <:+: e.text.toList

instance (e : Email) : Decidable e.IsBracketed :=
  inferInstanceAs (Decidable ([' ', '<'] <:+: e.text.toList))

theorem address_subset {cs name address : List Char}
    (h : splitName? cs = some (name, address)) : address ⊆ cs := by
  rw [splitName?] at h
  cases hsplit : splitLast? [' ', '<'] cs with
  | none =>
      rw [hsplit] at h
      obtain ⟨rfl, rfl⟩ := Prod.mk.inj (Option.some.inj h)
      exact List.Subset.refl _
  | some parts =>
      obtain ⟨before, rest⟩ := parts
      simp only [hsplit, Option.ite_none_right_eq_some, Option.some.injEq, Prod.mk.injEq] at h
      obtain ⟨-, -, rfl⟩ := h
      rw [eq_append_of_splitLast? hsplit]
      intro c hc
      have hrest : c ∈ rest := trim_subset rest (List.dropLast_subset _ hc)
      exact List.mem_append_right _ (List.mem_append_right _ hrest)

/-- An email has an address with a local part before an `@`. -/
theorem exists_localPart (e : Email) :
    ∃ name localPart domain,
      splitName? e.text.toList = some (name, localPart ++ '@' :: domain) ∧
        isLocalPart localPart = true := by
  have hvalid := e.valid
  rw [isValid] at hvalid
  split at hvalid
  · cases hvalid
  · next name address hname =>
      split at hvalid
      · cases hvalid
      · next localPart domain hat =>
          rw [Bool.and_eq_true, Bool.and_eq_true] at hvalid
          refine ⟨name, localPart, domain, ?_, hvalid.1.2⟩
          rw [hname, eq_append_of_splitLast? hat]
          rfl

theorem at_mem_text (e : Email) : '@' ∈ e.text.toList := by
  obtain ⟨name, localPart, domain, hname, -⟩ := e.exists_localPart
  exact address_subset hname (List.mem_append_right _ List.mem_cons_self)

/-- A local part that is not quoted is made of atom characters and points. -/
theorem isAtomChar_of_mem_localPart {cs : List Char} (h : isLocalPart cs = true)
    (hquote : cs.head? ≠ some '\x22') {c : Char} (hdot : c ≠ '.') (hc : c ∈ cs) :
    isAtomChar c = true := by
  have hnone : between? '\x22' '\x22' cs = none := by
    match cs, hquote with
    | [], _ => rfl
    | [_], _ => rfl
    | _ :: _ :: _, hquote => exact if_neg fun hends => hquote (congrArg some hends.1)
  rw [isLocalPart, hnone, Bool.and_eq_true, List.all_eq_true] at h
  obtain ⟨p, hp, hcp⟩ := exists_mem_pieces hdot hc
  have hatom := h.2 p hp
  rw [isAtom, Bool.and_eq_true, List.all_eq_true] at hatom
  exact hatom.2 c hcp

/-- An email without angle brackets begins with no text that holds a colon, unless that text holds
an `@` too or begins with a quote. -/
theorem startsWith_text_of_not_isBracketed {e : Email} (h : ¬e.IsBracketed) {start : List Char}
    (hat : '@' ∉ start) (hquote : start.head? ≠ some '\x22') (hcolon : ':' ∈ start) :
    Alias.startsWith start e.text = false := by
  rw [← Bool.not_eq_true, Alias.startsWith_iff]
  intro hstart
  obtain ⟨name, localPart, domain, hname, hlocal⟩ := e.exists_localPart
  rw [splitName?, splitLast?_eq_none_iff.mpr h] at hname
  obtain ⟨-, htext⟩ := Prod.mk.inj (Option.some.inj hname)
  rw [htext] at hstart
  obtain ⟨rest, rfl⟩ := prefix_of_prefix_append_cons hat hstart
  have hquote' : (start ++ rest).head? ≠ some '\x22' := by
    rwa [List.head?_append_of_ne_nil _ (List.ne_nil_of_mem hcolon)]
  have hatom := isAtomChar_of_mem_localPart hlocal hquote' (by decide)
    (List.mem_append_left rest hcolon)
  exact absurd hatom (by decide)

/-! ## The own nodes of a user -/

/-- **A user's own email brings in the user's own nodes.** Whether the sources are those of the user
or of all users, the email of a user matches an untagged node of that user exactly when it does not
begin as tags do, and is listed as a member of itself where it begins as groups do. Without angle
brackets it begins neither way, and so always matches. -/
theorem matchesSource_ownNode {e : Email} {u : User} (hu : u.email = some e) {n : OwnedNode}
    (ho : n.owner = some u) (ht : n.isTagged = false) (p : Policy) :
    (∀ user, user = some u ∨ user = none →
      ((Alias.classify e.text).matchesSource p n user = true ↔
        Alias.isTagName e.text = false ∧
          (Alias.isGroupName e.text = true → e.text ∈ p.members e.text))) ∧
      (¬e.IsBracketed → Alias.isTagName e.text = false ∧ Alias.isGroupName e.text = false) := by
  have hlogin : u.login = e.text := by
    rw [User.login, hu]
  have hne : u.login ≠ "" := by
    intro hempty
    have hat := e.at_mem_text
    rw [← hlogin, hempty] at hat
    exact absurd hat (by decide)
  refine ⟨?_, ?_⟩
  · intro user huser
    have hmatch : ∀ login, (Alias.user login).matchesSource p n user = true ↔ login = e.text := by
      intro login
      rw [Alias.user_matchesSource_iff ho ht hne huser, hlogin]
    rw [Alias.classify_of_at_mem e.at_mem_text]
    cases htag : Alias.isTagName e.text with
    | true =>
        rw [if_pos rfl, Alias.tag_matchesSource_eq_false ht]
        simp
    | false =>
        rw [if_neg Bool.false_ne_true]
        cases hgroup : Alias.isGroupName e.text with
        | true =>
            -- the group stands for its members, and of these only the email is the user's login
            rw [if_pos rfl, Alias.matchesSource_group_iff]
            simp [hmatch]
        | false =>
            rw [if_neg Bool.false_ne_true, hmatch]
            simp
  · intro hplain
    exact ⟨startsWith_text_of_not_isBracketed hplain (by decide) (by decide) (by decide),
      startsWith_text_of_not_isBracketed hplain (by decide) (by decide) (by decide)⟩

/-- A user with the given email, by which policies name the user. -/
def userOf (e : Email) : User := ⟨⟨1⟩, "ann", some e⟩

/-- An untagged node of that user. -/
def nodeOf (e : Email) : OwnedNode :=
  ⟨⟨⟨1⟩, "desk", some ⟨10, 0, 0, 1⟩, none, some ⟨1⟩, []⟩, some (userOf e)⟩

/-- An address with a quoted local part and a bracketed domain. -/
def quotedPart : Email := ⟨"\"tag:ann lee\"@[10.0.0.1]", by decide +kernel⟩

/-- The same address behind a display name. -/
def quotedInBrackets : Email := ⟨"Ann Lee <\"tag:ann lee\"@[10.0.0.1]>", by decide +kernel⟩

/-- An address behind a display name that begins as tags do. -/
def namedLikeTag : Email := ⟨"tag:ann <ann@example.com>", by decide +kernel⟩

/-- The address brings in the user's node on its own, where its form need not be looked at, and
behind the display name. -/
theorem matchesSource_quotedPart :
    (¬quotedPart.IsBracketed ∧ ∀ user, user = some (userOf quotedPart) ∨ user = none →
        (Alias.classify quotedPart.text).matchesSource .empty (nodeOf quotedPart) user = true) ∧
      quotedInBrackets.IsBracketed ∧ ∀ user, user = some (userOf quotedInBrackets) ∨ user = none →
        (Alias.classify quotedInBrackets.text).matchesSource .empty (nodeOf quotedInBrackets)
          user = true := by
  obtain ⟨hplain, hform⟩ := matchesSource_ownNode (e := quotedPart) (u := userOf quotedPart) rfl
    (n := nodeOf quotedPart) rfl rfl .empty
  obtain ⟨hnamed, -⟩ := matchesSource_ownNode (e := quotedInBrackets)
    (u := userOf quotedInBrackets) rfl (n := nodeOf quotedInBrackets) rfl rfl .empty
  have hbare : ¬quotedPart.IsBracketed := by decide +kernel
  obtain ⟨htag, hgroup⟩ := hform hbare
  refine ⟨⟨hbare, ?_⟩, by decide +kernel, ?_⟩
  · intro user huser
    refine (hplain user huser).mpr ⟨htag, ?_⟩
    intro h
    exact absurd (hgroup.symm.trans h) Bool.false_ne_true
  · intro user huser
    exact (hnamed user huser).mpr (by decide +kernel)

/-- Not every email brings in the own nodes of its user: one that begins as tags do is taken for a
tag. -/
theorem namedLikeTag_misses_ownNode :
    ¬∀ (e : Email) (u : User) (n : OwnedNode) (p : Policy), u.email = some e → n.owner = some u →
      n.isTagged = false → (Alias.classify e.text).matchesSource p n (some u) = true ∧
        (Alias.classify e.text).matchesSource p n none = true := by
  intro h
  have hmatch := h namedLikeTag (userOf namedLikeTag) (nodeOf namedLikeTag) .empty rfl rfl rfl
  exact absurd hmatch (by decide +kernel)

end Email

end MeshAccess
