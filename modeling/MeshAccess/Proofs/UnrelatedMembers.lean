import Mathlib.Data.List.Forall2
import MeshAccess.Proofs.InsertedMembers
import MeshAccess.Proofs.SavedPolicies

/-!
# Members that nothing is wanted of

A policy is read out of a larger document: members of its object under other keys are passed over,
whatever they hold, and so are members of rules that are no fields of a rule. Adding such members to
a text, at any place and in any number, changes nothing about the policy that is loaded from it
(`load_grown`).

The texts are compared by the grammar of JSON: `Policy.Grown` inserts members in the object of a
policy and in the objects of its rules. The one thing asked of a new member besides its form is that
its key spells a text. A text that is read as a policy has no other keys in these objects
(`not_hasUnspelledKey_of_read`), so a longer text with such a key is refused, as one with a lone
surrogate in it is (`load_refuses_loneKey`).
-/

namespace MeshAccess

open Json.Grammar
open Json (Reading Record)
open Json.Document (tree memberTree)

/-! ## Texts of rules and policies with further members -/

namespace Rule

/-- The names of the fields of a rule. -/
def fields : List String :=
  ["action", "checkPeriod", "src", "dst", "users", "recorder", "enforceRecorder"]

/-- The text of a rule with further members, in the form of an object. -/
inductive Grown (new : List String → List Char → Prop) : List Char → List Char → Prop where
  | same (cs : List Char) : Grown new cs cs
  | object {gap : List Char} {ms ms' : List Member} (hgap : Blank gap)
      (hms : ∀ m ∈ ms, m.Valid) (h : Inserted (new fields) Eq ms ms') :
      Grown new (objectText gap ms) (objectText gap ms')

/-- The text of a rule, in the form of an object, with a key that spells no text. -/
def HasUnspelledKey (cs : List Char) : Prop := HasMember (fun m => Unspelled m.key) cs

/-- The item of a list of rules with further members in its rule. -/
def GrownItem (new : List String → List Char → Prop) (i i' : Item) : Prop :=
  ∃ cs, Grown new i.value cs ∧ i' = { i with value := cs }

end Rule

namespace Policy

/-- The names of the fields of a policy. -/
def fields : List String := ["groups", "ssh"]

/-- The member of a policy with further members in its rules, if it lists them. -/
inductive GrownMember (new : List String → List Char → Prop) : Member → Member → Prop where
  | same (m : Member) : GrownMember new m m
  | rules {m : Member} {gap : List Char} {items items' : List Item}
      (hkey : Spells m.key "ssh".toList) (hvalue : m.item.value = arrayText gap items)
      (hgap : Blank gap) (hitems : ∀ i ∈ items, i.Valid)
      (h : List.Forall₂ (Rule.GrownItem new) items items') :
      GrownMember new m { m with item := { m.item with value := arrayText gap items' } }

/-- The text of a policy, in the form of an object, with further members in the object and in the
objects of its rules. For the fields of either, `new` tells which keys the new members have. -/
def Grown (new : List String → List Char → Prop) (text text' : String) : Prop :=
  ∃ (lead gap trail : List Char) (ms ms' : List Member),
    text.toList = lead ++ (objectText gap ms ++ trail) ∧
      text'.toList = lead ++ (objectText gap ms' ++ trail) ∧
      Blank lead ∧ Blank gap ∧ Blank trail ∧ (∀ m ∈ ms, m.Valid) ∧
      Inserted (new fields) (GrownMember new) ms ms'

/-- The key of the member spells no text, or it lists the rules of a policy and a key in one of them
spells none. -/
inductive UnspelledMember : Member → Prop where
  | key {m : Member} (h : Unspelled m.key) : UnspelledMember m
  | rule {m : Member} {gap : List Char} {items : List Item} {i : Item}
      (hkey : Spells m.key "ssh".toList) (hvalue : m.item.value = arrayText gap items)
      (hgap : Blank gap) (hitems : ∀ i ∈ items, i.Valid) (hi : i ∈ items)
      (h : Rule.HasUnspelledKey i.value) : UnspelledMember m

/-- The text of a policy, in the form of an object, with a key that spells no text in the object or
in the object of a rule. -/
def HasUnspelledKey (text : String) : Prop :=
  ∃ lead value trail, text.toList = lead ++ (value ++ trail) ∧ Blank lead ∧ Blank trail ∧
    HasMember UnspelledMember value

end Policy

/-! ## Reading a rule -/

namespace Rule

variable {new : List String → List Char → Prop} {cs cs' : List Char} {items items' : List Item}

theorem knows_fields : record.Knows fields := by
  refine Record.Knows.map _ ((Record.knows_field _ _ _).and ((Record.knows_field _ _ _).and
    ((Record.knows_field _ _ _).and ((Record.knows_field _ _ _).and ((Record.knows_field _ _ _).and
      ((Record.knows_field _ _ _).and (Record.knows_field _ _ _)))))))

theorem decode_objectText {gap : List Char} {ms : List Member} (hgap : Blank gap)
    (hms : ∀ m ∈ ms, m.Valid) : decode (tree (objectText gap ms))
      = (record.fill record.blank (ms.map memberTree)).bind record.finish := by
  rw [Json.Document.tree_objectText hgap hms, decode, Record.read_object]

theorem valid_of_inserted {new : List Char → Prop} {ms ms' : List Member}
    (h : Inserted new Eq ms ms') (hms : ∀ m ∈ ms, m.Valid) : ∀ m ∈ ms', m.Valid :=
  h.valid (fun _ _ heq => heq ▸ id) hms

theorem Grown.value (h : Grown new cs cs') (hvalue : Value cs) : Value cs' := by
  cases h with
  | same => exact hvalue
  | object hgap hms h => exact value_object hgap (valid_of_inserted h hms)

/-- A rule with further members is read as the same rule. -/
theorem decode_grown (h : Grown Foreign cs cs') : decode (tree cs') = decode (tree cs) := by
  cases h with
  | same => rfl
  | object hgap hms h =>
      have hsame : ∀ m m', m = m' → ∀ draft,
          record.pass draft (memberTree m') = record.pass draft (memberTree m) := by
        rintro m _ rfl draft
        rfl
      have hfill := Record.fill_inserted knows_fields hsame h record.blank
      rw [decode_objectText hgap hms, decode_objectText hgap (valid_of_inserted h hms), hfill]

/-- A rule is refused if a further key spells no text. -/
theorem decode_unlisted (h : Grown Unlisted cs cs') {r : Rule} (hok : decode (tree cs) = .ok r) :
    Grown Foreign cs cs' ∨ decode (tree cs') = .error .malformed := by
  cases h with
  | same => exact .inl (.same cs)
  | @object gap ms ms' hgap hms h =>
      rw [decode_objectText hgap hms] at hok
      rw [decode_objectText hgap (valid_of_inserted h hms)]
      cases hfill : record.fill record.blank (ms.map memberTree) with
      | error f =>
          rw [hfill] at hok
          cases hok
      | ok d =>
          have hsame : ∀ m m', m = m' → ∀ draft d, record.pass draft (memberTree m) = .ok d →
              m = m' ∧ record.pass draft (memberTree m') = .ok d ∨
                record.pass draft (memberTree m') = .error .malformed := by
            rintro m _ rfl draft d hd
            exact .inl ⟨rfl, hd⟩
          refine (Record.fill_unlisted knows_fields hsame h hfill).imp (.object hgap hms) ?_
          intro hbad
          rw [hbad]
          rfl

/-- All keys of a rule that is read spell texts. -/
theorem not_hasUnspelledKey_of_decode {r : Rule} (h : decode (tree cs) = .ok r) :
    ¬HasUnspelledKey cs := by
  rintro ⟨gap, ms, rfl, hgap, hms, m, hm, hkey⟩
  rw [decode_objectText hgap hms] at h
  obtain ⟨before, after, hpass⟩ := Record.pass_of_read h hm
  exact Record.not_unspelled_of_pass (hms m hm) hpass hkey

/-- Where a list of rules is read, so is each of them. -/
theorem decode_of_items {seen rules : List Rule} {i : Item}
    (h : Reading.items decode seen (items.map fun i => tree i.value) = .ok rules)
    (hi : i ∈ items) : ∃ r, decode (tree i.value) = .ok r := by
  induction items generalizing seen with
  | nil => cases hi
  | cons j items ih =>
      rw [List.map_cons, Reading.items] at h
      split at h
      · cases h
      · rename_i r hr
        rcases List.mem_cons.mp hi with rfl | hi
        · exact ⟨r, hr⟩
        · exact ih h hi

theorem GrownItem.valid (h : List.Forall₂ (GrownItem new) items items')
    (hitems : ∀ i ∈ items, i.Valid) : ∀ i ∈ items', i.Valid := by
  induction h with
  | nil => exact nofun
  | cons hitem _ ih =>
      obtain ⟨cs, hgrown, rfl⟩ := hitem
      obtain ⟨⟨hspaced, hvalue⟩, hitems⟩ := List.forall_mem_cons.mp hitems
      exact List.forall_mem_cons.mpr
        ⟨⟨⟨hspaced.before, hspaced.after⟩, hgrown.value hvalue⟩, ih hitems⟩

/-- Lists of rules that differ by further members are read as the same list. -/
theorem items_grown (h : List.Forall₂ (GrownItem Foreign) items items') (seen : List Rule) :
    Reading.items decode seen (items'.map fun i => tree i.value)
      = Reading.items decode seen (items.map fun i => tree i.value) := by
  induction h generalizing seen with
  | nil => rfl
  | cons hitem _ ih =>
      obtain ⟨cs, hgrown, rfl⟩ := hitem
      rw [List.map_cons, List.map_cons, Reading.items, Reading.items, decode_grown hgrown]
      split
      · rfl
      · exact ih _

theorem items_unlisted (h : List.Forall₂ (GrownItem Unlisted) items items') {seen rules : List Rule}
    (hok : Reading.items decode seen (items.map fun i => tree i.value) = .ok rules) :
    List.Forall₂ (GrownItem Foreign) items items' ∨
      Reading.items decode seen (items'.map fun i => tree i.value) = .error .malformed := by
  induction h generalizing seen with
  | nil => exact .inl .nil
  | cons hitem _ ih =>
      obtain ⟨cs, hgrown, rfl⟩ := hitem
      rw [List.map_cons, Reading.items] at hok
      rw [List.map_cons, Reading.items]
      split at hok
      · cases hok
      · rename_i hr
        rcases decode_unlisted hgrown hr with hforeign | hbad
        · rw [decode_grown hforeign, hr]
          exact (ih hok).imp_left (.cons ⟨cs, hforeign, rfl⟩)
        · rw [hbad]
          exact .inr rfl

end Rule

/-! ## Reading a policy -/

namespace Policy

variable {new : List String → List Char → Prop}

theorem knows_fields : record.Knows fields :=
  Record.Knows.map _ ((Record.knows_field _ _ _).and (Record.knows_field _ _ _))

theorem GrownMember.valid {m m' : Member} (h : GrownMember new m m') (hm : m.Valid) :
    m'.Valid := by
  cases h with
  | same => exact hm
  | rules _ _ hgap hitems h =>
      obtain ⟨hbefore, hkey, hafter, hitem⟩ := hm.1
      exact ⟨⟨hbefore, hkey, hafter, ⟨hitem.before, hitem.after⟩⟩,
        value_array hgap (Rule.GrownItem.valid h hitems)⟩

/-- The list of rules goes into the draft, unless there is one already. -/
theorem pass_ssh (m : Member) (hkey : Spells m.key "ssh".toList)
    (groups : Option (SortedMap (List String))) (rules : Option (List Rule)) :
    record.pass (groups, rules) (memberTree m)
      = match rules with
        | some _ => .error (.mismatch (.repeated "ssh"))
        | none => (Reading.asList Rule.decode (tree m.item.value)).map (groups, some ·) := by
  have hgroups := Record.put_of_notMem (k := "ssh")
    (Record.knows_field "groups" (Reading.asMap Rule.decodeTexts) (some .empty)) (by decide)
    (tree m.item.value) groups
  refine Record.pass_of_put hkey ?_
  simp only [record, Record.map, Record.and, Record.withDefault, hgroups]
  cases rules with
  | some rs => rfl
  | none =>
      rw [Record.put_field_self]
      cases Reading.asList Rule.decode (tree m.item.value) <;> rfl

theorem asList_arrayText {gap : List Char} {items : List Item} (hgap : Blank gap)
    (hitems : ∀ i ∈ items, i.Valid) : Reading.asList Rule.decode (tree (arrayText gap items))
      = Reading.items Rule.decode [] (items.map fun i => tree i.value) := by
  rw [Json.Document.tree_arrayText hgap hitems, Json.Encodes.asList_closed]

/-- The record of a policy goes on as before behind a member with grown rules. -/
theorem pass_grown {m m' : Member} (h : GrownMember Foreign m m') (draft : record.Draft) :
    record.pass draft (memberTree m') = record.pass draft (memberTree m) := by
  cases h with
  | same => rfl
  | @rules gap items items' hkey heq hgap hitems h =>
      obtain ⟨groups, rules⟩ := draft
      have hm := pass_ssh m hkey groups rules
      have hm' := pass_ssh { m with item := { m.item with value := arrayText gap items' } } hkey
        groups rules
      refine hm'.trans (Eq.trans ?_ hm.symm)
      rw [heq, asList_arrayText hgap hitems, asList_arrayText hgap (Rule.GrownItem.valid h hitems),
        Rule.items_grown h]

/-- A list of rules is refused if a further key in one of them spells no text. -/
theorem pass_unlisted {m m' : Member} (h : GrownMember Unlisted m m') (draft d : record.Draft)
    (hok : record.pass draft (memberTree m) = .ok d) :
    GrownMember Foreign m m' ∧ record.pass draft (memberTree m') = .ok d ∨
      record.pass draft (memberTree m') = .error .malformed := by
  cases h with
  | same => exact .inl ⟨.same m, hok⟩
  | @rules gap items items' hkey heq hgap hitems h =>
      obtain ⟨groups, rules⟩ := draft
      have hm := (pass_ssh m hkey groups rules).symm.trans hok
      have hm' := pass_ssh { m with item := { m.item with value := arrayText gap items' } } hkey
        groups rules
      cases rules with
      | some rs => cases hm
      | none =>
          rw [heq, asList_arrayText hgap hitems] at hm
          obtain ⟨rs, hrules, -⟩ := exists_of_map_eq_ok hm
          rcases Rule.items_unlisted h hrules with hforeign | hbad
          · have hgrown := GrownMember.rules hkey heq hgap hitems hforeign
            exact .inl ⟨hgrown, (pass_grown hgrown _).trans hok⟩
          · refine .inr (hm'.trans ?_)
            rw [asList_arrayText hgap (Rule.GrownItem.valid h hitems), hbad]
            rfl

/-- A text of an object is read as its members are. -/
theorem read_objectText {text : String} {lead gap trail : List Char} {ms : List Member}
    (htext : text.toList = lead ++ (objectText gap ms ++ trail)) (hlead : Blank lead)
    (hgap : Blank gap) (htrail : Blank trail) (hms : ∀ m ∈ ms, m.Valid) :
    Json.Document.read decode text
      = (record.fill record.blank (ms.map memberTree)).bind record.finish := by
  have hdoc := Json.Document.ofText_of_wellFormed htext hlead (value_object hgap hms) htrail
  rw [Json.Document.read, hdoc]
  simp only [Json.Document.tree_objectText hgap hms, decode, Record.read_object]
  cases (record.fill record.blank (ms.map memberTree)).bind record.finish <;> rfl

/-- A policy is read from a text with further members as from the text without them. -/
theorem read_grown {text text' : String} (h : Grown Foreign text text') :
    Json.Document.read decode text' = Json.Document.read decode text := by
  obtain ⟨lead, gap, trail, ms, ms', htext, htext', hlead, hgap, htrail, hms, hins⟩ := h
  have hms' := hins.valid (fun _ _ => GrownMember.valid) hms
  rw [read_objectText htext hlead hgap htrail hms, read_objectText htext' hlead hgap htrail hms',
    Record.fill_inserted knows_fields (fun _ _ => pass_grown) hins]

/-- A policy is refused if a further key in it or in one of its rules spells no text. -/
theorem read_unlisted {text text' : String} (h : Grown Unlisted text text') {p : Policy}
    (hok : Json.Document.read decode text = .ok p) :
    Grown Foreign text text' ∨ Json.Document.read decode text' = .error .malformed := by
  obtain ⟨lead, gap, trail, ms, ms', htext, htext', hlead, hgap, htrail, hms, hins⟩ := h
  have hms' := hins.valid (fun _ _ => GrownMember.valid) hms
  rw [read_objectText htext hlead hgap htrail hms] at hok
  rw [read_objectText htext' hlead hgap htrail hms']
  cases hfill : record.fill record.blank (ms.map memberTree) with
  | error f =>
      rw [hfill] at hok
      cases hok
  | ok d =>
      refine (Record.fill_unlisted knows_fields (fun _ _ => pass_unlisted) hins hfill).imp ?_ ?_
      · intro hins'
        exact ⟨lead, gap, trail, ms, ms', htext, htext', hlead, hgap, htrail, hms, hins'⟩
      · intro hbad
        rw [hbad]
        rfl

/-- All keys of a policy that is read, and of its rules, spell texts. -/
theorem not_hasUnspelledKey_of_read {text : String} {p : Policy}
    (h : Json.Document.read decode text = .ok p) : ¬HasUnspelledKey text := by
  rintro ⟨lead, _, trail, htext, hlead, htrail, gap, ms, rfl, hgap, hms, m, hm, hholds⟩
  rw [read_objectText htext hlead hgap htrail hms] at h
  obtain ⟨⟨groups, rules⟩, after, hpass⟩ := Record.pass_of_read h hm
  cases hholds with
  | key hkey => exact Record.not_unspelled_of_pass (hms m hm) hpass hkey
  | @rule gap items i hkey hvalue hgap hitems hi hrule =>
      have hssh := (pass_ssh m hkey groups rules).symm.trans hpass
      cases rules with
      | some rs => cases hssh
      | none =>
          rw [hvalue, asList_arrayText hgap hitems] at hssh
          obtain ⟨rs, hrules, -⟩ := exists_of_map_eq_ok hssh
          obtain ⟨r, hr⟩ := Rule.decode_of_items hrules hi
          exact Rule.not_hasUnspelledKey_of_decode hr hrule

/-- **Unrelated members never influence the policy.** Whatever text holds a policy is well-formed
JSON, and members that the policy or its rules do not know can be added to it anywhere: the longer
text holds the same policy, and loading it gives the same policy or the same fault. The keys have to
spell texts, though: a text with a further key that spells none, in the object of the policy or in
that of a rule, is refused as malformed. -/
theorem load_grown {text : String} {p : Policy} (h : Json.Document.read decode text = .ok p)
    (hsize : text.utf8ByteSize ≤ maxSize) :
    WellFormed text ∧ ∀ text', text'.utf8ByteSize ≤ maxSize →
      (Grown Foreign text text' → Json.Document.read decode text' = .ok p ∧
        load text' = load text ∧ load text = p.check.map fun _ => p) ∧
      (Grown Unlisted text text' →
        Grown Foreign text text' ∨ load text' = .error (.unreadable .malformed)) ∧
      (Grown Unlisted text text' → HasUnspelledKey text' →
        load text' = .error (.unreadable .malformed)) := by
  refine ⟨Json.Document.wellFormed_of_read Record.skip_of_read h, fun text' hsize' => ⟨?_, ?_, ?_⟩⟩
  · intro hgrown
    have h' : Json.Document.read decode text' = .ok p := (read_grown hgrown).trans h
    exact ⟨h', (load_of_read hsize' h').trans (load_of_read hsize h).symm, load_of_read hsize h⟩
  · intro hgrown
    exact (read_unlisted hgrown h).imp_right (load_of_unreadable hsize')
  · intro hgrown hkey
    rcases read_unlisted hgrown h with hforeign | hbad
    · exact absurd hkey (not_hasUnspelledKey_of_read ((read_grown hforeign).trans h))
    · exact load_of_unreadable hsize' hbad

/-! ## A policy in a larger document -/

/-- Further members in a text without white space around its object. -/
theorem grown_of_inserted {text text' : String} {ms ms' : List Member}
    (htext : text.toList = objectText [] ms) (htext' : text'.toList = objectText [] ms')
    (hms : ∀ m ∈ ms, m.Valid) (h : Inserted (new fields) (GrownMember new) ms ms') :
    Grown new text text' := by
  refine ⟨[], [], [], ms, ms', ?_, ?_, nofun, nofun, nofun, hms, h⟩
  · rw [htext, List.nil_append, List.append_nil]
  · rw [htext', List.nil_append, List.append_nil]

namespace Annotated

/-- A policy with one rule. -/
def text : String :=
  "\x7b\"ssh\":[\x7b\"action\":\"accept\",\"src\":[\"*\"],
\"dst\":[\"tag:prod\"],\"users\":[\"root\"]\x7d]\x7d"

/-- The policy with a further member in its rule and two under one key around the list of rules. -/
def longer : String :=
  "\x7b\"acls\":[1e999,\x7b\x7d],\"ssh\":[\x7b\"note\":null,\"action\":\"accept\",\"src\":[\"*\"],
\"dst\":[\"tag:prod\"],\"users\":[\"root\"]\x7d],\"acls\":\"\\ud800\"\x7d"

/-- The policy that both texts hold. -/
def policy : Policy := ⟨.empty, [⟨.accept, none, ["*"], ["tag:prod"], ["root"], [], false⟩]⟩

theorem read_text : Json.Document.read decode text = .ok policy :=
  Json.Document.read_eq_ok (Json.Document.ofText_eq_build rfl)
    (Json.eq_ok_of_toOption (by decide +kernel)) (by decide +kernel)

/-- A member with white space in front of its key only. -/
def member (before : List Char) (key : String) (value : List Char) : Member :=
  ⟨before, key.toList, [], ⟨[], value, []⟩⟩

/-- An array without white space. -/
def list (values : List (List Char)) : List Char := arrayText [] (values.map (⟨[], ·, []⟩))

/-- A string literal. -/
def literal (inside : List Char) : List Char := '\x22' :: (inside ++ ['\x22'])

/-- The members of the rule. -/
def rule : List Member := [
  member [] "action" (literal "accept".toList),
  member [] "src" (list [literal "*".toList]),
  member ['\n'] "dst" (list [literal "tag:prod".toList]),
  member [] "users" (list [literal "root".toList])
]

/-- The list of rules. -/
def rules (ms : List Member) : Member := member [] "ssh" (list [objectText [] ms])

/-- The further members: one of the rule and two of the policy. -/
def note : Member := member [] "note" ['n', 'u', 'l', 'l']

def beyond : Member :=
  member [] "acls" (list [['1', 'e', '9', '9', '9'], objectText [] []])

def lone : Member := member [] "acls" (literal ['\\', 'u', 'd', '8', '0', '0'])

theorem text_eq : text.toList = objectText [] [rules rule] := by decide +kernel

theorem longer_eq : longer.toList = objectText [] [beyond, rules (note :: rule), lone] := by
  decide +kernel

theorem valid {before : List Char} {key : String} {value : List Char} (hb : Blank before)
    (hk : ∀ c ∈ key.toList, Plain c) (hv : Value value) : (member before key value).Valid :=
  ⟨⟨hb, (spells_of_plain hk).inside, nofun, ⟨nofun, nofun⟩⟩, hv⟩

theorem value_literal {inside : List Char} (h : ∀ c ∈ inside, Plain c) : Value (literal inside) :=
  .scalar (.text (spells_of_plain h).inside)

theorem value_list {values : List (List Char)} (h : ∀ v ∈ values, Value v) :
    Value (list values) := by
  refine .array nofun (fun i hi => ?_) fun i hi => ?_
  · obtain ⟨v, -, rfl⟩ := List.mem_map.mp hi
    exact ⟨nofun, nofun⟩
  · obtain ⟨v, hv, rfl⟩ := List.mem_map.mp hi
    exact h v hv

theorem valid_rule : ∀ m ∈ rule, m.Valid := by
  have hsingle : ∀ {inside : List Char}, (∀ c ∈ inside, Plain c) → Value (list [literal inside]) :=
    fun h => value_list (List.forall_mem_singleton.mpr (value_literal h))
  simp only [rule, List.forall_mem_cons]
  exact ⟨valid (by decide) (by decide) (value_literal (by decide)),
    valid (by decide) (by decide) (hsingle (by decide)),
    valid (by decide) (by decide) (hsingle (by decide)),
    valid (by decide) (by decide) (hsingle (by decide)), nofun⟩

theorem valid_beyond : beyond.Valid := by
  have hnumber : Number ['1', 'e', '9', '9', '9'] :=
    @Number.mk [] ['1'] [] ['e', '9', '9', '9'] (.inl rfl) (.inr ⟨by decide, by decide⟩)
      .none (@Exponent.digits 'e' [] ['9', '9', '9'] (.inl rfl) (.inl rfl) (by decide))
  have hobject : Value (objectText [] []) := value_object nofun nofun
  exact valid nofun (by decide) (value_list (List.forall_mem_cons.mpr
    ⟨.scalar (.number hnumber), List.forall_mem_singleton.mpr hobject⟩))

theorem valid_lone : lone.Valid :=
  valid nofun (by decide)
    (.scalar (.text (@Inside.unit ['d', '8', '0', '0'] [] 0xd800 ⟨rfl, by decide⟩ .nil)))

theorem foreign {fields : List String} {key : String} (hk : ∀ c ∈ key.toList, Plain c)
    (h : key ∉ fields) : Foreign fields key.toList := ⟨key, spells_of_plain hk, h⟩

theorem grown : Grown Foreign text longer := by
  have hvalue : Value (objectText [] rule) := value_object nofun valid_rule
  have hitem : Rule.GrownItem Foreign ⟨[], objectText [] rule, []⟩
      ⟨[], objectText [] (note :: rule), []⟩ := by
    have hnote : note.Valid := valid nofun (by decide) (.scalar .nullWord)
    refine ⟨_, .object nofun valid_rule (.insert hnote ?_ (.refl rule)), rfl⟩
    exact foreign (by decide) (by decide)
  have hrules : GrownMember Foreign (rules rule) (rules (note :: rule)) :=
    .rules (spells_of_plain (by decide)) rfl nofun
      (List.forall_mem_singleton.mpr ⟨⟨nofun, nofun⟩, hvalue⟩) (.cons hitem .nil)
  have hacls : Foreign fields "acls".toList := foreign (by decide) (by decide)
  refine grown_of_inserted text_eq longer_eq ?_
    (.insert valid_beyond hacls (.keep hrules (.insert valid_lone hacls .nil)))
  exact List.forall_mem_singleton.mpr
    (valid nofun (by decide) (value_list (List.forall_mem_singleton.mpr hvalue)))

end Annotated

/-! ## Keys that spell nothing -/

namespace LoneKey

/-- A lone surrogate. -/
def key : List Char := ['\\', 'u', 'd', '8', '0', '0']

theorem unspelled : Unspelled key := by
  intro k hspells
  have hread : (Json.Literal.read [] (key ++ ['\x22'])).toOption = none := by decide +kernel
  rw [hspells.read] at hread
  cases hread

/-- A member under the key. -/
def member : Member := ⟨[], key, [], ⟨[], ['0'], []⟩⟩

theorem valid_member : member.Valid := by
  have hkey : Inside key := @Inside.unit ['d', '8', '0', '0'] [] 0xd800 ⟨rfl, by decide⟩ .nil
  have hzero : Number ['0'] := @Number.mk [] ['0'] [] [] (.inl rfl) (.inl rfl) .none .none
  exact ⟨⟨nofun, hkey, nofun, ⟨nofun, nofun⟩⟩, .scalar (.number hzero)⟩

/-- The text of the empty policy. -/
def plain : String := "\x7b\x7d"

/-- The empty policy with the member. -/
def text : String := "\x7b\"\\ud800\":0\x7d"

theorem plain_eq : plain.toList = objectText [] [] := by decide +kernel

theorem text_eq : text.toList = objectText [] [member] := by decide +kernel

theorem read_plain : Json.Document.read decode plain = .ok .empty :=
  Json.Document.read_eq_ok (Json.Document.ofText_eq_build rfl)
    (Json.eq_ok_of_toOption (by decide +kernel)) (by decide +kernel)

theorem read_text : (Json.Document.read decode text).toOption = none := by
  rw [Json.Document.read, text, Json.Document.ofText_eq_build rfl]
  decide +kernel

theorem grown : Grown Unlisted plain text :=
  grown_of_inserted plain_eq text_eq nofun (.insert valid_member (fun k _ => unspelled k) .nil)

theorem hasUnspelledKey : HasUnspelledKey text := by
  refine ⟨[], objectText [] [member], [], ?_, nofun, nofun, [], [member], rfl, nofun,
    List.forall_mem_singleton.mpr valid_member, member, List.mem_singleton_self _, .key unspelled⟩
  rw [text_eq, List.nil_append, List.append_nil]

end LoneKey

/-- A list of rules is loaded as before from a document with further members around it and in its
rule, and the empty policy is refused once a key in it is a lone surrogate. -/
theorem load_grown_annotated :
    (Json.Document.read decode Annotated.text = .ok Annotated.policy ∧
      Annotated.text.utf8ByteSize ≤ maxSize ∧ Grown Foreign Annotated.text Annotated.longer ∧
      Annotated.longer.utf8ByteSize ≤ maxSize ∧ load Annotated.longer = load Annotated.text) ∧
    Json.Document.read decode LoneKey.plain = .ok .empty ∧
      LoneKey.plain.utf8ByteSize ≤ maxSize ∧ Grown Unlisted LoneKey.plain LoneKey.text ∧
      LoneKey.text.utf8ByteSize ≤ maxSize ∧ HasUnspelledKey LoneKey.text ∧
      load LoneKey.text = .error (.unreadable .malformed) := by
  have hsize : Annotated.text.utf8ByteSize ≤ maxSize := by decide +kernel
  have hsize' : Annotated.longer.utf8ByteSize ≤ maxSize := by decide +kernel
  obtain ⟨-, h⟩ := load_grown Annotated.read_text hsize
  have hplain : LoneKey.plain.utf8ByteSize ≤ maxSize := by decide +kernel
  have hlone : LoneKey.text.utf8ByteSize ≤ maxSize := by decide +kernel
  obtain ⟨-, h'⟩ := load_grown LoneKey.read_plain hplain
  refine ⟨⟨Annotated.read_text, hsize, Annotated.grown, hsize', ?_⟩, LoneKey.read_plain, hplain,
    LoneKey.grown, hlone, LoneKey.hasUnspelledKey, ?_⟩
  · exact ((h Annotated.longer hsize').1 Annotated.grown).2.1
  · exact (h' LoneKey.text hlone).2.2 LoneKey.grown LoneKey.hasUnspelledKey

/-- A key with a lone surrogate spells none of the fields, but a policy with a member under it is
not loaded. -/
theorem load_refuses_loneKey :
    ¬∀ (text : String) (p : Policy), Json.Document.read decode text = .ok p →
      text.utf8ByteSize ≤ maxSize → ∀ text', Grown Unlisted text text' →
        text'.utf8ByteSize ≤ maxSize → load text' = load text := by
  intro h
  have hload : load LoneKey.plain = .ok .empty :=
    load_of_read (by decide +kernel) LoneKey.read_plain
  have heq := h _ _ LoneKey.read_plain (by decide +kernel) _ LoneKey.grown (by decide +kernel)
  obtain ⟨-, hlonger, -⟩ := load_eq_ok_iff.mp (heq.trans hload)
  have hnone := LoneKey.read_text
  rw [hlonger] at hnone
  cases hnone

end Policy

end MeshAccess
