import MeshAccess.Proofs.Encodings
import MeshAccess.Proofs.WellFormedJson

/-!
# Members that a record does not know

A record that is read from the text of an object passes over the members that are none of its
fields. `Inserted` puts such members among those of an object, where each may hold any well-formed
value, and `fill_inserted` says that the record is filled as before.

The key of a new member has to spell a text. It is read even where the value is passed over, so a
lone surrogate in it is refused, whatever the other members hold (`fill_unlisted`). A record that
is filled goes on behind each member (`pass_of_fill`), so no key of it is of that kind
(`not_unspelled_of_pass`).
-/

namespace MeshAccess

namespace Json

open Grammar

/-! ## Inserting members -/

namespace Grammar

/-- The members with new ones among them. The keys of the new members satisfy `new`, and those that
were there before may change within `same`. -/
inductive Inserted (new : List Char → Prop) (same : Member → Member → Prop) :
    List Member → List Member → Prop where
  | nil : Inserted new same [] []
  | keep {m m' : Member} {ms ms' : List Member} (h : same m m') (tail : Inserted new same ms ms') :
      Inserted new same (m :: ms) (m' :: ms')
  | insert {m : Member} {ms ms' : List Member} (hvalid : m.Valid) (hnew : new m.key)
      (tail : Inserted new same ms ms') : Inserted new same ms (m :: ms')

variable {new : List Char → Prop} {same : Member → Member → Prop} {ms ms' : List Member}

theorem Inserted.refl (ms : List Member) : Inserted new Eq ms ms := by
  induction ms with
  | nil => exact .nil
  | cons m ms ih => exact .keep rfl ih

/-- Members of well-formed text stay so. -/
theorem Inserted.valid (h : Inserted new same ms ms')
    (hsame : ∀ m m', same m m' → m.Valid → m'.Valid)
    (hms : ∀ m ∈ ms, m.Valid) : ∀ m ∈ ms', m.Valid := by
  induction h with
  | nil => exact nofun
  | keep h _ ih =>
      obtain ⟨hm, hms⟩ := List.forall_mem_cons.mp hms
      exact List.forall_mem_cons.mpr ⟨hsame _ _ h hm, ih hms⟩
  | insert hvalid _ _ ih => exact List.forall_mem_cons.mpr ⟨hvalid, ih hms⟩

/-- The key spells a text that is none of the fields. -/
def Foreign (fields : List String) (key : List Char) : Prop :=
  ∃ k : String, Spells key k.toList ∧ k ∉ fields

/-- The key spells none of the fields, and perhaps no text at all. -/
def Unlisted (fields : List String) (key : List Char) : Prop :=
  ∀ k ∈ fields, ¬Spells key k.toList

/-- The key spells no text. -/
def Unspelled (key : List Char) : Prop := ∀ k : String, ¬Spells key k.toList

/-- The text of an object that has such a member. -/
def HasMember (such : Member → Prop) (cs : List Char) : Prop :=
  ∃ gap ms, cs = objectText gap ms ∧ Blank gap ∧ (∀ m ∈ ms, m.Valid) ∧ ∃ m ∈ ms, such m

theorem Inside.exists_string_or {key : List Char} (h : Inside key) :
    (∃ k : String, Spells key k.toList) ∨ Refused key := by
  refine h.spells_or_refused.imp_left ?_
  rintro ⟨cs, hspells⟩
  refine ⟨String.ofList cs, ?_⟩
  rw [String.toList_ofList]
  exact hspells

/-- A key that spells none of the fields spells another text, or is refused. -/
theorem Unlisted.foreign_or {fields : List String} {key : List Char} (h : Unlisted fields key)
    (hkey : Inside key) : Foreign fields key ∨ Refused key := by
  refine hkey.exists_string_or.imp_left ?_
  rintro ⟨k, hspells⟩
  exact ⟨k, hspells, fun hmem => h k hmem hspells⟩

theorem Unspelled.refused {key : List Char} (h : Unspelled key) (hkey : Inside key) :
    Refused key :=
  hkey.exists_string_or.resolve_left (not_exists.mpr h)

end Grammar

/-! ## Reading a record past them -/

namespace Record

variable {α : Type} {r : Record α} {fields : List String}

theorem put_of_notMem (h : r.Knows fields) {k : String} (hk : k ∉ fields) (v : Reading)
    (draft : r.Draft) : r.put k v draft = none :=
  Option.not_isSome_iff_eq_none.mp (mt (h k v draft).mp hk)

/-- The draft after one member of an object. -/
def pass (r : Record α) (draft : r.Draft) (x : Token × Reading) : Except Fault r.Draft :=
  match Reading.key x.1 with
  | .error f => .error f
  | .ok k => (r.put k x.2 draft).getD (x.2.skip.map fun _ => draft)

theorem fill_cons (draft : r.Draft) (x : Token × Reading) (ms : List (Token × Reading)) :
    r.fill draft (x :: ms) = (r.pass draft x).bind fun draft => r.fill draft ms := by
  obtain ⟨t, v⟩ := x
  rw [fill, pass]
  cases Reading.key t with
  | error f => rfl
  | ok k =>
      cases hput : r.put k v draft with
      | none =>
          simp only [hput, Option.getD_none]
          cases v.skip <;> rfl
      | some e =>
          simp only [hput, Option.getD_some]
          cases e <;> rfl

theorem pass_of_put {k : String} {m : Member} (hkey : Spells m.key k.toList) {draft : r.Draft}
    {e : Except Fault r.Draft} (h : r.put k (Document.tree m.item.value) draft = some e) :
    r.pass draft (Document.memberTree m) = e := by
  rw [pass, Document.memberTree, Document.keyToken_of_spells hkey, String.ofList_toList]
  simp only [Reading.key, h, Option.getD_some]

/-- A member that is no field is passed over. -/
theorem pass_foreign (h : r.Knows fields) {m : Member} (hm : m.Valid)
    (hkey : Foreign fields m.key) (draft : r.Draft) :
    r.pass draft (Document.memberTree m) = .ok draft := by
  obtain ⟨k, hspells, hk⟩ := hkey
  rw [pass, Document.memberTree, Document.keyToken_of_spells hspells, String.ofList_toList]
  simp only [Reading.key, put_of_notMem h hk, Option.getD_none, (Document.yields_value hm.2).2]
  rfl

theorem pass_refused {m : Member} (hkey : Inside m.key) (h : Refused m.key) (draft : r.Draft) :
    r.pass draft (Document.memberTree m) = .error .malformed := by
  rw [pass, Document.memberTree, Document.keyToken_of_refused hkey h]
  rfl

/-- The record is filled from members with new ones among them as from those alone. -/
theorem fill_inserted (h : r.Knows fields) {same : Member → Member → Prop} {ms ms' : List Member}
    (hsame : ∀ m m', same m m' → ∀ draft,
      r.pass draft (Document.memberTree m') = r.pass draft (Document.memberTree m))
    (hins : Inserted (Foreign fields) same ms ms') (draft : r.Draft) :
    r.fill draft (ms'.map Document.memberTree) = r.fill draft (ms.map Document.memberTree) := by
  induction hins generalizing draft with
  | nil => rfl
  | keep hm _ ih =>
      simp only [List.map_cons, fill_cons, hsame _ _ hm, ih]
  | insert hvalid hnew _ ih =>
      rw [List.map_cons, fill_cons, pass_foreign h hvalid hnew]
      exact ih draft

/-- Where the keys of new members spell no field, they all spell other texts, or the record is
refused. -/
theorem fill_unlisted (h : r.Knows fields) {same same' : Member → Member → Prop}
    {ms ms' : List Member}
    (hsame : ∀ m m', same m m' → ∀ draft d, r.pass draft (Document.memberTree m) = .ok d →
      same' m m' ∧ r.pass draft (Document.memberTree m') = .ok d ∨
        r.pass draft (Document.memberTree m') = .error .malformed)
    (hins : Inserted (Unlisted fields) same ms ms') {draft d : r.Draft}
    (hok : r.fill draft (ms.map Document.memberTree) = .ok d) :
    Inserted (Foreign fields) same' ms ms' ∨
      r.fill draft (ms'.map Document.memberTree) = .error .malformed := by
  induction hins generalizing draft with
  | nil => exact .inl .nil
  | @keep m m' _ _ hm _ ih =>
      -- the draft is the same up to the first key that spells nothing, where the record is refused
      rw [List.map_cons, fill_cons] at hok
      simp only [List.map_cons, fill_cons]
      cases hpass : r.pass draft (Document.memberTree m) with
      | error f =>
          rw [hpass] at hok
          cases hok
      | ok draft' =>
          rw [hpass] at hok
          rcases hsame _ _ hm draft draft' hpass with ⟨hm', hpass'⟩ | hbad
          · rw [hpass']
            exact (ih hok).imp_left (.keep hm')
          · rw [hbad]
            exact .inr rfl
  | insert hvalid hnew _ ih =>
      simp only [List.map_cons, fill_cons]
      rcases hnew.foreign_or hvalid.1.key with hforeign | hrefused
      · rw [pass_foreign h hvalid hforeign]
        exact (ih hok).imp_left (.insert hvalid hforeign)
      · rw [pass_refused hvalid.1.key hrefused]
        exact .inr rfl

/-- A record that is filled goes on behind each of the members. -/
theorem pass_of_fill {draft d : r.Draft} {xs : List (Token × Reading)} {x : Token × Reading}
    (h : r.fill draft xs = .ok d) (hx : x ∈ xs) :
    ∃ before after, r.pass before x = .ok after := by
  induction xs generalizing draft with
  | nil => cases hx
  | cons y xs ih =>
      rw [fill_cons] at h
      cases hpass : r.pass draft y with
      | error f =>
          rw [hpass] at h
          cases h
      | ok draft' =>
          rw [hpass] at h
          rcases List.mem_cons.mp hx with rfl | hx
          · exact ⟨_, _, hpass⟩
          · exact ih h hx

theorem pass_of_read {ms : List Member} {m : Member} {a : α}
    (h : (r.fill r.blank (ms.map Document.memberTree)).bind r.finish = .ok a) (hm : m ∈ ms) :
    ∃ before after, r.pass before (Document.memberTree m) = .ok after := by
  cases hfill : r.fill r.blank (ms.map Document.memberTree) with
  | error f =>
      rw [hfill] at h
      cases h
  | ok d => exact pass_of_fill hfill (List.mem_map_of_mem hm)

theorem not_unspelled_of_pass {m : Member} (hm : m.Valid) {before after : r.Draft}
    (h : r.pass before (Document.memberTree m) = .ok after) : ¬Unspelled m.key := by
  intro hkey
  rw [pass_refused hm.1.key (hkey.refused hm.1.key)] at h
  cases h

theorem read_object (ms : List (Token × Reading)) :
    r.read (.object ms none) = (r.fill r.blank ms).bind r.finish := by
  simp only [read]
  cases r.fill r.blank ms <;> rfl

/-- What is read as a record can be passed over. -/
theorem skip_of_read {v : Reading} {a : α} (h : r.read v = .ok a) : v.skip = .ok () := by
  cases v with
  | leaf t => cases h
  | array items stop =>
      cases stop with
      | none => rfl
      | some f =>
          simp only [read] at h
          split at h
          · cases h
          · cases h
          · cases h
          · contradiction
  | object ms stop =>
      cases stop with
      | none => rfl
      | some f =>
          cases hfill : r.fill r.blank ms <;> simp only [read, hfill] at h <;> cases h

end Record

end Json

end MeshAccess
