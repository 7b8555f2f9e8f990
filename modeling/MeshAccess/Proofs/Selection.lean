import MeshAccess.Proofs.Numerals
import MeshAccess.Proofs.SavedSnapshots

/-!
# Which node a selector finds

A selector names a node by its number or by its hostname, and the two may look alike, as hostnames
may consist of digits. `Selects` says when a node fits a selector, and `find?_eq_some_iff` that the
first one that does is found. `find?_selected` applies this to the decimal text of a node's number:
some node is found in any case, and it has the number unless the number is shadowed, that is, unless
a node of that name with another number stands in front of all nodes with the number.
`find?_misses_number` is about a snapshot in which one does.
-/

namespace MeshAccess

open Text

/-- The number in decimal. -/
def NodeId.decimal (id : NodeId) : String := id.value.toNat.repr

namespace Snapshot

variable {s : Snapshot} {selector : String} {id : NodeId} {m n : Node}

/-! ## Selectors -/

/-- The selector spells the number: decimal digits, with or without leading zeros, and optionally
behind a plus. -/
def Spells (selector : String) (id : NodeId) : Prop :=
  ∃ digits, (selector.toList = digits ∨ selector.toList = '+' :: digits) ∧ digits ≠ [] ∧
    (∀ c ∈ digits, c.isDigit = true) ∧ Nat.ofDigitChars 10 digits 0 = id.value.toNat

/-- The node has the selector as its hostname, or the selector spells its number. -/
def Selects (selector : String) (n : Node) : Prop :=
  n.hostname = selector ∨ Spells selector n.id

/-- The decimal text of a number spells the number. -/
theorem spells_decimal (id : NodeId) : Spells id.decimal id := by
  refine ⟨Nat.toDigits 10 id.value.toNat, Or.inl Nat.toList_repr, Nat.toDigits_ne_nil, ?_,
    Nat.ofDigitChars_ten_toDigits⟩
  intro c hc
  exact Nat.isDigit_of_mem_toDigits (by decide) (by decide) hc

/-- A run of digits stands for a number of 64 bits if it has one as its value. -/
theorem readBelow?_eq_some_iff {digits : List Char} :
    (Positional.readBelow? 10 UInt64.size digits).map (fun n => (⟨.ofNat n⟩ : NodeId)) = some id ↔
      digits ≠ [] ∧ (∀ c ∈ digits, c.isDigit = true) ∧
        Nat.ofDigitChars 10 digits 0 = id.value.toNat := by
  rw [Positional.readBelow?, ← Positional.read?_ten_eq_some_iff]
  simp only [Option.map_eq_some_iff, Option.filter_eq_some_iff, decide_eq_true_eq]
  constructor
  · rintro ⟨n, ⟨hread, hn⟩, rfl⟩
    rw [hread, UInt64.toNat_ofNat_of_lt' hn]
  · intro hread
    exact ⟨id.value.toNat, ⟨hread, id.value.toNat_lt_size⟩,
      congrArg NodeId.mk id.value.ofNat_toNat⟩

/-- The number read from a selector is the one that it spells. -/
theorem selectedId?_eq_some_iff : selectedId? selector = some id ↔ Spells selector id := by
  rw [selectedId?, readBelow?_eq_some_iff, Spells]
  split
  · rename_i cs hplus
    rw [hplus]
    constructor
    · intro h
      exact ⟨cs, Or.inr rfl, h⟩
    · rintro ⟨digits, rfl | hdigits, h⟩
      · -- a plus is no digit
        exact absurd (h.2.1 '+' List.mem_cons_self) (by decide)
      · rw [(List.cons.inj hdigits).2]
        exact h
  · rename_i hplus
    constructor
    · intro h
      exact ⟨selector.toList, Or.inl rfl, h⟩
    · rintro ⟨digits, hdigits | hdigits, h⟩
      · rw [hdigits]
        exact h
      · exact absurd hdigits (hplus digits)

/-- A selector spells one number at most. -/
theorem eq_of_spells {id' : NodeId} (h : Spells selector id) (h' : Spells selector id') :
    id = id' :=
  Option.some.inj ((selectedId?_eq_some_iff.mpr h).symm.trans (selectedId?_eq_some_iff.mpr h'))

/-! ## Search -/

theorem selects_iff :
    (some n.id == selectedId? selector || n.hostname == selector) = true ↔ Selects selector n := by
  rw [Bool.or_eq_true, beq_iff_eq, beq_iff_eq, eq_comm, selectedId?_eq_some_iff, Selects, or_comm]

/-- The first node that fits is found. -/
theorem find?_eq_some_iff :
    s.find? selector = some m ↔
      ∃ before after, s.nodes = before ++ m :: after ∧ Selects selector m ∧
        ∀ b ∈ before, ¬Selects selector b := by
  rw [find?, List.find?_eq_some_iff_append]
  simp only [selects_iff, Bool.not_eq_true', Bool.eq_false_iff, ne_eq]
  constructor
  · rintro ⟨hm, before, after, hnodes, hbefore⟩
    exact ⟨before, after, hnodes, hm, hbefore⟩
  · rintro ⟨before, after, hnodes, hm, hbefore⟩
    exact ⟨hm, before, after, hnodes, hbefore⟩

/-- Nothing is found exactly when no node fits. -/
theorem find?_eq_none_iff :
    s.find? selector = none ↔
      ∀ n ∈ s.nodes, n.hostname ≠ selector ∧ ¬Spells selector n.id := by
  rw [find?, List.find?_eq_none]
  simp only [selects_iff, Selects, not_or, ne_eq]

/-! ## Shadowed numbers -/

/-- A node with another number and the decimal text of this one as its hostname stands in front of
all nodes with this number. -/
def Shadowed (nodes : List Node) (id : NodeId) : Prop :=
  ∃ before k after, nodes = before ++ k :: after ∧ k.hostname = id.decimal ∧ k.id ≠ id ∧
    ∀ b ∈ before, b.id ≠ id

/-- Of two places in a list, one is in front of the other unless they hold the same. -/
theorem eq_or_mem_of_append_eq {α : Type} {xs ys xs' ys' : List α} {x y : α}
    (h : xs ++ x :: ys = xs' ++ y :: ys') : x = y ∨ x ∈ xs' ∨ y ∈ xs := by
  rcases List.append_eq_append_iff.mp h with ⟨zs, rfl, htail⟩ | ⟨zs, rfl, htail⟩
  · cases zs with
    | nil => exact Or.inl (List.cons.inj htail).1
    | cons z zs =>
        obtain ⟨rfl, -⟩ := List.cons.inj htail
        exact Or.inr (Or.inl (List.mem_append_right _ List.mem_cons_self))
  · cases zs with
    | nil => exact Or.inl (List.cons.inj htail).1.symm
    | cons z zs =>
        obtain ⟨rfl, -⟩ := List.cons.inj htail
        exact Or.inr (Or.inr (List.mem_append_right _ List.mem_cons_self))

/-- Who is found by the text of a number has the number exactly when it is not shadowed. -/
theorem id_eq_iff_not_shadowed (h : s.find? id.decimal = some m) :
    m.id = id ↔ ¬Shadowed s.nodes id := by
  obtain ⟨before, after, hnodes, hm, hbefore⟩ := find?_eq_some_iff.mp h
  constructor
  · rintro rfl ⟨front, k, back, hk, hname, hid, hfront⟩
    rcases eq_or_mem_of_append_eq (hnodes.symm.trans hk) with rfl | hmem | hmem
    · exact hid rfl
    · exact hfront m hmem rfl
    · exact hbefore k hmem (Or.inl hname)
  · intro hno
    by_cases hid : m.id = id
    · exact hid
    · -- whoever is found without having the number is called by it
      have hname : m.hostname = id.decimal :=
        hm.resolve_right fun h => hid (eq_of_spells h (spells_decimal id))
      refine absurd ⟨before, m, after, hnodes, hname, hid, ?_⟩ hno
      rintro b hb rfl
      exact hbefore b hb (Or.inr (spells_decimal b.id))

/-- **The decimal text of a number finds a node with the number unless the number is shadowed.** The
node found is the first that has the number or the text as its hostname, and there is one. No node
is found by a selector exactly when none has it as its hostname and none has a number that it
spells. -/
theorem find?_selected (s : Snapshot) :
    (∀ n ∈ s.nodes, ∃ before m after, s.nodes = before ++ m :: after ∧
        s.find? n.id.decimal = some m ∧ (m.hostname = n.id.decimal ∨ m.id = n.id) ∧
        (∀ b ∈ before, b.hostname ≠ n.id.decimal ∧ b.id ≠ n.id) ∧
        (m.id = n.id ↔ ¬Shadowed s.nodes n.id)) ∧
      ∀ selector, s.find? selector = none ↔
        ∀ n ∈ s.nodes, n.hostname ≠ selector ∧ ¬Spells selector n.id := by
  refine ⟨?_, fun selector => find?_eq_none_iff⟩
  intro n hn
  cases hfind : s.find? n.id.decimal with
  | none => exact absurd (spells_decimal n.id) (find?_eq_none_iff.mp hfind n hn).2
  | some m =>
      obtain ⟨before, after, hnodes, hm, hbefore⟩ := find?_eq_some_iff.mp hfind
      refine ⟨before, m, after, hnodes, rfl, ?_, ?_, id_eq_iff_not_shadowed hfind⟩
      · exact hm.imp_right fun h => eq_of_spells h (spells_decimal n.id)
      · intro b hb
        refine ⟨fun hname => hbefore b hb (Or.inl hname), ?_⟩
        intro hid
        exact hbefore b hb (Or.inr (hid ▸ spells_decimal b.id))

/-! ## A number as a hostname -/

namespace NumberedName

/-- The first of two nodes is called by the number of the second. -/
def text : String :=
  "\x7b\"nodes\":[\x7b\"id\":7,\"hostname\":\"2\"\x7d,
  \x7b\"id\":2,\"hostname\":\"desk\"\x7d]\x7d"

/-- The node that is called by a number. -/
def impostor : Node := ⟨⟨7⟩, "2", none, none, none, []⟩

/-- The node with the number. -/
def desk : Node := ⟨⟨2⟩, "desk", none, none, none, []⟩

/-- The snapshot that the text holds. -/
def snapshot : Snapshot := ⟨[], [impostor, desk]⟩

theorem load_text : load text = .ok snapshot :=
  load_eq_ok (Json.Document.ofText_eq_build rfl) (by decide +kernel) (by decide +kernel)
    (by decide +kernel)

theorem find?_two : snapshot.find? desk.id.decimal = some impostor := by decide +kernel

end NumberedName

/-- The number of the desk is shadowed and finds the other node. -/
theorem find?_selected_numberedName :
    NumberedName.desk ∈ NumberedName.snapshot.nodes ∧
      NumberedName.snapshot.find? NumberedName.desk.id.decimal = some NumberedName.impostor ∧
      Shadowed NumberedName.snapshot.nodes NumberedName.desk.id := by
  have hmem : NumberedName.desk ∈ NumberedName.snapshot.nodes :=
    List.mem_cons_of_mem _ List.mem_cons_self
  obtain ⟨-, m, -, -, hfind, -, -, hiff⟩ := (find?_selected NumberedName.snapshot).1 _ hmem
  obtain rfl : NumberedName.impostor = m :=
    Option.some.inj (NumberedName.find?_two.symm.trans hfind)
  refine ⟨hmem, hfind, ?_⟩
  by_cases h : Shadowed NumberedName.snapshot.nodes NumberedName.desk.id
  · exact h
  · exact absurd (hiff.mpr h) (by decide)

/-- **A number may miss its node.** In a snapshot that is accepted, the decimal text of a node's
number finds a node with another number. -/
theorem find?_misses_number :
    ¬∀ (text : String) (s : Snapshot), load text = .ok s →
      ∀ n ∈ s.nodes, ∃ m, s.find? n.id.decimal = some m ∧ m.id = n.id := by
  intro h
  obtain ⟨m, hfind, hid⟩ := h NumberedName.text NumberedName.snapshot NumberedName.load_text
    NumberedName.desk (List.mem_cons_of_mem _ List.mem_cons_self)
  obtain rfl : NumberedName.impostor = m :=
    Option.some.inj (NumberedName.find?_two.symm.trans hfind)
  exact absurd hid (by decide)

end Snapshot

end MeshAccess
