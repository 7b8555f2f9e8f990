import MeshAccess.Json.Token

/-!
# The grammar of JSON

What a JSON text is, stated without a reader: the forms of string literals and numbers, and the
layouts of arrays and objects, down to the white space between their parts. A text is a list of
characters here; `Value` holds of the texts of values and `WellFormed` of whole documents.

Two notions belong to string literals. `Inside` is the form alone, in which an escape may name any
code unit; `Spells` says which text the inside of a literal stands for, and there is none unless
surrogates come in pairs.
-/

namespace MeshAccess.Json.Grammar

open MeshAccess.Text

/-! ## String literals -/

/-- The letters that may follow a backslash, with the characters that they stand for. -/
def shortForms : List (Char × Char) := [
  ('\x22', '\x22'), ('\\', '\\'), ('/', '/'), ('b', '\x08'), ('f', '\x0c'), ('n', '\n'),
  ('r', '\r'), ('t', '\t')
]

/-- Four hexadecimal digits that name the code unit `n`. -/
def CodeUnit (ds : List Char) (n : Nat) : Prop := ds.length = 4 ∧ Positional.read? 16 ds = some n

/-- A character that stands for itself inside a string literal. -/
def Plain (c : Char) : Prop := 0x20 ≤ c.toNat ∧ c ≠ '\x22' ∧ c ≠ '\\'

instance : DecidablePred Plain := fun _ => inferInstanceAs (Decidable (_ ∧ _ ∧ _))

-- Decided along the list, not over all characters.
instance (cs : List Char) : Decidable (∀ c ∈ cs, Plain c) := List.decidableBAll Plain cs

/-- What may stand between the quotes of a string literal. -/
inductive Inside : List Char → Prop where
  | nil : Inside []
  | plain {c : Char} {cs : List Char} (h : Plain c) (tail : Inside cs) : Inside (c :: cs)
  | short {e c : Char} {cs : List Char} (h : (e, c) ∈ shortForms) (tail : Inside cs) :
      Inside ('\\' :: e :: cs)
  | unit {ds cs : List Char} {n : Nat} (h : CodeUnit ds n) (tail : Inside cs) :
      Inside ('\\' :: 'u' :: (ds ++ cs))

/-- The text that the inside of a string literal stands for. -/
inductive Spells : List Char → List Char → Prop where
  | nil : Spells [] []
  | plain {c : Char} {cs text : List Char} (h : Plain c) (tail : Spells cs text) :
      Spells (c :: cs) (c :: text)
  | short {e c : Char} {cs text : List Char} (h : (e, c) ∈ shortForms) (tail : Spells cs text) :
      Spells ('\\' :: e :: cs) (c :: text)
  | unit {ds cs text : List Char} {n : Nat} (h : CodeUnit ds n) (hn : n < 0xd800 ∨ 0xe000 ≤ n)
      (tail : Spells cs text) : Spells ('\\' :: 'u' :: (ds ++ cs)) (Char.ofNat n :: text)
  | pair {ds es cs text : List Char} {lead trail : Nat} (hl : CodeUnit ds lead)
      (ht : CodeUnit es trail) (hlead : 0xd800 ≤ lead ∧ lead < 0xdc00)
      (htrail : 0xdc00 ≤ trail ∧ trail < 0xe000) (tail : Spells cs text) :
      Spells ('\\' :: 'u' :: (ds ++ '\\' :: 'u' :: (es ++ cs)))
        (Char.ofNat (0x10000 + (lead - 0xd800) * 0x400 + (trail - 0xdc00)) :: text)

theorem Spells.inside {cs text : List Char} (h : Spells cs text) : Inside cs := by
  induction h with
  | nil => exact .nil
  | plain h _ ih => exact .plain h ih
  | short h _ ih => exact .short h ih
  | unit h _ _ ih => exact .unit h ih
  | pair hl ht _ _ _ ih => exact .unit hl (.unit ht ih)

/-- Without quotes, backslashes and control characters a text spells itself. -/
theorem spells_of_plain {cs : List Char} (h : ∀ c ∈ cs, Plain c) : Spells cs cs := by
  induction cs with
  | nil => exact .nil
  | cons c cs ih =>
      obtain ⟨hc, hcs⟩ := List.forall_mem_cons.mp h
      exact .plain hc (ih hcs)

/-! ## Numbers -/

/-- A run of digits. -/
def Digits (cs : List Char) : Prop := cs ≠ [] ∧ ∀ c ∈ cs, c.isDigit = true

instance : DecidablePred Digits := fun cs =>
  have : Decidable (∀ c ∈ cs, c.isDigit = true) := List.decidableBAll _ cs
  inferInstanceAs (Decidable (_ ∧ _))

/-- The digits before the point: a zero stands alone. -/
def Whole (cs : List Char) : Prop := cs = ['0'] ∨ Digits cs ∧ cs.head? ≠ some '0'

/-- The point and the digits behind it, if there is one. -/
inductive Fraction : List Char → Prop where
  | none : Fraction []
  | digits {cs : List Char} (h : Digits cs) : Fraction ('.' :: cs)

/-- The exponent with its sign, if there is one. -/
inductive Exponent : List Char → Prop where
  | none : Exponent []
  | digits {e : Char} {sign cs : List Char} (he : e = 'e' ∨ e = 'E')
      (hsign : sign = [] ∨ sign = ['+'] ∨ sign = ['-']) (h : Digits cs) :
      Exponent (e :: (sign ++ cs))

/-- A number. -/
inductive Number : List Char → Prop where
  | mk {sign whole fraction exponent : List Char} (hsign : sign = [] ∨ sign = ['-'])
      (hw : Whole whole) (hf : Fraction fraction) (he : Exponent exponent) :
      Number (sign ++ (whole ++ (fraction ++ exponent)))

/-! ## Values -/

/-- A value that is a single token. -/
inductive Scalar : List Char → Prop where
  | nullWord : Scalar ['n', 'u', 'l', 'l']
  | trueWord : Scalar ['t', 'r', 'u', 'e']
  | falseWord : Scalar ['f', 'a', 'l', 's', 'e']
  | number {cs : List Char} (h : Number cs) : Scalar cs
  | text {cs : List Char} (h : Inside cs) : Scalar ('\x22' :: (cs ++ ['\x22']))

/-- White space. -/
def Blank (cs : List Char) : Prop := ∀ c ∈ cs, Token.isBlank c = true

instance : DecidablePred Blank := fun cs => List.decidableBAll _ cs

/-- A value in an array or an object, with the white space around it. -/
structure Item where
  before : List Char
  value : List Char
  after : List Char

/-- A member of an object: the inside of its key with the white space around the key, and its
value. -/
structure Member where
  before : List Char
  key : List Char
  after : List Char
  item : Item

namespace Item

/-- The text of an item. -/
def text (i : Item) : List Char := i.before ++ (i.value ++ i.after)

/-- Nothing but white space surrounds the value. -/
structure Spaced (i : Item) : Prop where
  before : Blank i.before
  after : Blank i.after

end Item

namespace Member

/-- The text of a member. -/
def text (m : Member) : List Char :=
  m.before ++ '\x22' :: (m.key ++ '\x22' :: (m.after ++ ':' :: m.item.text))

/-- The key is a string literal, and nothing but white space surrounds it and the value. -/
structure Formed (m : Member) : Prop where
  before : Blank m.before
  key : Inside m.key
  after : Blank m.after
  item : m.item.Spaced

end Member

/-- The parts with commas in front. -/
def following (parts : List (List Char)) : List Char := parts.flatMap (',' :: ·)

theorem following_cons (part : List Char) (parts : List (List Char)) :
    following (part :: parts) = ',' :: (part ++ following parts) := List.flatMap_cons

/-- The parts with commas between. -/
def listed : List (List Char) → List Char
  | [] => []
  | part :: parts => part ++ following parts

/-- The text of an array: white space, and its items. -/
def arrayText (gap : List Char) (items : List Item) : List Char :=
  '[' :: (gap ++ (listed (items.map Item.text) ++ [']']))

/-- The text of an object: white space, and its members. -/
def objectText (gap : List Char) (members : List Member) : List Char :=
  '\x7b' :: (gap ++ (listed (members.map Member.text) ++ ['\x7d']))

/-- The text of a value. -/
inductive Value : List Char → Prop where
  | scalar {cs : List Char} (h : Scalar cs) : Value cs
  | array {gap : List Char} {items : List Item} (hgap : Blank gap)
      (hspaced : ∀ i ∈ items, i.Spaced) (h : ∀ i ∈ items, Value i.value) :
      Value (arrayText gap items)
  | object {gap : List Char} {members : List Member} (hgap : Blank gap)
      (hformed : ∀ m ∈ members, m.Formed) (h : ∀ m ∈ members, Value m.item.value) :
      Value (objectText gap members)

/-- A value between white space. -/
def Item.Valid (i : Item) : Prop := i.Spaced ∧ Value i.value

/-- A member whose value is one. -/
def Member.Valid (m : Member) : Prop := m.Formed ∧ Value m.item.value

theorem value_array {gap : List Char} {items : List Item} (hgap : Blank gap)
    (h : ∀ i ∈ items, i.Valid) : Value (arrayText gap items) :=
  .array hgap (fun i hi => (h i hi).1) fun i hi => (h i hi).2

theorem value_object {gap : List Char} {ms : List Member} (hgap : Blank gap)
    (h : ∀ m ∈ ms, m.Valid) : Value (objectText gap ms) :=
  .object hgap (fun m hm => (h m hm).1) fun m hm => (h m hm).2

/-- A JSON text: a value between white space. -/
def WellFormed (text : String) : Prop :=
  ∃ lead value trail, text.toList = lead ++ (value ++ trail) ∧ Blank lead ∧ Value value ∧
    Blank trail

end MeshAccess.Json.Grammar
