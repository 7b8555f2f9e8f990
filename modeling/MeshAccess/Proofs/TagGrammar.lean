import MeshAccess.Tag

/-!
# The grammar of tags

`Spelled` says which texts are tags: `tag:` and a name of one to fifty characters from a small set.
`HasFault` says what is wrong with any other text, and leaves open how long a name is: the length
may be the number of its characters or the number of its bytes.

`ofText_classified` puts both together. The texts accepted are the ones spelled as tags, since a
name from the set has a byte for each character. Faults are told by bytes, and this is the fault
told by characters unless the text is `Overweight`: of such a text the name is said to be too long
even where it has few characters, and its length is not the number of its characters
(`ofText_counts_bytes`).
-/

namespace MeshAccess

/-! ## Characters and bytes -/

namespace Text

theorem utf8Length_ofList (cs : List Char) :
    utf8Length cs = (String.ofList cs).utf8ByteSize := by
  induction cs with
  | nil => rfl
  | cons c cs ih =>
      show c.utf8Size + utf8Length cs = _
      rw [ih, ← List.singleton_append, String.ofList_append, String.utf8ByteSize_append,
        ← String.singleton_eq_ofList, String.utf8ByteSize_singleton]

theorem utf8Length_toList (s : String) : utf8Length s.toList = s.utf8ByteSize := by
  rw [utf8Length_ofList, String.ofList_toList]

theorem length_le_utf8Length (cs : List Char) : cs.length ≤ utf8Length cs := by
  induction cs with
  | nil => exact Nat.le_refl 0
  | cons c cs ih =>
      show cs.length + 1 ≤ c.utf8Size + utf8Length cs
      have hc := c.utf8Size_pos
      omega

theorem utf8Length_eq_length_iff {cs : List Char} :
    utf8Length cs = cs.length ↔ ∀ c ∈ cs, c.toNat ≤ 127 := by
  induction cs with
  | nil => exact ⟨fun _ => nofun, fun _ => rfl⟩
  | cons c cs ih =>
      have hsize : c.utf8Size = 1 ↔ c.toNat ≤ 127 := Char.utf8Size_eq_one_iff
      have hpos := c.utf8Size_pos
      have hle := length_le_utf8Length cs
      rw [List.forall_mem_cons, ← ih, ← hsize]
      show c.utf8Size + utf8Length cs = cs.length + 1 ↔ _
      omega

theorem length_le_utf8ByteSize (s : String) : s.length ≤ s.utf8ByteSize := by
  have h := length_le_utf8Length s.toList
  rwa [utf8Length_toList, String.length_toList] at h

/-- A text has as many bytes as characters when all of them are among the first 128. -/
theorem utf8ByteSize_eq_length_iff {s : String} :
    s.utf8ByteSize = s.length ↔ ∀ c ∈ s.toList, c.toNat ≤ 127 := by
  rw [← utf8Length_eq_length_iff, utf8Length_toList, String.length_toList]

end Text

namespace Tag

open Text (length_le_utf8ByteSize utf8ByteSize_eq_length_iff)

/-! ## The grammar -/

/-- A letter from a to z, a digit, a hyphen or an underscore. -/
inductive NameChar : Char → Prop where
  | letter {c : Char} (hfrom : 'a' ≤ c) (hto : c ≤ 'z') : NameChar c
  | digit {c : Char} (hfrom : '0' ≤ c) (hto : c ≤ '9') : NameChar c
  | hyphen : NameChar '-'
  | underscore : NameChar '_'

/-- The text is `tag:` and a name of one to fifty such characters. -/
inductive Spelled : String → Prop where
  | tag {name : String} (hne : 1 ≤ name.length) (hfew : name.length ≤ 50)
      (hchars : ∀ c ∈ name.toList, NameChar c) : Spelled ("tag:" ++ name)

/-- What is wrong with a text, where names are as long as `size` says. -/
inductive HasFault (size : String → Nat) : String → TagFault → Prop where
  | missingPrefix {s : String} (h : ∀ name, s ≠ "tag:" ++ name) : HasFault size s .missingPrefix
  | emptyName : HasFault size "tag:" .emptyName
  | nameTooLong {name : String} (hlong : 50 < size name) :
      HasFault size ("tag:" ++ name) (.nameTooLong (size name))
  | invalidCharacters {name : String} (hne : name ≠ "") (hshort : size name ≤ 50)
      (hbad : ¬∀ c ∈ name.toList, NameChar c) : HasFault size ("tag:" ++ name) .invalidCharacters

/-- Behind `tag:` stands a name of more than fifty bytes, and some character of it takes more than
one. -/
def Overweight (s : String) : Prop :=
  ∃ name, s = "tag:" ++ name ∧ 50 < name.utf8ByteSize ∧ ∃ c ∈ name.toList, 127 < c.toNat

theorem isNameChar_iff {c : Char} : isNameChar c = true ↔ NameChar c := by
  simp only [isNameChar, Bool.or_eq_true, Bool.and_eq_true, decide_eq_true_eq, beq_iff_eq]
  constructor
  · rintro (((⟨hfrom, hto⟩ | ⟨hfrom, hto⟩) | rfl) | rfl)
    · exact .letter hfrom hto
    · exact .digit hfrom hto
    · exact .hyphen
    · exact .underscore
  · intro h
    cases h with
    | letter hfrom hto => exact .inl (.inl (.inl ⟨hfrom, hto⟩))
    | digit hfrom hto => exact .inl (.inl (.inr ⟨hfrom, hto⟩))
    | hyphen => exact .inl (.inr rfl)
    | underscore => exact .inr rfl

theorem all_isNameChar_iff {cs : List Char} :
    cs.all isNameChar = true ↔ ∀ c ∈ cs, NameChar c := by
  simp only [List.all_eq_true, isNameChar_iff]

theorem NameChar.toNat_le {c : Char} (h : NameChar c) : c.toNat ≤ 127 := by
  cases h with
  | letter _ hto => exact Nat.le_trans hto (by decide)
  | digit _ hto => exact Nat.le_trans hto (by decide)
  | hyphen => decide
  | underscore => decide

/-! ## What the check finds -/

theorem toList_tag_append (name : String) : ("tag:" ++ name).toList = start ++ name.toList :=
  String.toList_append

theorem fault?_of_ne {s : String} (h : ∀ name, s ≠ "tag:" ++ name) :
    fault? s = some .missingPrefix := by
  have hdrop : Text.dropStart? start s.toList = none := by
    rw [Text.dropStart?_eq_none_iff]
    rintro ⟨cs, hcs⟩
    refine h (String.ofList cs) (String.toList_inj.mp ?_)
    rw [toList_tag_append, String.toList_ofList, hcs]
  rw [fault?, hdrop]

theorem fault?_append (name : String) :
    fault? ("tag:" ++ name)
      = if name = "" then some .emptyName
        else if 50 < name.utf8ByteSize then some (.nameTooLong name.utf8ByteSize)
        else if name.toList.all isNameChar then none
        else some .invalidCharacters := by
  have hdrop : Text.dropStart? start ("tag:" ++ name).toList = some name.toList :=
    Text.dropStart?_eq_some_iff.mpr (toList_tag_append name)
  have hsize := Text.utf8Length_toList name
  rw [fault?, hdrop]
  split
  · contradiction
  · rename_i hnil
    rw [if_pos (String.toList_eq_nil_iff.mp (Option.some.inj hnil))]
  · rename_i cs hnonempty hcs
    obtain rfl : name.toList = cs := Option.some.inj hcs
    have hne : name ≠ "" := by
      rintro rfl
      exact hnonempty rfl
    rw [if_neg hne, hsize]
    rfl

variable {s : String} {f : TagFault} {size size' : String → Nat}

theorem Spelled.fault?_eq_none (h : Spelled s) : fault? s = none := by
  cases h with
  | @tag name hne hfew hchars =>
      -- such a name has a byte for each character, so that it is short either way
      have hsize : name.utf8ByteSize = name.length :=
        utf8ByteSize_eq_length_iff.mpr fun c hc => (hchars c hc).toNat_le
      have hshort : ¬50 < name.utf8ByteSize := by omega
      rw [fault?_append, if_neg, if_neg hshort, if_pos (all_isNameChar_iff.mpr hchars)]
      rintro rfl
      cases hne

theorem HasFault.fault?_eq_some (h : HasFault String.utf8ByteSize s f) : fault? s = some f := by
  cases h with
  | missingPrefix h => exact fault?_of_ne h
  | emptyName => exact fault?_append ""
  | @nameTooLong name hlong =>
      rw [fault?_append, if_neg, if_pos hlong]
      rintro rfl
      cases hlong
  | @invalidCharacters name hne hshort hbad =>
      rw [fault?_append, if_neg hne, if_neg (Nat.not_lt.mpr hshort),
        if_neg (mt all_isNameChar_iff.mp hbad)]

/-- A text that is not spelled as a tag has a fault. -/
theorem spelled_or_hasFault (s : String) :
    Spelled s ∨ ∃ f, HasFault String.utf8ByteSize s f := by
  by_cases hs : ∃ name, s = "tag:" ++ name
  · obtain ⟨name, rfl⟩ := hs
    by_cases hne : name = ""
    · rw [hne]
      exact .inr ⟨_, .emptyName⟩
    by_cases hlong : 50 < name.utf8ByteSize
    · exact .inr ⟨_, .nameTooLong hlong⟩
    have hshort : name.utf8ByteSize ≤ 50 := Nat.le_of_not_lt hlong
    by_cases hchars : ∀ c ∈ name.toList, NameChar c
    · have hfew : name.length ≤ 50 := Nat.le_trans (length_le_utf8ByteSize name) hshort
      exact .inl (.tag (Nat.pos_of_ne_zero (mt String.length_eq_zero_iff.mp hne)) hfew hchars)
    · exact .inr ⟨_, .invalidCharacters hne hshort hchars⟩
  · exact .inr ⟨_, .missingPrefix (not_exists.mp hs)⟩

theorem fault?_eq_none_iff : fault? s = none ↔ Spelled s := by
  constructor
  · intro h
    rcases spelled_or_hasFault s with hs | ⟨f, hf⟩
    · exact hs
    · rw [hf.fault?_eq_some] at h
      cases h
  · exact Spelled.fault?_eq_none

theorem fault?_eq_some_iff : fault? s = some f ↔ HasFault String.utf8ByteSize s f := by
  constructor
  · intro h
    rcases spelled_or_hasFault s with hs | ⟨g, hg⟩
    · rw [hs.fault?_eq_none] at h
      cases h
    · obtain rfl : g = f := Option.some.inj (hg.fault?_eq_some.symm.trans h)
      exact hg
  · exact HasFault.fault?_eq_some

/-! ## Characters in place of bytes -/

/-- Another way of measuring names comes to the same fault where the name is equally long or short
enough either way. -/
theorem HasFault.of_size (h : HasFault size s f)
    (hsize : ∀ name, s = "tag:" ++ name →
      size name = size' name ∨ size name ≤ 50 ∧ size' name ≤ 50) : HasFault size' s f := by
  cases h with
  | missingPrefix h => exact .missingPrefix h
  | emptyName => exact .emptyName
  | @nameTooLong name hlong =>
      rcases hsize name rfl with heq | ⟨hshort, -⟩
      · rw [heq] at hlong ⊢
        exact .nameTooLong hlong
      · exact absurd hlong (Nat.not_lt.mpr hshort)
  | @invalidCharacters name hne hshort hbad =>
      rcases hsize name rfl with heq | ⟨-, hshort'⟩
      · exact .invalidCharacters hne (heq ▸ hshort) hbad
      · exact .invalidCharacters hne hshort' hbad

theorem HasFault.eq_size {n : Nat} (h : HasFault size s (.nameTooLong n)) :
    ∃ name, s = "tag:" ++ name ∧ n = size name := by
  cases h with
  | @nameTooLong name _ => exact ⟨name, rfl, rfl⟩

/-- Faults told by bytes are those told by characters just where no name is overweight. -/
theorem hasFault_length_iff :
    (∀ f, HasFault String.utf8ByteSize s f ↔ HasFault String.length s f) ↔ ¬Overweight s := by
  constructor
  · rintro hsame ⟨name, rfl, hlong, c, hc, hwide⟩
    obtain ⟨other, hother, hsize⟩ := ((hsame _).mp (.nameTooLong hlong)).eq_size
    obtain rfl : name = other := (String.append_right_inj _).mp hother
    have hnarrow := utf8ByteSize_eq_length_iff.mp hsize c hc
    omega
  · intro hlight f
    have hsize : ∀ name, s = "tag:" ++ name → name.utf8ByteSize = name.length ∨
        name.utf8ByteSize ≤ 50 ∧ name.length ≤ 50 := by
      intro name hs
      have hle := length_le_utf8ByteSize name
      by_cases hlong : 50 < name.utf8ByteSize
      · refine .inl (utf8ByteSize_eq_length_iff.mpr fun c hc => Nat.le_of_not_lt ?_)
        intro hwide
        exact hlight ⟨name, hs, hlong, c, hc, hwide⟩
      · exact .inr (by omega)
    constructor
    · intro h
      exact h.of_size hsize
    · intro h
      exact h.of_size fun name hs => (hsize name hs).imp Eq.symm And.symm

/-- **Tags are accepted by their grammar and refused by their bytes.** A text is read as a tag, and
then as the tag of that text, exactly if it is spelled as one. Any other text has one fault: the
missing prefix, the missing name, a name of more than fifty bytes with the number of its bytes, or
a character that no name may hold, and the first of these counts. It is the fault that the text has
with characters counted in place of bytes, unless the name takes more than fifty bytes and has a
character beyond the first 128. -/
theorem ofText_classified (s : String) :
    ((∃ t, ofText s = .ok t ∧ t.text = s) ↔ Spelled s) ∧
      (∀ f, ofText s = .error f ↔ HasFault String.utf8ByteSize s f) ∧
      ((∀ f, ofText s = .error f ↔ HasFault String.length s f) ↔ ¬Overweight s) := by
  have hfaults : ∀ f, ofText s = .error f ↔ HasFault String.utf8ByteSize s f := by
    intro f
    rw [ofText_eq_error_iff, fault?_eq_some_iff]
  refine ⟨?_, hfaults, ?_⟩
  · rw [← fault?_eq_none_iff]
    constructor
    · rintro ⟨t, -, rfl⟩
      exact t.valid
    · intro h
      exact ⟨⟨s, h⟩, ofText_eq_ok_iff.mpr rfl, rfl⟩
  · simp only [hfaults]
    exact hasFault_length_iff

/-- A name of twenty-six characters that take two bytes each. -/
def accentedName : String := String.ofList (List.replicate 26 'é')

/-- The name is said to be too long at fifty-two, though it has only twenty-six characters; told by
characters the fault is that they are none that a name may hold. -/
theorem ofText_counts_bytes :
    ofText ("tag:" ++ accentedName) = .error (.nameTooLong 52) ∧
      HasFault String.length ("tag:" ++ accentedName) .invalidCharacters ∧
      ¬∀ (s : String) (f : TagFault), ofText s = .error f ↔ HasFault String.length s f := by
  have hcode : ofText ("tag:" ++ accentedName) = .error (.nameTooLong 52) :=
    ofText_eq_error_iff.mpr (by decide)
  have hlength : accentedName.length = 26 := String.length_ofList.trans List.length_replicate
  have hne : accentedName ≠ "" := by decide
  have hbad : ¬∀ c ∈ accentedName.toList, NameChar c :=
    mt all_isNameChar_iff.mpr (by decide)
  have hchars : HasFault String.length ("tag:" ++ accentedName) .invalidCharacters :=
    .invalidCharacters hne (hlength ▸ by decide) hbad
  refine ⟨hcode, hchars, ?_⟩
  intro hclaim
  have h := (hclaim _ _).mpr hchars
  rw [hcode] at h
  cases h

end Tag

end MeshAccess
