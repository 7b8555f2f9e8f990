import Mathlib.Data.List.Lex
import MeshAccess.SortedMap

/-!
# The order of texts

Texts are compared by their code points, and the keys of a map are in ascending order of these.
`utf8_lt_iff` says that this is the order of the UTF-8 bytes of the texts: where two texts differ
first, the smaller character has the smaller bytes, whatever follows them (`encode_append_lt`). So
the first key of a kind that is met is the one with the least bytes (`find?_eq_some_iff_least`).
-/

namespace MeshAccess.Text

/-- The bytes of a text in UTF-8. -/
def utf8 (s : String) : List UInt8 := s.toUTF8.data.toList

theorem utf8_ofList (cs : List Char) :
    utf8 (String.ofList cs) = cs.flatMap String.utf8EncodeChar := by
  have h : (String.ofList cs).toUTF8 = (cs.flatMap String.utf8EncodeChar).toByteArray :=
    String.toByteArray_ofList
  rw [utf8, h, List.data_toByteArray]

theorem utf8_eq_flatMap (s : String) : utf8 s = s.toList.flatMap String.utf8EncodeChar := by
  rw [← utf8_ofList, String.ofList_toList]

/-! ## Single characters -/

-- with the bound as a numeral, so that arithmetic can meet it
theorem toNat_ofNat_of_lt {n : Nat} (h : n < 256) : (UInt8.ofNat n).toNat = n :=
  UInt8.toNat_ofNat_of_lt' h

/-- Of two different characters the smaller one has the smaller bytes, whatever follows. -/
theorem encode_append_lt {c d : Char} (h : c < d) (xs ys : List UInt8) :
    String.utf8EncodeChar c ++ xs < String.utf8EncodeChar d ++ ys := by
  have hlt : c.val.toNat < d.val.toNat := h
  have hbound : d.val.toNat < 0x110000 := by
    have hvalid := d.valid
    simp only [UInt32.isValidChar, Nat.isValidChar] at hvalid
    omega
  -- as quotients by 64 all the way, the numbers differ in the first of their digits that differ
  have hdigits : ∀ n : Nat, n / 4096 = n / 64 / 64 ∧ n / 262144 = n / 64 / 64 / 64 := by
    intro n
    simp only [Nat.div_div_eq_div_mul, Nat.reduceMul, and_self]
  unfold String.utf8EncodeChar
  simp only [hdigits]
  -- a character of more bytes has the greater first byte, and else the digits decide
  repeat' split
  all_goals
    simp only [List.cons_append, List.nil_append, List.cons_lt_cons_iff, UInt8.lt_iff_toNat_lt,
      ← UInt8.toNat_inj]
    simp (disch := omega) only [toNat_ofNat_of_lt]
    omega

theorem encode_ne_nil (c : Char) : String.utf8EncodeChar c ≠ [] := by
  unfold String.utf8EncodeChar
  simp only
  repeat' split
  all_goals exact List.cons_ne_nil _ _

/-! ## Texts -/

theorem flatMap_encode_lt {cs ds : List Char} (h : cs < ds) :
    cs.flatMap String.utf8EncodeChar < ds.flatMap String.utf8EncodeChar := by
  induction cs generalizing ds with
  | nil =>
      cases ds with
      | nil => exact absurd h (List.lt_irrefl [])
      | cons d ds =>
          obtain ⟨b, bs, hb⟩ := List.exists_cons_of_ne_nil (encode_ne_nil d)
          rw [List.flatMap_cons, hb]
          exact List.nil_lt_cons b _
  | cons c cs ih =>
      cases ds with
      | nil => exact absurd h (List.not_lt_nil _)
      | cons d ds =>
          rw [List.flatMap_cons, List.flatMap_cons]
          rcases List.cons_lt_cons_iff.mp h with hcd | ⟨rfl, hrest⟩
          · exact encode_append_lt hcd _ _
          · exact List.append_left_lt (ih hrest)

/-- Texts are in the order of their bytes. -/
theorem utf8_lt_iff {s t : String} : utf8 s < utf8 t ↔ s < t := by
  have hmono : ∀ {s t : String}, s < t → utf8 s < utf8 t := by
    intro s t h
    rw [utf8_eq_flatMap, utf8_eq_flatMap]
    exact flatMap_encode_lt h
  constructor
  · intro h
    rcases Std.lt_trichotomy s t with hst | rfl | hts
    · exact hst
    · exact absurd h (List.lt_irrefl _)
    · exact absurd (hmono hts) (List.lt_asymm h)
  · exact hmono

/-! ## Lists in ascending order -/

/-- In an ascending list, the first text of a kind has the least bytes. -/
theorem find?_eq_some_iff_least {ts : List String} {test : String → Bool} {t : String}
    (h : ts.Pairwise (· < ·)) :
    ts.find? test = some t ↔
      t ∈ ts ∧ test t = true ∧ ∀ u ∈ ts, test u = true → utf8 t ≤ utf8 u := by
  induction ts with
  | nil => simp
  | cons s ts ih =>
      obtain ⟨hlt, htail⟩ := List.pairwise_cons.mp h
      by_cases hs : test s = true
      · rw [List.find?_cons_of_pos hs]
        constructor
        · intro he
          obtain rfl := Option.some.inj he
          refine ⟨List.mem_cons_self, hs, ?_⟩
          intro u hu _
          rcases List.mem_cons.mp hu with rfl | hu
          · exact List.le_refl _
          · exact List.le_of_lt (utf8_lt_iff.mpr (hlt u hu))
        · rintro ⟨ht, -, hleast⟩
          rcases List.mem_cons.mp ht with rfl | ht
          · rfl
          · exact absurd (utf8_lt_iff.mpr (hlt t ht)) (hleast s List.mem_cons_self hs)
      · rw [List.find?_cons_of_neg hs, ih htail]
        constructor
        · rintro ⟨ht, htest, hleast⟩
          refine ⟨List.mem_cons_of_mem _ ht, htest, ?_⟩
          intro u hu hutest
          rcases List.mem_cons.mp hu with rfl | hu
          · exact absurd hutest hs
          · exact hleast u hu hutest
        · rintro ⟨ht, htest, hleast⟩
          rcases List.mem_cons.mp ht with rfl | ht
          · exact absurd htest hs
          · exact ⟨ht, htest, fun u hu => hleast u (List.mem_cons_of_mem _ hu)⟩

end MeshAccess.Text
