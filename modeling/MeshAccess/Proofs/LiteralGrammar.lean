import MeshAccess.Proofs.JsonGrammar
import MeshAccess.Proofs.Tokens

/-!
# String literals and the grammar

The reader of string literals against the grammar, in both directions. `Literal.skip` finds the end
of every literal and of nothing else (`Inside.skip`, `inside_of_skip`), and `Literal.read` gives a
text exactly where the literal spells one (`Spells.read`, `spells_of_read`).

A literal in which a surrogate stands alone spells nothing. It is refused, and the fault is the same
whatever comes behind the literal (`Inside.spells_or_refused`); so a literal is one token, no
matter where it stands.
-/

namespace MeshAccess.Json.Grammar

open MeshAccess.Text

/-! ## Escapes -/

theorem shortEscape?_eq_some_iff {e c : Char} :
    Literal.shortEscape? e = some c ↔ (e, c) ∈ shortForms := by
  constructor
  · intro h
    unfold Literal.shortEscape? at h
    split at h <;> first | cases h; decide | cases h
  · intro h
    simp only [shortForms, List.mem_cons, Prod.mk.injEq, List.not_mem_nil, or_false] at h
    rcases h with ⟨rfl, rfl⟩ | ⟨rfl, rfl⟩ | ⟨rfl, rfl⟩ | ⟨rfl, rfl⟩ | ⟨rfl, rfl⟩ | ⟨rfl, rfl⟩ |
      ⟨rfl, rfl⟩ | ⟨rfl, rfl⟩ <;> rfl

/-- No short form begins like a code unit. -/
theorem ne_u_of_mem_shortForms {e c : Char} (h : (e, c) ∈ shortForms) : e ≠ 'u' := by
  rintro rfl
  have := shortEscape?_eq_some_iff.mpr h
  cases this

theorem CodeUnit.codeUnit {ds : List Char} {n : Nat} (h : CodeUnit ds n) (cs : List Char) :
    Literal.codeUnit (ds ++ cs) = .ok n := by
  rw [Literal.codeUnit, List.take_append_of_le_length (Nat.le_of_eq h.1.symm),
    List.take_of_length_le (Nat.le_of_eq h.1), h.1, h.2]
  rfl

theorem CodeUnit.drop {ds : List Char} {n : Nat} (h : CodeUnit ds n) (cs : List Char) :
    (ds ++ cs).drop 4 = cs := by
  rw [← h.1, List.drop_left]

theorem exists_codeUnit {cs : List Char} {n : Nat} (h : Literal.codeUnit cs = .ok n) :
    ∃ ds, CodeUnit ds n ∧ cs = ds ++ cs.drop 4 := by
  refine ⟨cs.take 4, ?_, (List.take_append_drop 4 cs).symm⟩
  unfold Literal.codeUnit at h
  split at h
  · rename_i hlen hread
    cases h
    exact ⟨hlen, hread⟩
  · split at h <;> cases h

theorem isLeading_iff {n : Nat} : Literal.isLeading n = true ↔ 0xd800 ≤ n ∧ n < 0xdc00 := by
  rw [Literal.isLeading, Bool.and_eq_true, decide_eq_true_iff, decide_eq_true_iff]

theorem isTrailing_iff {n : Nat} : Literal.isTrailing n = true ↔ 0xdc00 ≤ n ∧ n < 0xe000 := by
  rw [Literal.isTrailing, Bool.and_eq_true, decide_eq_true_iff, decide_eq_true_iff]

theorem isTrailing_of_isLeading {n : Nat} (h : Literal.isLeading n = true) :
    Literal.isTrailing n = false := by
  refine Bool.eq_false_iff.mpr fun ht => ?_
  have := (isLeading_iff.mp h).2
  have := (isTrailing_iff.mp ht).1
  omega

theorem bounds_of_not {n : Nat} (hlead : ¬Literal.isLeading n = true)
    (htrail : ¬Literal.isTrailing n = true) : n < 0xd800 ∨ 0xe000 ≤ n := by
  have := mt isLeading_iff.mpr hlead
  have := mt isTrailing_iff.mpr htrail
  omega

/-! ## Reading one character -/

theorem read_of_plain {c : Char} (h : Plain c) (seen cs : List Char) :
    Literal.read seen (c :: cs) = Literal.read (c :: seen) cs :=
  Literal.read_plain h.2.1 h.2.2 (Nat.not_lt.mpr h.1) seen cs

theorem read_of_short {e c : Char} (h : (e, c) ∈ shortForms) (seen cs : List Char) :
    Literal.read seen ('\\' :: e :: cs) = Literal.read (c :: seen) cs :=
  Literal.read_shortEscape (ne_u_of_mem_shortForms h) (shortEscape?_eq_some_iff.mpr h) seen cs

theorem read_of_unit {ds : List Char} {n : Nat} (h : CodeUnit ds n)
    (hn : n < 0xd800 ∨ 0xe000 ≤ n) (seen cs : List Char) :
    Literal.read seen ('\\' :: 'u' :: (ds ++ cs)) = Literal.read (Char.ofNat n :: seen) cs := by
  have hlead : Literal.isLeading n = false :=
    Bool.eq_false_iff.mpr fun hl => absurd (isLeading_iff.mp hl) (by omega)
  have htrail : Literal.isTrailing n = false :=
    Bool.eq_false_iff.mpr fun ht => absurd (isTrailing_iff.mp ht) (by omega)
  rw [Literal.read_codeUnit (h.codeUnit _) hlead htrail, h.drop]

theorem pairChar_eq (lead trail : Nat) :
    Literal.pairChar lead trail
      = Char.ofNat (0x10000 + (lead - 0xd800) * 0x400 + (trail - 0xdc00)) := by
  rw [Literal.pairChar, Nat.add_comm, Nat.add_assoc]

theorem read_of_pair {ds es : List Char} {lead trail : Nat} (hl : CodeUnit ds lead)
    (ht : CodeUnit es trail) (hlead : Literal.isLeading lead = true)
    (htrail : Literal.isTrailing trail = true) (seen cs : List Char) :
    Literal.read seen ('\\' :: 'u' :: (ds ++ '\\' :: 'u' :: (es ++ cs)))
      = Literal.read (Literal.pairChar lead trail :: seen) cs := by
  have hdrop := hl.drop ('\\' :: 'u' :: (es ++ cs))
  rw [Literal.read]
  simp only [hl.codeUnit, isTrailing_of_isLeading hlead, hlead, Bool.false_eq_true, if_false,
    if_true]
  split
  case h_3 =>
    rename_i heq
    obtain ⟨-, h⟩ := List.cons.inj (hdrop.symm.trans heq)
    obtain ⟨-, rfl⟩ := List.cons.inj h
    simp only [ht.codeUnit, ht.drop, htrail, if_true]
  case h_4 =>
    rename_i hpair
    exact absurd hdrop (hpair _)
  all_goals
    rename_i heq
    cases hdrop.symm.trans heq

/-! ## Literals are read and passed over -/

/-- Whatever its escapes name, a literal is passed over up to its closing quote. -/
theorem Inside.skip {cs : List Char} (h : Inside cs) (rest : List Char) :
    Literal.skip (cs ++ '\x22' :: rest) = .ok rest := by
  induction h with
  | nil => rw [List.nil_append, Literal.skip]
  | plain h _ ih =>
      rw [List.cons_append, Literal.skip]
      · rw [if_neg (Nat.not_lt.mpr h.1), ih]
      · exact h.2.1
      · exact fun _ hs _ => h.2.2 hs
      · exact fun _ _ hs _ => h.2.2 hs
      · exact fun hs _ => h.2.2 hs
  | short h _ ih =>
      rw [List.cons_append, List.cons_append, Literal.skip]
      · rw [shortEscape?_eq_some_iff.mpr h, Option.isSome_some, if_pos rfl, ih]
      · exact ne_u_of_mem_shortForms h
  | unit h _ ih =>
      rw [List.cons_append, List.cons_append, List.append_assoc, Literal.skip]
      simp only [h.codeUnit, h.drop, ih]

theorem reverse_cons_append (c : Char) (seen text : List Char) :
    (c :: seen).reverse ++ text = seen.reverse ++ c :: text := by
  rw [List.reverse_cons, List.append_assoc, List.singleton_append]

/-- A literal that spells a text is read as that text. -/
theorem Spells.read {cs text : List Char} (h : Spells cs text) (seen rest : List Char) :
    Literal.read seen (cs ++ '\x22' :: rest) = .ok (seen.reverse ++ text, rest) := by
  induction h generalizing seen with
  | nil => rw [List.nil_append, Literal.read, List.append_nil]
  | plain h _ ih => rw [List.cons_append, read_of_plain h, ih, reverse_cons_append]
  | short h _ ih =>
      rw [List.cons_append, List.cons_append, read_of_short h, ih, reverse_cons_append]
  | unit h hn _ ih =>
      rw [List.cons_append, List.cons_append, List.append_assoc, read_of_unit h hn, ih,
        reverse_cons_append]
  | pair hl ht hlead htrail _ ih =>
      simp only [List.cons_append, List.append_assoc]
      rw [read_of_pair hl ht (isLeading_iff.mpr hlead) (isTrailing_iff.mpr htrail), ih,
        reverse_cons_append, pairChar_eq]

/-! ## What is read and passed over is a literal -/

/-- A character that no pattern with a backslash matched is none. -/
theorem ne_backslash {c : Char} {cs : List Char}
    (hslash : ∀ e es, c = '\\' → cs = e :: es → False) (hend : c = '\\' → cs = [] → False) :
    c ≠ '\\' := by
  rintro rfl
  cases cs with
  | nil => exact hend rfl rfl
  | cons e es => exact hslash e es rfl rfl

/-- What is read as a text spells it. -/
theorem spells_of_read {seen cs text rest : List Char}
    (h : Literal.read seen cs = .ok (text, rest)) :
    ∃ inside tail, cs = inside ++ '\x22' :: rest ∧ text = seen.reverse ++ tail ∧
      Spells inside tail := by
  fun_induction Literal.read seen cs with
  | case2 seen rest' =>
      cases h
      exact ⟨[], [], rfl, (List.append_nil _).symm, .nil⟩
  | case8 seen cs lead hunit _ hlead ds hdrop trail hunit' htrail ih =>
      obtain ⟨us, hus, heq⟩ := exists_codeUnit hunit
      obtain ⟨vs, hvs, heq'⟩ := exists_codeUnit hunit'
      obtain ⟨inside, tail, hrest, rfl, hspells⟩ := ih h
      rw [hrest] at heq'
      rw [hdrop, heq'] at heq
      rw [pairChar_eq]
      refine ⟨_, _, ?_, reverse_cons_append _ _ _,
        .pair hus hvs (isLeading_iff.mp hlead) (isTrailing_iff.mp htrail) hspells⟩
      rw [heq]
      simp only [List.cons_append, List.append_assoc]
  | case11 seen cs n hunit htrail hlead ih =>
      obtain ⟨us, hus, heq⟩ := exists_codeUnit hunit
      obtain ⟨inside, tail, hrest, rfl, hspells⟩ := ih h
      have hn := bounds_of_not hlead htrail
      refine ⟨_, _, ?_, reverse_cons_append _ _ _, .unit hus hn hspells⟩
      rw [heq, hrest]
      simp only [List.cons_append, List.append_assoc]
  | case12 seen e cs _ c hshort ih =>
      obtain ⟨inside, tail, rfl, rfl, hspells⟩ := ih h
      exact ⟨_, _, rfl, reverse_cons_append _ _ _,
        .short (shortEscape?_eq_some_iff.mp hshort) hspells⟩
  | case16 seen c cs hquote _ hslash hend hplain ih =>
      obtain ⟨inside, tail, rfl, rfl, hspells⟩ := ih h
      have hc : Plain c := ⟨Nat.not_lt.mp hplain, hquote, ne_backslash hslash hend⟩
      exact ⟨_, _, rfl, reverse_cons_append _ _ _, .plain hc hspells⟩
  | _ => cases h

/-- What is passed over is the inside of a literal. -/
theorem inside_of_skip {cs rest : List Char} (h : Literal.skip cs = .ok rest) :
    ∃ inside, cs = inside ++ '\x22' :: rest ∧ Inside inside := by
  fun_induction Literal.skip cs with
  | case2 rest' =>
      cases h
      exact ⟨[], rfl, .nil⟩
  | case4 cs n hunit ih =>
      obtain ⟨us, hus, heq⟩ := exists_codeUnit hunit
      obtain ⟨inside, hrest, hinside⟩ := ih h
      refine ⟨_, ?_, .unit hus hinside⟩
      rw [heq, hrest]
      simp only [List.cons_append, List.append_assoc]
  | case5 e cs _ hshort ih =>
      obtain ⟨c, hc⟩ := Option.isSome_iff_exists.mp hshort
      obtain ⟨inside, rfl, hinside⟩ := ih h
      exact ⟨_, rfl, .short (shortEscape?_eq_some_iff.mp hc) hinside⟩
  | case9 c cs hquote _ hslash hend hplain ih =>
      obtain ⟨inside, rfl, hinside⟩ := ih h
      have hc : Plain c := ⟨Nat.not_lt.mp hplain, hquote, ne_backslash hslash hend⟩
      exact ⟨_, rfl, .plain hc hinside⟩
  | _ => cases h

/-! ## Surrogates that stand alone -/

/-- What is refused between quotes, whatever comes before it and behind. -/
def Refused (cs : List Char) : Prop :=
  ∀ seen rest, Literal.read seen (cs ++ '\x22' :: rest) = .error .malformed

theorem Refused.plain {c : Char} {cs : List Char} (hc : Plain c) (h : Refused cs) :
    Refused (c :: cs) := by
  intro seen rest
  rw [List.cons_append, read_of_plain hc, h]

theorem Refused.short {e c : Char} {cs : List Char} (he : (e, c) ∈ shortForms) (h : Refused cs) :
    Refused ('\\' :: e :: cs) := by
  intro seen rest
  rw [List.cons_append, List.cons_append, read_of_short he, h]

theorem Refused.unit {ds cs : List Char} {n : Nat} (hu : CodeUnit ds n)
    (hn : n < 0xd800 ∨ 0xe000 ≤ n) (h : Refused cs) : Refused ('\\' :: 'u' :: (ds ++ cs)) := by
  intro seen rest
  rw [List.cons_append, List.cons_append, List.append_assoc, read_of_unit hu hn, h]

theorem Refused.pair {ds es cs : List Char} {lead trail : Nat} (hl : CodeUnit ds lead)
    (ht : CodeUnit es trail) (hlead : Literal.isLeading lead = true)
    (htrail : Literal.isTrailing trail = true) (h : Refused cs) :
    Refused ('\\' :: 'u' :: (ds ++ '\\' :: 'u' :: (es ++ cs))) := by
  intro seen rest
  simp only [List.cons_append, List.append_assoc]
  rw [read_of_pair hl ht hlead htrail, h]

theorem refused_trailing {ds : List Char} {n : Nat} (hu : CodeUnit ds n)
    (htrail : Literal.isTrailing n = true) (cs : List Char) :
    Refused ('\\' :: 'u' :: (ds ++ cs)) := by
  intro seen rest
  rw [List.cons_append, List.cons_append, List.append_assoc, Literal.read]
  simp only [hu.codeUnit, htrail, if_true]

/-- A leading surrogate is refused without a trailing one behind it. -/
theorem refused_leading {ds cs : List Char} {lead : Nat} (hl : CodeUnit ds lead)
    (hlead : Literal.isLeading lead = true) (h : Inside cs)
    (hlone : ∀ es n tail, cs = '\\' :: 'u' :: (es ++ tail) → CodeUnit es n →
      ¬Literal.isTrailing n = true) : Refused ('\\' :: 'u' :: (ds ++ cs)) := by
  intro seen rest
  have hdrop := hl.drop (cs ++ '\x22' :: rest)
  rw [List.cons_append, List.cons_append, List.append_assoc, Literal.read]
  simp only [hl.codeUnit, isTrailing_of_isLeading hlead, hlead, Bool.false_eq_true, if_false,
    if_true]
  -- what the reader finds behind the four digits is what `cs` begins with
  split
  · rename_i heq
    exact absurd (hdrop.symm.trans heq) (by simp)
  · rename_i heq
    have happ := hdrop.symm.trans heq
    cases cs with
    | nil => cases happ
    | cons c cs => simp at happ
  · rename_i us heq
    have happ := hdrop.symm.trans heq
    cases h with
    | nil => cases happ
    | plain h _ => exact absurd (List.cons.inj happ).1 h.2.2
    | short h _ =>
        have hu := (List.cons.inj (List.cons.inj happ).2).1
        exact absurd hu (ne_u_of_mem_shortForms h)
    | @unit es cs n h _ =>
        have hus : es ++ cs ++ '\x22' :: rest = us := (List.cons.inj (List.cons.inj happ).2).2
        rw [← hus, List.append_assoc, h.codeUnit]
        simp only [hlone es n cs rfl h, Bool.false_eq_true, if_false]
  · rfl

theorem Inside.behind_unit {ds cs : List Char} {n : Nat} (hn : CodeUnit ds n)
    (h : Inside ('\\' :: 'u' :: (ds ++ cs))) : Inside cs := by
  generalize heq : '\\' :: 'u' :: (ds ++ cs) = all at h
  cases h with
  | nil => cases heq
  | plain h _ => exact absurd (List.cons.inj heq).1.symm h.2.2
  | short h _ =>
      exact absurd (List.cons.inj (List.cons.inj heq).2).1.symm (ne_u_of_mem_shortForms h)
  | unit h tail =>
      have happ := (List.cons.inj (List.cons.inj heq).2).2
      rw [(List.append_inj happ (hn.1.trans h.1.symm)).2]
      exact tail

/-- What may stand between quotes either spells a text or is refused. -/
theorem Inside.spells_or_refused {cs : List Char} (h : Inside cs) :
    (∃ text, Spells cs text) ∨ Refused cs := by
  -- by induction on the length, since a pair of escapes is read as one character
  induction hlen : cs.length using Nat.strongRecOn generalizing cs with
  | ind len ih =>
      have hrest : ∀ {tail}, Inside tail → tail.length < cs.length →
          (∃ text, Spells tail text) ∨ Refused tail := fun ht hlt => ih _ (hlen ▸ hlt) ht rfl
      cases h with
      | nil => exact .inl ⟨[], .nil⟩
      | plain hc tail =>
          refine (hrest tail (Nat.lt_succ_self _)).imp ?_ (.plain hc)
          exact fun ⟨_, hspells⟩ => ⟨_, .plain hc hspells⟩
      | short he tail =>
          refine (hrest tail (by simp only [List.length_cons]; omega)).imp ?_ (.short he)
          exact fun ⟨_, hspells⟩ => ⟨_, .short he hspells⟩
      | @unit ds cs n hu tail =>
          by_cases htrail : Literal.isTrailing n = true
          · exact .inr (refused_trailing hu htrail cs)
          by_cases hlead : Literal.isLeading n = true
          -- a leading surrogate needs a trailing one right behind it, which is taken with it
          · by_cases hpair : ∃ es m tail, cs = '\\' :: 'u' :: (es ++ tail) ∧ CodeUnit es m ∧
                Literal.isTrailing m = true
            · obtain ⟨es, m, cs, rfl, hm, htrail⟩ := hpair
              refine (hrest (tail.behind_unit hm) (by
                simp only [List.length_cons, List.length_append]; omega)).imp ?_
                  (.pair hu hm hlead htrail)
              exact fun ⟨_, hspells⟩ =>
                ⟨_, .pair hu hm (isLeading_iff.mp hlead) (isTrailing_iff.mp htrail) hspells⟩
            · refine .inr (refused_leading hu hlead tail fun es m cs heq hm htrail => ?_)
              exact hpair ⟨es, m, cs, heq, hm, htrail⟩
          · have hn := bounds_of_not hlead htrail
            refine (hrest tail (by simp only [List.length_cons, List.length_append]; omega)).imp ?_
              (.unit hu hn)
            exact fun ⟨_, hspells⟩ => ⟨_, .unit hu hn hspells⟩

end MeshAccess.Json.Grammar
