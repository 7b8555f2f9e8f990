import MeshAccess.Proofs.LiteralGrammar
import MeshAccess.Proofs.NumberGrammar

/-!
# Tokens and the grammar

The tokens of a text against the grammar, in both directions. A piece of a well-formed text is taken
off as one token whatever comes behind it (`Inside.exists_token`, `Scalar.exists_token`). The other
way, `Written` tells the form of what each token is written with, and what is taken off as a token
has that form (`written_of_next`), unless the token is one that fits nowhere.
-/

namespace MeshAccess.Json.Grammar

/-! ## Kinds of tokens -/

/-- The tokens that stand for string literals. -/
inductive IsLiteral : Token → Prop where
  | text (s : String) : IsLiteral (.text s)
  | broken (f : Fault) : IsLiteral (.brokenText f none)

/-- The tokens that stand for numbers and words. -/
inductive IsAtom : Token → Prop where
  | null : IsAtom .null
  | bool (b : Bool) : IsAtom (.bool b)
  | natural (n : Nat) : IsAtom (.natural n)
  | number : IsAtom .number
  | beyond (f : Fault) : IsAtom (.brokenScalar f none)

/-- The tokens that are values by themselves. -/
def IsScalar (t : Token) : Prop := IsAtom t ∨ IsLiteral t

/-- The tokens that fit nowhere in a document. -/
inductive Unfit : Token → Prop where
  | text (read skip : Fault) : Unfit (.brokenText read (some skip))
  | scalar (read skip : Fault) : Unfit (.brokenScalar read (some skip))
  | stray : Unfit .stray
  | ended : Unfit .ended

/-- The character that a token without a value is. -/
def mark? : Token → Option Char
  | .openObject => some '\x7b'
  | .closeObject => some '\x7d'
  | .openArray => some '['
  | .closeArray => some ']'
  | .colon => some ':'
  | .comma => some ','
  | _ => none

/-- What a token is written with. -/
inductive Written : Token → List Char → Prop where
  | mark {t : Token} {c : Char} (h : mark? t = some c) : Written t [c]
  | literal {t : Token} {cs : List Char} (ht : IsLiteral t) (h : Inside cs) :
      Written t ('\x22' :: (cs ++ ['\x22']))
  | atom {t : Token} {cs : List Char} (ht : IsAtom t) (h : Scalar cs) : Written t cs

namespace Written

variable {t : Token} {cs : List Char}

theorem eq_mark {c : Char} (h : Written t cs) (ht : mark? t = some c) : cs = [c] := by
  cases h with
  | mark h => rw [Option.some.inj (h.symm.trans ht)]
  | literal h _ => cases h <;> cases ht
  | atom h _ => cases h <;> cases ht

theorem exists_inside (h : Written t cs) (ht : IsLiteral t) :
    ∃ inside, cs = '\x22' :: (inside ++ ['\x22']) ∧ Inside inside := by
  cases h with
  | mark h => cases ht <;> cases h
  | literal _ h => exact ⟨_, rfl, h⟩
  | atom h _ => cases ht <;> cases h

theorem scalar (h : Written t cs) (ht : IsScalar t) : Scalar cs := by
  rcases ht with ht | ht
  · cases h with
    | mark h => cases ht <;> cases h
    | literal h _ => cases ht <;> cases h
    | atom _ h => exact h
  · obtain ⟨inside, rfl, hinside⟩ := h.exists_inside ht
    exact .text hinside

end Written

/-! ## Taking off what is well-formed -/

theorem nextText_of_spells {cs text : List Char} (h : Spells cs text) (rest : List Char) :
    Token.nextText (cs ++ '\x22' :: rest) = (.text (String.ofList text), rest) := by
  rw [Token.nextText, h.read]
  rfl

/-- A string literal is one token, the same whatever comes behind it. -/
theorem Inside.exists_token {cs : List Char} (h : Inside cs) :
    ∃ t, IsLiteral t ∧ ∀ rest, Token.nextText (cs ++ '\x22' :: rest) = (t, rest) := by
  rcases h.spells_or_refused with ⟨text, hs⟩ | hbad
  · exact ⟨_, .text _, nextText_of_spells hs⟩
  · refine ⟨_, .broken .malformed, fun rest => ?_⟩
    rw [Token.nextText, hbad]
    simp only [h.skip]

theorem isAtom_natural? (n : Numeral) : IsAtom ((n.natural?.map Token.natural).getD .number) := by
  cases n.natural? with
  | none => exact .number
  | some m => exact .natural m

theorem Number.exists_token {cs : List Char} (h : Number cs) :
    ∃ t, IsAtom t ∧ ∀ rest, Ends rest → Token.nextNumber (cs ++ rest) = (t, rest) := by
  obtain ⟨n, hn⟩ := h.read
  by_cases hfinite : n.isFinite = true
  · refine ⟨_, isAtom_natural? n, fun rest hr => ?_⟩
    rw [Token.nextNumber, hn rest hr]
    exact if_pos hfinite
  · refine ⟨_, .beyond .malformed, fun rest hr => ?_⟩
    rw [Token.nextNumber, hn rest hr]
    exact if_neg hfinite

theorem nextWord_append (whole : Token) (word rest : List Char) :
    Token.nextWord whole word (word ++ rest) = (whole, rest) := by
  induction word with
  | nil => rfl
  | cons w word ih => rw [List.cons_append, Token.nextWord, if_pos rfl, ih]

theorem next_word {c : Char} {word : List Char} {whole : Token} (hc : Token.isBlank c = false)
    (h : ∀ cs, Token.startingWith c cs = Token.nextWord whole word cs) (rest : List Char) :
    Token.next (c :: word ++ rest) = some (whole, rest) := by
  rw [List.cons_append, Token.next_cons hc, h, nextWord_append]

theorem Number.exists_cons {cs : List Char} (h : Number cs) :
    ∃ c tail, cs = c :: tail ∧ (c = '-' ∨ c.isDigit = true) := by
  obtain ⟨hsign, hw, -, -⟩ := h
  rcases hsign with rfl | rfl
  · obtain ⟨hne, hall⟩ := hw.digits
    obtain ⟨d, ds, rfl⟩ := List.exists_cons_of_ne_nil hne
    exact ⟨d, _, rfl, .inr (hall d List.mem_cons_self)⟩
  · exact ⟨'-', _, rfl, .inl rfl⟩

/-- A number begins with a sign or a digit. -/
theorem next_number {c : Char} (h : c = '-' ∨ c.isDigit = true) (cs : List Char) :
    Token.next (c :: cs) = some (Token.nextNumber (c :: cs)) := by
  rcases h with rfl | h
  · exact Token.next_cons (by decide) cs
  · rw [Token.next_cons (Token.isBlank_of_isDigit h), Token.startingWith_digit h]

/-- A value without parts is one token, the same whatever comes behind it. -/
theorem Scalar.exists_token {cs : List Char} (h : Scalar cs) :
    ∃ t, IsScalar t ∧ ∀ rest, Ends rest → Token.next (cs ++ rest) = some (t, rest) := by
  cases h with
  | nullWord => exact ⟨_, .inl .null, fun rest _ => next_word (by decide) (fun _ => rfl) rest⟩
  | trueWord =>
      exact ⟨_, .inl (.bool true), fun rest _ => next_word (by decide) (fun _ => rfl) rest⟩
  | falseWord =>
      exact ⟨_, .inl (.bool false), fun rest _ => next_word (by decide) (fun _ => rfl) rest⟩
  | number h =>
      obtain ⟨t, ht, hnext⟩ := h.exists_token
      obtain ⟨c, tail, rfl, hc⟩ := h.exists_cons
      refine ⟨t, .inl ht, fun rest hr => ?_⟩
      rw [List.cons_append, next_number hc, ← List.cons_append, hnext rest hr]
  | text h =>
      obtain ⟨t, ht, hnext⟩ := h.exists_token
      refine ⟨t, .inr ht, fun rest _ => ?_⟩
      rw [List.cons_append, List.append_assoc, Token.next_cons (by decide)]
      exact congrArg some (hnext rest)

/-! ## What is taken off as a token -/

theorem inside_of_nextText {cs rest : List Char} {t : Token} (h : Token.nextText cs = (t, rest))
    (ht : ¬Unfit t) :
    IsLiteral t ∧ ∃ inside, cs = inside ++ '\x22' :: rest ∧ Inside inside := by
  unfold Token.nextText at h
  split at h
  · rename_i hread
    cases h
    obtain ⟨inside, tail, hcs, -, hspells⟩ := spells_of_read hread
    exact ⟨.text _, inside, hcs, hspells.inside⟩
  · split at h
    · rename_i hskip
      cases h
      exact ⟨.broken _, inside_of_skip hskip⟩
    · cases h
      exact absurd (.text _ _) ht

theorem number_of_nextNumber {cs rest : List Char} {t : Token}
    (h : Token.nextNumber cs = (t, rest)) (ht : ¬Unfit t) :
    IsAtom t ∧ ∃ num, cs = num ++ rest ∧ Number num := by
  unfold Token.nextNumber at h
  split at h
  · cases h
    exact absurd (.scalar _ _) ht
  · rename_i n _ hread
    split at h
    · cases h
      exact ⟨isAtom_natural? n, number_of_read hread⟩
    · cases h
      exact ⟨.beyond _, number_of_read hread⟩

theorem word_of_nextWord {whole t : Token} {word cs rest : List Char}
    (h : Token.nextWord whole word cs = (t, rest)) (ht : ¬Unfit t) :
    t = whole ∧ cs = word ++ rest := by
  fun_induction Token.nextWord whole word cs with
  | case1 cs => cases h; exact ⟨rfl, rfl⟩
  | case2 => cases h; exact absurd (.scalar _ _) ht
  | case3 w word cs ih =>
      obtain ⟨rfl, rfl⟩ := ih h
      exact ⟨rfl, rfl⟩
  | case4 => cases h; exact absurd (.scalar _ _) ht

theorem written_of_startingWith {c : Char} {cs rest : List Char} {t : Token}
    (h : Token.startingWith c cs = (t, rest)) (ht : ¬Unfit t) :
    ∃ tail, cs = tail ++ rest ∧ Written t (c :: tail) := by
  unfold Token.startingWith at h
  split at h
  case h_7 =>
    obtain ⟨hliteral, inside, rfl, hinside⟩ := inside_of_nextText h ht
    refine ⟨inside ++ ['\x22'], ?_, .literal hliteral hinside⟩
    rw [List.append_assoc, List.singleton_append]
  case h_8 =>
    obtain ⟨rfl, rfl⟩ := word_of_nextWord h ht
    exact ⟨_, rfl, .atom .null .nullWord⟩
  case h_9 =>
    obtain ⟨rfl, rfl⟩ := word_of_nextWord h ht
    exact ⟨_, rfl, .atom (.bool true) .trueWord⟩
  case h_10 =>
    obtain ⟨rfl, rfl⟩ := word_of_nextWord h ht
    exact ⟨_, rfl, .atom (.bool false) .falseWord⟩
  case h_11 =>
    split at h
    · obtain ⟨hatom, num, hcs, hnum⟩ := number_of_nextNumber h ht
      obtain ⟨d, tail, rfl, -⟩ := hnum.exists_cons
      obtain ⟨rfl, rfl⟩ := List.cons.inj hcs
      exact ⟨tail, rfl, .atom hatom (.number hnum)⟩
    · cases h
      exact absurd .stray ht
  -- the marks, which are single characters
  all_goals
    cases h
    exact ⟨[], rfl, .mark rfl⟩

/-- What is taken off as a token, behind white space, has the form that the token is written in. -/
theorem written_of_next {cs rest : List Char} {t : Token} (h : Token.next cs = some (t, rest))
    (ht : ¬Unfit t) : ∃ gap piece, cs = gap ++ (piece ++ rest) ∧ Blank gap ∧ Written t piece := by
  have happ := List.takeWhile_append_dropWhile (p := Token.isBlank) (l := cs)
  unfold Token.next at h
  split at h
  · cases h
  · rename_i c tail hd
    obtain ⟨tail, rfl, hwritten⟩ := written_of_startingWith (Option.some.inj h) ht
    rw [hd] at happ
    exact ⟨_, c :: tail, happ.symm, fun c hc => List.mem_takeWhile_imp hc, hwritten⟩

/-- A token that is a value by itself is written as one. -/
theorem scalar_of_next {cs rest : List Char} {t : Token} (h : Token.next cs = some (t, rest))
    (ht : IsScalar t) :
    ∃ gap scalar, cs = gap ++ (scalar ++ rest) ∧ Blank gap ∧ Scalar scalar := by
  have hfit : ¬Unfit t := by
    intro hbad
    rcases ht with ht | ht <;> cases ht <;> cases hbad
  obtain ⟨gap, piece, hcs, hgap, hwritten⟩ := written_of_next h hfit
  exact ⟨gap, piece, hcs, hgap, hwritten.scalar ht⟩

/-- A token that stands for a string literal is written as one. -/
theorem inside_of_next {cs rest : List Char} {t : Token} (h : Token.next cs = some (t, rest))
    (ht : IsLiteral t) :
    ∃ gap inside, cs = gap ++ '\x22' :: (inside ++ '\x22' :: rest) ∧ Blank gap ∧
      Inside inside := by
  have hfit : ¬Unfit t := by
    intro hbad
    cases ht <;> cases hbad
  obtain ⟨gap, piece, rfl, hgap, hwritten⟩ := written_of_next h hfit
  obtain ⟨inside, rfl, hinside⟩ := hwritten.exists_inside ht
  refine ⟨gap, inside, ?_, hgap, hinside⟩
  rw [List.cons_append, List.append_assoc, List.singleton_append]

/-- A token without a value is written as its character. -/
theorem mark_of_next {c : Char} {cs rest : List Char} {t : Token}
    (h : Token.next cs = some (t, rest)) (ht : mark? t = some c) :
    ∃ gap, cs = gap ++ c :: rest ∧ Blank gap := by
  have hfit : ¬Unfit t := by
    intro hbad
    cases hbad <;> cases ht
  obtain ⟨gap, piece, rfl, hgap, hwritten⟩ := written_of_next h hfit
  rw [hwritten.eq_mark ht]
  exact ⟨gap, rfl, hgap⟩

/-- Nothing but white space stands where there is no token. -/
theorem blank_of_next {cs : List Char} (h : Token.next cs = none) : Blank cs := by
  unfold Token.next at h
  split at h
  · rename_i hd
    exact fun c hc => List.dropWhile_eq_nil_iff.mp hd c hc
  · cases h

end MeshAccess.Json.Grammar
