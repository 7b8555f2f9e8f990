import Mathlib.Data.List.TakeWhile
import MeshAccess.Proofs.JsonGrammar
import MeshAccess.Proofs.Tokens

/-!
# Numbers and the grammar

The reader of numbers against the grammar, part by part and in both directions. Each part is read to
its end if what comes behind does not go on with it, and what is read as a part has its form. For
whole numbers these are `Number.read` and `number_of_read`; the numeral that is read does not depend
on what comes behind the number.
-/

namespace MeshAccess.Json.Grammar

/-! ## Runs of digits -/

/-- A run of digits does not begin with any other character. -/
theorem Digits.append_ne_cons {ds : List Char} (h : Digits ds) {c : Char}
    (hc : c.isDigit = false) (rest cs : List Char) : ds ++ rest ≠ c :: cs := by
  intro heq
  obtain ⟨d, ds, rfl⟩ := List.exists_cons_of_ne_nil h.1
  have hd := h.2 d List.mem_cons_self
  rw [(List.cons.inj heq).1, hc] at hd
  cases hd

theorem digits_of_readDigits {cs ds rest : List Char} (h : Numeral.readDigits cs = .ok (ds, rest)) :
    cs = ds ++ rest ∧ Digits ds := by
  have happ := List.takeWhile_append_dropWhile (p := Char.isDigit) (l := cs)
  unfold Numeral.readDigits at h
  split at h
  · cases h
  · cases h
  · rename_i hnil hcons
    cases h
    refine ⟨happ.symm, fun hempty => ?_, fun c hc => List.mem_takeWhile_imp hc⟩
    cases hd : cs.dropWhile Char.isDigit with
    | nil => exact hnil hempty hd
    | cons c cs => exact hcons c cs hempty hd

/-! ## The digits before the point -/

theorem Whole.digits {ds : List Char} (h : Whole ds) : Digits ds := by
  rcases h with rfl | h
  · decide
  · exact h.1

theorem Whole.read {ds rest : List Char} (h : Whole ds)
    (hr : ∀ c cs, rest = c :: cs → c.isDigit = false) :
    Numeral.readWhole (ds ++ rest) = .ok (ds, rest) := by
  rcases h with rfl | ⟨h, hzero⟩
  · cases rest with
    | nil => rfl
    | cons c cs =>
        have hc : ¬c.isDigit = true := by rw [hr c cs rfl]; exact Bool.false_ne_true
        exact if_neg hc
  · unfold Numeral.readWhole
    split
    · rename_i c cs heq
      obtain ⟨d, ds, rfl⟩ := List.exists_cons_of_ne_nil h.1
      exact absurd (congrArg some (List.cons.inj heq).1) hzero
    · exact Numeral.readDigits_append h.1 h.2 hr

theorem whole_of_readWhole {cs ds rest : List Char} (h : Numeral.readWhole cs = .ok (ds, rest)) :
    cs = ds ++ rest ∧ Whole ds := by
  unfold Numeral.readWhole at h
  split at h
  · split at h
    · cases h
    · cases h
      exact ⟨rfl, .inl rfl⟩
  · rename_i hlone
    obtain ⟨rfl, hds⟩ := digits_of_readDigits h
    refine ⟨rfl, ?_⟩
    obtain ⟨d, ds, rfl⟩ := List.exists_cons_of_ne_nil hds.1
    by_cases hd : d = '0'
    · -- a zero is read as digits only where nothing follows it
      subst hd
      cases hrest : ds ++ rest with
      | nil =>
          obtain ⟨rfl, -⟩ := List.append_eq_nil_iff.mp hrest
          exact .inl rfl
      | cons c cs => exact absurd (congrArg (List.cons '0') hrest) (hlone c cs)
    · exact .inr ⟨hds, fun h => hd (Option.some.inj h)⟩

/-! ## The digits behind the point -/

theorem Fraction.read {cs : List Char} (h : Fraction cs) :
    ∃ ds, ∀ rest, (∀ c cs, rest = c :: cs → c.isDigit = false ∧ c ≠ '.') →
      Numeral.readFraction (cs ++ rest) = .ok (ds, rest) := by
  cases h with
  | none =>
      refine ⟨[], fun rest hr => ?_⟩
      rw [List.nil_append]
      unfold Numeral.readFraction
      split
      · rename_i cs
        exact absurd rfl (hr '.' cs rfl).2
      · rfl
  | @digits ds h =>
      refine ⟨ds, fun rest hr => Numeral.readDigits_append h.1 h.2 ?_⟩
      exact fun c cs hc => (hr c cs hc).1

theorem fraction_of_readFraction {cs ds rest : List Char}
    (h : Numeral.readFraction cs = .ok (ds, rest)) : ∃ fs, cs = fs ++ rest ∧ Fraction fs := by
  unfold Numeral.readFraction at h
  split at h
  · obtain ⟨rfl, hds⟩ := digits_of_readDigits h
    exact ⟨'.' :: ds, rfl, .digits hds⟩
  · cases h
    exact ⟨[], rfl, .none⟩

/-! ## The exponent -/

theorem readSigned_of_digits {sign ds : List Char}
    (hsign : sign = [] ∨ sign = ['+'] ∨ sign = ['-']) (h : Digits ds) :
    ∃ e, ∀ rest, Ends rest → Numeral.readSigned (sign ++ (ds ++ rest)) = .ok (e, rest) := by
  have hread : ∀ rest, Ends rest → Numeral.readDigits (ds ++ rest) = .ok (ds, rest) :=
    fun rest hr => Numeral.readDigits_append h.1 h.2 fun c cs hc => (hr c cs hc).1
  rcases hsign with rfl | rfl | rfl
  · refine ⟨(false, ds), fun rest hr => ?_⟩
    rw [List.nil_append, Numeral.readSigned]
    · rw [hread rest hr]
      rfl
    · exact fun cs heq => h.append_ne_cons rfl rest cs heq
    · exact fun cs heq => h.append_ne_cons rfl rest cs heq
  · refine ⟨(false, ds), fun rest hr => ?_⟩
    rw [List.singleton_append, Numeral.readSigned, hread rest hr]
    rfl
  · refine ⟨(true, ds), fun rest hr => ?_⟩
    rw [List.singleton_append, Numeral.readSigned, hread rest hr]
    rfl

/-- A mapped result comes from a result. -/
theorem exists_of_map_eq_ok {ε α β : Type} {x : Except ε α} {f : α → β} {b : β}
    (h : x.map f = .ok b) : ∃ a, x = .ok a ∧ f a = b := by
  cases x with
  | error e => cases h
  | ok a => exact ⟨a, rfl, Except.ok.inj h⟩

theorem digits_of_readSigned {cs rest : List Char} {e : Bool × List Char}
    (h : Numeral.readSigned cs = .ok (e, rest)) :
    ∃ sign ds, cs = sign ++ (ds ++ rest) ∧ (sign = [] ∨ sign = ['+'] ∨ sign = ['-']) ∧
      Digits ds := by
  unfold Numeral.readSigned at h
  split at h
  · obtain ⟨⟨ds, _⟩, hd, ⟨⟩⟩ := exists_of_map_eq_ok h
    obtain ⟨rfl, hds⟩ := digits_of_readDigits hd
    exact ⟨['-'], ds, rfl, .inr (.inr rfl), hds⟩
  · obtain ⟨⟨ds, _⟩, hd, ⟨⟩⟩ := exists_of_map_eq_ok h
    obtain ⟨rfl, hds⟩ := digits_of_readDigits hd
    exact ⟨['+'], ds, rfl, .inr (.inl rfl), hds⟩
  · obtain ⟨⟨ds, _⟩, hd, ⟨⟩⟩ := exists_of_map_eq_ok h
    obtain ⟨rfl, hds⟩ := digits_of_readDigits hd
    exact ⟨[], ds, rfl, .inl rfl, hds⟩

theorem Exponent.read {cs : List Char} (h : Exponent cs) :
    ∃ e, ∀ rest, Ends rest → Numeral.readExponent (cs ++ rest) = .ok (e, rest) := by
  cases h with
  | none => exact ⟨Option.none, fun rest hr => Numeral.readExponent_of_ends hr⟩
  | @digits e sign ds he hsign h =>
      obtain ⟨x, hx⟩ := readSigned_of_digits hsign h
      refine ⟨some x, fun rest hr => ?_⟩
      have hmap : (Numeral.readSigned (sign ++ (ds ++ rest))).map
          (fun read => (some read.1, read.2)) = .ok (some x, rest) := by
        rw [hx rest hr]
        rfl
      rw [List.cons_append, List.append_assoc]
      rcases he with rfl | rfl
      · exact hmap
      · exact hmap

theorem exponent_of_readExponent {cs rest : List Char} {e : Option (Bool × List Char)}
    (h : Numeral.readExponent cs = .ok (e, rest)) : ∃ es, cs = es ++ rest ∧ Exponent es := by
  have hmark : ∀ {cs : List Char} {mark : Char}, mark = 'e' ∨ mark = 'E' →
      (Numeral.readSigned cs).map (fun read => (some read.1, read.2)) = .ok (e, rest) →
      ∃ es, mark :: cs = es ++ rest ∧ Exponent es := by
    intro cs mark hmark h
    obtain ⟨⟨x, _⟩, hs, ⟨⟩⟩ := exists_of_map_eq_ok h
    obtain ⟨sign, ds, rfl, hsign, hds⟩ := digits_of_readSigned hs
    refine ⟨_, ?_, .digits hmark hsign hds⟩
    rw [List.cons_append, List.append_assoc]
  unfold Numeral.readExponent at h
  split at h
  · exact hmark (.inl rfl) h
  · exact hmark (.inr rfl) h
  · cases h
    exact ⟨[], rfl, .none⟩

/-! ## Whole numbers -/

/-- Neither a digit nor a point follows where an exponent may stand. -/
theorem Exponent.ends_whole {es rest : List Char} (h : Exponent es) (hr : Ends rest) :
    ∀ c cs, es ++ rest = c :: cs → c.isDigit = false ∧ c ≠ '.' := by
  intro c cs heq
  cases h with
  | none => exact ⟨(hr c cs heq).1, (hr c cs heq).2.1⟩
  | digits he _ _ =>
      obtain rfl := (List.cons.inj heq).1
      rcases he with rfl | rfl <;> decide

/-- No digit follows where a fraction may stand. -/
theorem Fraction.ends_whole {fs rest : List Char} (h : Fraction fs)
    (hr : ∀ c cs, rest = c :: cs → c.isDigit = false ∧ c ≠ '.') :
    ∀ c cs, fs ++ rest = c :: cs → c.isDigit = false := by
  intro c cs heq
  cases h with
  | none => exact (hr c cs heq).1
  | digits _ =>
      obtain rfl := (List.cons.inj heq).1
      rfl

/-- A number is read to its end, if the text behind does not go on with it. -/
theorem Number.read {cs : List Char} (h : Number cs) :
    ∃ n, ∀ rest, Ends rest → Numeral.read (cs ++ rest) = .ok (n, rest) := by
  obtain ⟨hsign, hw, hf, he⟩ := h
  rename_i sign whole fraction exponent
  obtain ⟨ds, hds⟩ := hf.read
  obtain ⟨e, hread⟩ := he.read
  have hunsigned : ∀ b rest, Ends rest → Numeral.readUnsigned b
      (whole ++ (fraction ++ (exponent ++ rest))) = .ok (⟨b, whole, ds, e⟩, rest) := by
    intro b rest hr
    have hends := he.ends_whole hr
    rw [Numeral.readUnsigned, hw.read (hf.ends_whole hends)]
    simp only [hds _ hends, hread rest hr]
  rcases hsign with rfl | rfl
  · refine ⟨⟨false, whole, ds, e⟩, fun rest hr => ?_⟩
    simp only [List.nil_append, List.append_assoc]
    unfold Numeral.read
    split
    · rename_i cs heq
      exact absurd heq (hw.digits.append_ne_cons rfl _ cs)
    · exact hunsigned false rest hr
  · refine ⟨⟨true, whole, ds, e⟩, fun rest hr => ?_⟩
    simp only [List.cons_append, List.append_assoc]
    exact hunsigned true rest hr

/-- What is read as a number is one. -/
theorem number_of_read {cs rest : List Char} {n : Numeral} (h : Numeral.read cs = .ok (n, rest)) :
    ∃ num, cs = num ++ rest ∧ Number num := by
  have hunsigned : ∀ {b : Bool} {cs sign : List Char}, sign = [] ∨ sign = ['-'] →
      Numeral.readUnsigned b cs = .ok (n, rest) →
      ∃ num, sign ++ cs = num ++ rest ∧ Number num := by
    intro b cs sign hsign h
    unfold Numeral.readUnsigned at h
    split at h
    · cases h
    · rename_i hw
      split at h
      · cases h
      · rename_i hf
        split at h
        · cases h
        · rename_i he
          cases h
          obtain ⟨rfl, hwhole⟩ := whole_of_readWhole hw
          obtain ⟨fs, rfl, hfraction⟩ := fraction_of_readFraction hf
          obtain ⟨es, rfl, hexponent⟩ := exponent_of_readExponent he
          refine ⟨_, ?_, .mk hsign hwhole hfraction hexponent⟩
          simp only [List.append_assoc]
  unfold Numeral.read at h
  split at h
  · exact hunsigned (.inr rfl) h
  · exact hunsigned (.inl rfl) h

end MeshAccess.Json.Grammar
