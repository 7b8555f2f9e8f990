import MeshAccess.Json.Printer
import MeshAccess.Json.Token
import MeshAccess.Proofs.Numerals

/-!
# Tokens of written values

Each piece that a value is written with is taken off the text as one token: `next_writeText` for
texts, with every character escaped and read back, and `next_writeNatural` for naturals of 64 bits,
which have to be followed by something that does not go on with the number (`Ends`). White space in
front of a token makes no difference (`next_append_of_blank`).
-/

namespace MeshAccess.Json

open MeshAccess.Text

/-! ## String literals -/

namespace Literal

/-- The escape of a control character names its code point. -/
theorem codeUnit_escape {n : Nat} (h : n < 0x20) (cs : List Char) :
    codeUnit ('0' :: '0' :: Positional.digit (n / 16) :: Positional.digit (n % 16) :: cs)
      = .ok n := by
  have h0 : Positional.digitValue? 16 '0' = some 0 := by decide
  have hhigh : Positional.digitValue? 16 (Positional.digit (n / 16)) = some (n / 16) :=
    Positional.digitValue?_digit (by decide) (by omega)
  have hlow : Positional.digitValue? 16 (Positional.digit (n % 16)) = some (n % 16) :=
    Positional.digitValue?_digit (by decide) (by omega)
  have hvalue : (0 * 16 + n / 16) * 16 + n % 16 = n := by omega
  have hread : Positional.read? 16
      ['0', '0', Positional.digit (n / 16), Positional.digit (n % 16)] = some n := by
    simp only [Positional.read?, Positional.readFrom?, h0, hhigh, hlow, Nat.zero_mul,
      Nat.add_zero, hvalue]
  rw [codeUnit]
  simp only [List.take_succ_cons, List.take_zero, List.length_cons, List.length_nil, hread]

theorem read_shortEscape {e c : Char} (hu : e ≠ 'u') (h : shortEscape? e = some c)
    (seen cs : List Char) : read seen ('\\' :: e :: cs) = read (c :: seen) cs := by
  rw [read]
  · rw [h]
  · exact hu

theorem read_codeUnit {n : Nat} {cs : List Char} (h : codeUnit cs = .ok n)
    (hlead : isLeading n = false) (htrail : isTrailing n = false) (seen : List Char) :
    read seen ('\\' :: 'u' :: cs) = read (Char.ofNat n :: seen) (cs.drop 4) := by
  rw [read]
  simp only [h, hlead, htrail, Bool.false_eq_true, if_false]

theorem read_plain {c : Char} (hquote : c ≠ '\x22') (hslash : c ≠ '\\') (h : ¬c.toNat < 0x20)
    (seen cs : List Char) : read seen (c :: cs) = read (c :: seen) cs := by
  rw [read]
  · rw [if_neg h]
  · exact hquote
  · exact fun _ hs _ => hslash hs
  · exact fun _ _ hs _ => hslash hs
  · exact fun hs _ => hslash hs

/-- The written form of a character reads as the character. -/
theorem read_escapeChar (seen : List Char) (c : Char) (cs : List Char) :
    read seen (escapeChar c ++ cs) = read (c :: seen) cs := by
  unfold escapeChar
  split
  case h_8 =>
    rename_i hquote hslash _ _ _ _ _
    split
    · rename_i hcontrol
      have hunit := codeUnit_escape hcontrol cs
      have hlead : isLeading c.toNat = false := by
        rw [isLeading, decide_eq_false (by omega), Bool.false_and]
      have htrail : isTrailing c.toNat = false := by
        rw [isTrailing, decide_eq_false (by omega), Bool.false_and]
      have hread := read_codeUnit hunit hlead htrail seen
      rw [Char.ofNat_toNat] at hread
      exact hread
    · rename_i hplain
      exact read_plain hquote hslash hplain seen cs
  all_goals exact read_shortEscape (by decide) rfl seen cs

/-- Reading a written literal gives its text and what follows the closing quote. -/
theorem read_escape (seen cs rest : List Char) :
    read seen (escape cs ++ '\x22' :: rest) = .ok (seen.reverse ++ cs, rest) := by
  induction cs generalizing seen with
  | nil => simp [escape, read]
  | cons c cs ih =>
      have hescape : escape (c :: cs) = escapeChar c ++ escape cs := List.flatMap_cons
      rw [hescape, List.append_assoc, read_escapeChar, ih, List.reverse_cons, List.append_assoc,
        List.singleton_append]

end Literal

/-! ## Numbers -/

/-- The text does not go on with a number that stands before it. -/
def Ends (rest : List Char) : Prop :=
  ∀ c cs, rest = c :: cs → c.isDigit = false ∧ c ≠ '.' ∧ c ≠ 'e' ∧ c ≠ 'E'

theorem ends_nil : Ends [] := nofun

theorem ends_cons {c : Char} (h : c.isDigit = false ∧ c ≠ '.' ∧ c ≠ 'e' ∧ c ≠ 'E')
    (cs : List Char) : Ends (c :: cs) := by
  intro d ds hd
  rw [← (List.cons.inj hd).1]
  exact h

theorem not_goes_on_of_isBlank {c : Char} (h : Token.isBlank c = true) :
    c.isDigit = false ∧ c ≠ '.' ∧ c ≠ 'e' ∧ c ≠ 'E' := by
  simp only [Token.isBlank, Bool.or_eq_true, beq_iff_eq] at h
  rcases h with ((rfl | rfl) | rfl) | rfl <;> decide

/-- White space in front of a text does not let a number go on. -/
theorem ends_append_of_blank {gap : List Char} (h : ∀ c ∈ gap, Token.isBlank c = true)
    {rest : List Char} (hr : Ends rest) : Ends (gap ++ rest) := by
  cases gap with
  | nil => exact hr
  | cons c cs => exact ends_cons (not_goes_on_of_isBlank (h c List.mem_cons_self)) _

theorem isDigit_of_mem_write (n : Nat) : ∀ c ∈ Positional.write 10 n, c.isDigit = true :=
  Positional.forall_mem_write (by decide) (by decide) n

namespace Numeral

variable {n : Nat} {rest : List Char}

/-- A run of digits ends where no further digit follows. -/
theorem readDigits_append {ds : List Char} (hne : ds ≠ []) (hds : ∀ c ∈ ds, c.isDigit = true)
    (hr : ∀ c cs, rest = c :: cs → c.isDigit = false) :
    readDigits (ds ++ rest) = .ok (ds, rest) := by
  have hrest : rest.takeWhile Char.isDigit = [] ∧ rest.dropWhile Char.isDigit = rest := by
    cases rest with
    | nil => exact ⟨rfl, rfl⟩
    | cons c cs =>
        have hc : ¬c.isDigit = true := by rw [hr c cs rfl]; exact Bool.false_ne_true
        exact ⟨List.takeWhile_cons_of_neg hc, List.dropWhile_cons_of_neg hc⟩
  obtain ⟨d, ds, rfl⟩ := List.exists_cons_of_ne_nil hne
  rw [readDigits, List.takeWhile_append_of_pos hds, List.dropWhile_append_of_pos hds, hrest.1,
    hrest.2, List.append_nil]

theorem readWhole_write (hr : Ends rest) :
    readWhole (Positional.write 10 n ++ rest) = .ok (Positional.write 10 n, rest) := by
  unfold readWhole
  split
  · rename_i c cs hzero
    -- a zero in front is the whole numeral, and no digit follows it
    obtain ⟨d, ds, hd⟩ := List.exists_cons_of_ne_nil (Positional.write_ne_nil 10 n)
    rw [hd, List.cons_append] at hzero
    obtain ⟨rfl, happ⟩ := List.cons.inj hzero
    obtain ⟨-, rfl⟩ := Positional.write_eq_zero_cons (by decide) (by decide) hd
    rw [List.nil_append] at happ
    have hc : ¬c.isDigit = true := by rw [(hr c cs happ).1]; exact Bool.false_ne_true
    rw [if_neg hc, hd, happ]
  · exact readDigits_append (Positional.write_ne_nil 10 n) (isDigit_of_mem_write n)
      fun c cs h => (hr c cs h).1

theorem readFraction_of_ends (hr : Ends rest) : readFraction rest = .ok ([], rest) := by
  unfold readFraction
  split
  · rename_i cs
    exact absurd rfl (hr '.' cs rfl).2.1
  · rfl

theorem readExponent_of_ends (hr : Ends rest) : readExponent rest = .ok (none, rest) := by
  unfold readExponent
  split
  · rename_i cs
    exact absurd rfl (hr 'e' cs rfl).2.2.1
  · rename_i cs
    exact absurd rfl (hr 'E' cs rfl).2.2.2
  · rfl

/-- The parts of a written natural. -/
def ofNatural (n : Nat) : Numeral := ⟨false, Positional.write 10 n, [], none⟩

theorem read_write (hr : Ends rest) :
    read (Positional.write 10 n ++ rest) = .ok (ofNatural n, rest) := by
  unfold read
  split
  · rename_i cs hminus
    obtain ⟨d, ds, hd⟩ := List.exists_cons_of_ne_nil (Positional.write_ne_nil 10 n)
    rw [hd, List.cons_append] at hminus
    have hdigit := isDigit_of_mem_write n d (hd ▸ List.mem_cons_self)
    rw [(List.cons.inj hminus).1] at hdigit
    exact absurd hdigit (by decide)
  · rw [readUnsigned, readWhole_write hr]
    simp only [readFraction_of_ends hr, readExponent_of_ends hr]
    rfl

theorem natural?_ofNatural (n : Nat) : (ofNatural n).natural? = some n :=
  Positional.read?_write (by decide) (by decide) n

/-- One more digit, where the value stays within 64 bits. -/
theorem leading_append {acc v : Nat} {cs : List Char} {c : Char} (h : leading acc cs = (v, 0))
    (hv : v * 10 + (c.toNat - 48) < Nat.pow 2 64) :
    leading acc (cs ++ [c]) = (v * 10 + (c.toNat - 48), 0) := by
  induction cs generalizing acc with
  | nil =>
      obtain rfl : acc = v := congrArg Prod.fst h
      rw [List.nil_append, leading, if_pos hv]
      rfl
  | cons d cs ih =>
      rw [leading] at h
      rw [List.cons_append, leading]
      split at h
      · rename_i hd
        rw [if_pos hd]
        exact ih h
      · exact nomatch congrArg Prod.snd h

theorem digit_toNat_sub : ∀ d < 10, (Positional.digit d).toNat - 48 = d := by decide

/-- The digits of a natural of 64 bits all count. -/
theorem leading_write (h : n < Nat.pow 2 64) : leading 0 (Positional.write 10 n) = (n, 0) := by
  induction n using Nat.strongRecOn with
  | ind n ih =>
      by_cases hn : n < 10
      · have hv : 0 * 10 + ((Positional.digit n).toNat - 48) = n := by
          rw [digit_toNat_sub n hn, Nat.zero_mul, Nat.zero_add]
        have hnil : leading 0 [] = (0, 0) := rfl
        have happ := leading_append hnil (hv.symm ▸ h)
        rw [hv] at happ
        rw [Positional.write_of_lt hn]
        exact happ
      · -- the last digit goes onto the value of those before it
        have hle : 10 ≤ n := Nat.le_of_not_lt hn
        have hlt := Positional.div_base_lt (by decide) hle
        have hv : n / 10 * 10 + ((Positional.digit (n % 10)).toNat - 48) = n := by
          rw [digit_toNat_sub _ (Nat.mod_lt n (by decide))]
          omega
        have happ := leading_append (ih (n / 10) hlt (Nat.lt_trans hlt h)) (hv.symm ▸ h)
        rw [hv] at happ
        rw [Positional.write_of_le (by decide) hle]
        exact happ

/-- Rounding to double precision at most doubles a number. -/
theorem nearest_le (n : Nat) : DoublePrecision.nearest n ≤ 2 * n := by
  have hkept : n >>> (n.log2 - 52) * Nat.pow 2 (n.log2 - 52) ≤ n := by
    rw [Nat.shiftRight_eq_div_pow]
    exact Nat.div_mul_le_self n _
  rw [DoublePrecision.nearest]
  split
  · omega
  · rename_i hdrop
    have hn : n ≠ 0 := by
      rintro rfl
      exact hdrop rfl
    have hpow : Nat.pow 2 (n.log2 - 52) ≤ n :=
      Nat.le_trans (Nat.pow_le_pow_right (by decide) (Nat.sub_le _ _)) (Nat.log2_self_le hn)
    -- rounding up adds one unit of the last bit kept, which is at most the number itself
    have hup : (n >>> (n.log2 - 52) + 1) * Nat.pow 2 (n.log2 - 52) ≤ 2 * n := by
      rw [Nat.add_mul, Nat.one_mul]
      omega
    split
    · rw [Nat.shiftLeft_eq]
      exact hup
    · rw [Nat.shiftLeft_eq]
      exact Nat.le_trans hkept (by omega)

theorem isFinite_ofNatural (h : n < Nat.pow 2 64) : (ofNatural n).isFinite = true := by
  have hone : DoublePrecision.nearest 1 = 1 := by decide
  have hbound : 2 * Nat.pow 2 64 < DoublePrecision.infinite := by decide +kernel
  have hnearest := nearest_le n
  have hproduct : DoublePrecision.isFiniteProduct n (Nat.pow 10 0) = true := by
    rw [DoublePrecision.isFiniteProduct]
    refine decide_eq_true ?_
    show DoublePrecision.nearest n * DoublePrecision.nearest 1 < _
    rw [hone, Nat.mul_one]
    omega
  rw [isFinite, ofNatural]
  simp only [leading_write h]
  show (n == 0 || false || (true && DoublePrecision.isFiniteProduct n (Nat.pow 10 0))) = true
  rw [hproduct]
  simp

end Numeral

/-! ## Tokens -/

namespace Token

theorem next_cons {c : Char} (h : isBlank c = false) (cs : List Char) :
    next (c :: cs) = some (startingWith c cs) := by
  have hc : ¬isBlank c = true := by rw [h]; exact Bool.false_ne_true
  rw [next, List.dropWhile_cons_of_neg hc]

/-- A token of one character. -/
theorem next_single {c : Char} {cs : List Char} (t : Token) (hc : isBlank c = false)
    (h : startingWith c cs = (t, cs)) : next (c :: cs) = some (t, cs) := by
  rw [next_cons hc, h]

/-- White space in front of a token is passed over. -/
theorem next_append_of_blank {gap : List Char} (h : ∀ c ∈ gap, isBlank c = true)
    (cs : List Char) : next (gap ++ cs) = next cs := by
  rw [next, next, List.dropWhile_append_of_pos h]

theorem next_writeText (s : String) (rest : List Char) :
    next (writeText s ++ rest) = some (.text s, rest) := by
  have hread := Literal.read_escape [] s.toList rest
  rw [List.reverse_nil, List.nil_append] at hread
  rw [writeText, List.append_assoc, List.cons_append, next_cons (by decide)]
  show some (nextText (Literal.escape s.toList ++ '\x22' :: rest)) = _
  rw [nextText, hread]
  simp only [String.ofList_toList]

theorem startingWith_digit {c : Char} (h : c.isDigit = true) (cs : List Char) :
    startingWith c cs = nextNumber (c :: cs) := by
  unfold startingWith
  split
  case h_11 => rw [if_pos (Or.inr h)]
  all_goals exact absurd h (by decide)

theorem isBlank_of_isDigit {c : Char} (h : c.isDigit = true) : isBlank c = false := by
  cases hb : isBlank c with
  | false => rfl
  | true =>
      rw [isBlank] at hb
      simp only [Bool.or_eq_true, beq_iff_eq] at hb
      rcases hb with ((rfl | rfl) | rfl) | rfl <;> exact absurd h (by decide)

theorem next_writeNatural {n : Nat} (h : n < Nat.pow 2 64) {rest : List Char} (hr : Ends rest) :
    next (Positional.write 10 n ++ rest) = some (.natural n, rest) := by
  have hread : Numeral.read (Positional.write 10 n ++ rest) = .ok (Numeral.ofNatural n, rest) :=
    Numeral.read_write hr
  obtain ⟨c, cs, hc⟩ := List.exists_cons_of_ne_nil (Positional.write_ne_nil 10 n)
  have hdigit := isDigit_of_mem_write n c (hc ▸ List.mem_cons_self)
  rw [hc, List.cons_append] at hread ⊢
  rw [next_cons (isBlank_of_isDigit hdigit), startingWith_digit hdigit, nextNumber, hread]
  simp only [Numeral.isFinite_ofNatural h, Numeral.natural?_ofNatural, if_true, Option.map_some,
    Option.getD_some]

end Token

end MeshAccess.Json
