import MeshAccess.Text.Positional

/-!
# Written numerals

What readers of numerals rely on besides the value: which characters a written numeral consists of
(`eq_digit_of_mem_write`), how many there are (`length_write_le`), and that none of them is a zero
too many (`write_eq_zero_cons`). Where a number is below a bound, reading undoes writing under that
bound as well. A text with any other character is no numeral (`read?_eq_none`), and a decimal
numeral is a nonempty run of digits with the value of the run (`read?_ten_eq_some_iff`).
-/

namespace MeshAccess.Text.Positional

variable {base : Nat}

theorem write_of_lt {n : Nat} (h : n < base) : write base n = [digit n] := by
  rw [write, if_pos (Or.inl h)]

theorem write_of_le (h2 : 2 ≤ base) {n : Nat} (h : base ≤ n) :
    write base n = write base (n / base) ++ [digit (n % base)] := by
  rw [write, if_neg (by omega)]

/-- The quotient that the numeral of a number of several digits goes on from is smaller. -/
theorem div_base_lt (h2 : 2 ≤ base) {n : Nat} (h : base ≤ n) : n / base < n :=
  Nat.div_lt_self (by omega) (by omega)

/-- A written numeral consists of digits of its base. -/
theorem eq_digit_of_mem_write (h2 : 2 ≤ base) {n : Nat} {c : Char} (h : c ∈ write base n) :
    ∃ d, d < base ∧ c = digit d := by
  induction n using Nat.strongRecOn with
  | ind n ih =>
      by_cases hn : n < base
      · rw [write_of_lt hn, List.mem_singleton] at h
        exact ⟨n, hn, h⟩
      · have hle : base ≤ n := Nat.le_of_not_lt hn
        rw [write_of_le h2 hle, List.mem_append, List.mem_singleton] at h
        rcases h with h | h
        · exact ih (n / base) (div_base_lt h2 hle) h
        · exact ⟨n % base, Nat.mod_lt n (by omega), h⟩

/-- What holds of every digit of the base holds of every character of a written numeral. -/
theorem forall_mem_write (h2 : 2 ≤ base) {p : Char → Prop} (h : ∀ d, d < base → p (digit d))
    (n : Nat) : ∀ c ∈ write base n, p c := by
  intro c hc
  obtain ⟨d, hd, rfl⟩ := eq_digit_of_mem_write h2 hc
  exact h d hd

/-- No character that is no digit stands in a written numeral. -/
theorem not_mem_write (h2 : 2 ≤ base) (h16 : base ≤ 16) {c : Char}
    (hc : ∀ d < 16, digit d ≠ c) (n : Nat) : c ∉ write base n := by
  intro h
  obtain ⟨d, hd, rfl⟩ := eq_digit_of_mem_write h2 h
  exact hc d (by omega) rfl

/-- A number below a power of the base has no more digits than the exponent says. -/
theorem length_write_le (h2 : 2 ≤ base) (k : Nat) {n : Nat} (h : n < Nat.pow base (k + 1)) :
    (write base n).length ≤ k + 1 := by
  induction k generalizing n with
  | zero =>
      have hn : n < base := by simpa using h
      rw [write_of_lt hn]
      exact Nat.le_refl 1
  | succ k ih =>
      by_cases hn : n < base
      · rw [write_of_lt hn, List.length_singleton]
        omega
      · -- the digits before the last are those of the quotient, which is below the next lower power
        have hdiv : n / base < Nat.pow base (k + 1) := by
          refine Nat.div_lt_of_lt_mul ?_
          rw [Nat.mul_comm]
          exact h
        rw [write_of_le h2 (Nat.le_of_not_lt hn), List.length_append, List.length_singleton]
        have := ih hdiv
        omega

theorem digit_ne_zero {d : Nat} (h0 : 0 < d) (h16 : d < 16) : digit d ≠ '0' := by
  have hall : ∀ d : Fin 16, 0 < d.val → digit d.val ≠ '0' := by decide
  exact hall ⟨d, h16⟩ h0

/-- The numeral of a positive number does not begin with a zero. -/
theorem head?_write_ne (h2 : 2 ≤ base) (h16 : base ≤ 16) {n : Nat} (h0 : 0 < n) :
    (write base n).head? ≠ some '0' := by
  induction n using Nat.strongRecOn with
  | ind n ih =>
      by_cases hn : n < base
      · rw [write_of_lt hn, List.head?_cons]
        exact fun h => digit_ne_zero h0 (by omega) (Option.some.inj h)
      · have hle : base ≤ n := Nat.le_of_not_lt hn
        have hquot := ih (n / base) (div_base_lt h2 hle) (Nat.div_pos hle (by omega))
        obtain ⟨c, cs, hw⟩ := List.exists_cons_of_ne_nil (write_ne_nil base (n / base))
        rw [hw] at hquot
        rw [write_of_le h2 hle, hw]
        exact hquot

/-- A written numeral that begins with a zero is that zero. -/
theorem write_eq_zero_cons (h2 : 2 ≤ base) (h16 : base ≤ 16) {n : Nat} {cs : List Char}
    (h : write base n = '0' :: cs) : n = 0 ∧ cs = [] := by
  by_cases h0 : 0 < n
  · exact absurd (congrArg List.head? h) (head?_write_ne h2 h16 h0)
  · obtain rfl : n = 0 := by omega
    rw [write_of_lt (by omega)] at h
    exact ⟨rfl, (List.cons.inj h).2.symm⟩

/-- Below the bound, reading a written numeral gives the number back. -/
theorem readBelow?_write (h2 : 2 ≤ base) (h16 : base ≤ 16) {bound n : Nat} (h : n < bound) :
    readBelow? base bound (write base n) = some n := by
  rw [readBelow?, read?_write h2 h16, Option.filter_some, if_pos (decide_eq_true h)]

theorem readFrom?_eq_none {acc : Nat} {c : Char} {cs : List Char} (h : c ∈ cs)
    (hc : digitValue? base c = none) : readFrom? base acc cs = none := by
  induction cs generalizing acc with
  | nil => exact absurd h List.not_mem_nil
  | cons d cs ih =>
      rw [readFrom?]
      rcases List.mem_cons.mp h with rfl | h
      · rw [hc]
      · cases digitValue? base d with
        | none => rfl
        | some v => exact ih h

/-- A text with a character that is no digit is no numeral. -/
theorem read?_eq_none {c : Char} {cs : List Char} (h : c ∈ cs)
    (hc : digitValue? base c = none) : read? base cs = none := by
  cases cs with
  | nil => rfl
  | cons d cs => exact readFrom?_eq_none h hc

/-! ## Decimal numerals -/

theorem isDigit_iff {c : Char} : c.isDigit = true ↔ '0' ≤ c ∧ c ≤ '9' := by
  rw [Char.isDigit, Bool.and_eq_true, decide_eq_true_iff, decide_eq_true_iff]
  rfl

/-- The decimal digits are those of ASCII, and their values come from their code points. -/
theorem digitValue?_ten (c : Char) :
    digitValue? 10 c = if c.isDigit then some (c.toNat - 48) else none := by
  rw [digitValue?, hexValue?]
  by_cases hc : c.isDigit = true
  · have h9 : c.toNat ≤ 57 := (isDigit_iff.mp hc).2
    rw [if_pos hc, if_pos (isDigit_iff.mp hc), Option.filter_some, if_pos]
    exact decide_eq_true (by omega)
  · rw [if_neg hc, if_neg (fun h => hc (isDigit_iff.mpr h))]
    -- letters have values from ten on
    split
    · rename_i h
      have ha : 97 ≤ c.toNat := h.1
      rw [Option.filter_some, if_neg]
      exact fun h => absurd (of_decide_eq_true h) (by omega)
    · split
      · rename_i h
        have ha : 65 ≤ c.toNat := h.1
        rw [Option.filter_some, if_neg]
        exact fun h => absurd (of_decide_eq_true h) (by omega)
      · rfl

theorem readFrom?_ten_eq_some_iff {acc n : Nat} {cs : List Char} :
    readFrom? 10 acc cs = some n ↔
      (∀ c ∈ cs, c.isDigit = true) ∧ Nat.ofDigitChars 10 cs acc = n := by
  induction cs generalizing acc with
  | nil => simp [readFrom?]
  | cons c cs ih =>
      rw [readFrom?, digitValue?_ten, List.forall_mem_cons, Nat.ofDigitChars_cons]
      by_cases hc : c.isDigit = true
      · rw [if_pos hc, Nat.mul_comm]
        simp only [ih, hc, true_and]
        rfl
      · rw [if_neg hc]
        simp [hc]

/-- A decimal numeral is a nonempty run of digits and denotes the value of the run. -/
theorem read?_ten_eq_some_iff {n : Nat} {cs : List Char} :
    read? 10 cs = some n ↔
      cs ≠ [] ∧ (∀ c ∈ cs, c.isDigit = true) ∧ Nat.ofDigitChars 10 cs 0 = n := by
  cases cs with
  | nil => simp [read?]
  | cons c cs => simp only [read?, readFrom?_ten_eq_some_iff, ne_eq, reduceCtorEq,
      not_false_eq_true, true_and]

end MeshAccess.Text.Positional
