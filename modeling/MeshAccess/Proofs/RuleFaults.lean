import MeshAccess.Policy.Rule

/-!
# Which rules are refused, and for what

A rule may have several faults at once, and the first of them is the one that counts: `HasFault`
says which that is without going through the check. `hasFault_iff` says that a rule is refused
exactly when it has a fault and that this fault is reported, up to one difference. Of a period that
is no duration the check tells whether it is the sum of the spans that runs over
(`read_eq_overrun_iff`), which for those who wrote the period is one and the same fault
(`RuleFault.reported`).
-/

namespace MeshAccess

/-- The fault as it is to be reported: a period whose sum runs over spells no duration. -/
def RuleFault.reported : RuleFault → RuleFault
  | .periodOverrun p => .invalidPeriod p
  | f => f

theorem RuleFault.reported_eq_self {f : RuleFault} (h : ∀ p, f ≠ .periodOverrun p) :
    f.reported = f := by
  cases f with
  | periodOverrun p => exact absurd rfl (h p)
  | _ => rfl

namespace Rule

variable {r : Rule} {f : RuleFault} {p : String}

/-- The rule gives a check period that is none: it is not empty, it does not ask for a check before
every session, and it spells no duration. -/
structure BadPeriod (r : Rule) (p : String) : Prop where
  given : r.checkPeriod = some p
  nonempty : p ≠ ""
  notAlways : p ≠ always
  notDuration : ∀ d, Duration.read p ≠ .ok d

/-- The fault is the first that the rule has. -/
inductive HasFault (r : Rule) : RuleFault → Prop where
  | src (h : r.src = []) : HasFault r .emptySrc
  | dst (hs : r.src ≠ []) (h : r.dst = []) : HasFault r .emptyDst
  | users (hs : r.src ≠ []) (hd : r.dst ≠ []) (h : r.users = []) : HasFault r .emptyUsers
  | period {p : String} (hs : r.src ≠ []) (hd : r.dst ≠ []) (hu : r.users ≠ [])
      (h : r.BadPeriod p) : HasFault r (.invalidPeriod p)

/-- A period is refused for what its spans come to. -/
theorem checkPeriodText_eq_error_iff :
    checkPeriodText p = .error f ↔
      p ≠ always ∧
        (Duration.read p = .error .malformed ∧ f = .invalidPeriod p ∨
          Duration.read p = .error .overrun ∧ f = .periodOverrun p) := by
  rw [checkPeriodText]
  by_cases ha : p = always
  · rw [if_pos ha]
    constructor
    · intro h
      cases h
    · rintro ⟨hne, -⟩
      exact absurd ha hne
  · rw [if_neg ha]
    cases hread : Duration.read p with
    | ok d => simp
    | error e => cases e <;> simp [ha, eq_comm]

/-- The period that takes effect is bad exactly when it is given and is. -/
theorem badPeriod_iff :
    r.BadPeriod p ↔ r.period = p ∧ p ≠ always ∧ ∀ d, Duration.read p ≠ .ok d := by
  rw [period]
  constructor
  · rintro ⟨hgiven, hne, ha, hd⟩
    rw [hgiven]
    exact ⟨if_neg hne, ha, hd⟩
  · rintro ⟨hp, ha, hd⟩
    cases hgiven : r.checkPeriod with
    | none =>
        rw [hgiven] at hp
        exact absurd hp.symm ha
    | some q =>
        simp only [hgiven] at hp
        by_cases hq : q = ""
        · rw [if_pos hq] at hp
          exact absurd hp.symm ha
        · rw [if_neg hq] at hp
          subst hp
          exact ⟨hgiven, hq, ha, hd⟩

/-- What a rule is refused for. -/
theorem check_eq_error_iff :
    r.check = .error f ↔
      r.src = [] ∧ f = .emptySrc ∨
        r.src ≠ [] ∧ r.dst = [] ∧ f = .emptyDst ∨
        r.src ≠ [] ∧ r.dst ≠ [] ∧ r.users = [] ∧ f = .emptyUsers ∨
        r.src ≠ [] ∧ r.dst ≠ [] ∧ r.users ≠ [] ∧ checkPeriodText r.period = .error f := by
  rw [check]
  by_cases hs : r.src = []
  · simp [hs, eq_comm]
  by_cases hd : r.dst = []
  · simp [hs, hd, eq_comm]
  by_cases hu : r.users = []
  · simp [hs, hd, hu, eq_comm]
  · simp [hs, hd, hu]

/-- A period that is none is refused with one of two faults, which are reported alike. -/
theorem badPeriod_iff_checkPeriodText :
    r.BadPeriod p ↔
      ∃ e, checkPeriodText r.period = .error e ∧ e.reported = .invalidPeriod p := by
  rw [badPeriod_iff]
  constructor
  · rintro ⟨rfl, ha, hno⟩
    cases hread : Duration.read r.period with
    | ok d => exact absurd hread (hno d)
    | error e =>
        cases e with
        | malformed =>
            exact ⟨_, checkPeriodText_eq_error_iff.mpr ⟨ha, Or.inl ⟨hread, rfl⟩⟩, rfl⟩
        | overrun => exact ⟨_, checkPeriodText_eq_error_iff.mpr ⟨ha, Or.inr ⟨hread, rfl⟩⟩, rfl⟩
  · rintro ⟨e, he, hp⟩
    obtain ⟨ha, ⟨hread, rfl⟩ | ⟨hread, rfl⟩⟩ := checkPeriodText_eq_error_iff.mp he
    · obtain rfl := RuleFault.invalidPeriod.inj hp
      exact ⟨rfl, ha, by simp [hread]⟩
    · obtain rfl := RuleFault.invalidPeriod.inj hp
      exact ⟨rfl, ha, by simp [hread]⟩

/-- A rule is refused exactly when it has a fault, and it is its first fault that is reported. -/
theorem hasFault_iff : r.HasFault f ↔ ∃ e, r.check = .error e ∧ e.reported = f := by
  simp only [check_eq_error_iff]
  constructor
  · intro h
    cases h with
    | src h => exact ⟨.emptySrc, Or.inl ⟨h, rfl⟩, rfl⟩
    | dst hs h => exact ⟨.emptyDst, Or.inr (Or.inl ⟨hs, h, rfl⟩), rfl⟩
    | users hs hd h => exact ⟨.emptyUsers, Or.inr (Or.inr (Or.inl ⟨hs, hd, h, rfl⟩)), rfl⟩
    | period hs hd hu h =>
        obtain ⟨e, he, hp⟩ := badPeriod_iff_checkPeriodText.mp h
        exact ⟨e, Or.inr (Or.inr (Or.inr ⟨hs, hd, hu, he⟩)), hp⟩
  · rintro ⟨e, ⟨hs, rfl⟩ | ⟨hs, hd, rfl⟩ | ⟨hs, hd, hu, rfl⟩ | ⟨hs, hd, hu, he⟩, rfl⟩
    · exact .src hs
    · exact .dst hs hd
    · exact .users hs hd hu
    · obtain ⟨p, hp⟩ : ∃ p, e.reported = .invalidPeriod p := by
        obtain ⟨-, ⟨-, rfl⟩ | ⟨-, rfl⟩⟩ := checkPeriodText_eq_error_iff.mp he
        · exact ⟨_, rfl⟩
        · exact ⟨_, rfl⟩
      rw [hp]
      exact .period hs hd hu (badPeriod_iff_checkPeriodText.mpr ⟨e, he, hp⟩)

/-- Of a rule that is refused for its period, it is the spans that tell for which of the two
faults. -/
theorem read_eq_overrun_iff (h : r.check = .error f) (hf : f.reported = .invalidPeriod p) :
    Duration.read p = .error .overrun ↔ f = .periodOverrun p := by
  obtain ⟨-, rfl⟩ | ⟨-, -, rfl⟩ | ⟨-, -, -, rfl⟩ | ⟨-, -, -, he⟩ := check_eq_error_iff.mp h
  · cases hf
  · cases hf
  · cases hf
  · obtain ⟨-, ⟨hread, rfl⟩ | ⟨hread, rfl⟩⟩ := checkPeriodText_eq_error_iff.mp he
    · obtain rfl := RuleFault.invalidPeriod.inj hf
      simp [hread]
    · obtain rfl := RuleFault.invalidPeriod.inj hf
      simp [hread]

theorem check_eq_ok_iff : r.check = .ok () ↔ ∀ f, ¬r.HasFault f := by
  constructor
  · intro h f hf
    obtain ⟨e, he, -⟩ := hasFault_iff.mp hf
    rw [h] at he
    cases he
  · intro h
    cases hc : r.check with
    | ok u => rfl
    | error e => exact absurd (hasFault_iff.mpr ⟨e, hc, rfl⟩) (h _)

end Rule

end MeshAccess
