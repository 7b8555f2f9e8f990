import MeshAccess.Proofs.ByteOrder
import MeshAccess.Proofs.RuleFaults
import MeshAccess.Proofs.SavedPolicies

/-!
# Which policies are loaded, and which fault is reported

A text passes four stages before it is loaded as a policy, and each looks for faults in an order of
its own. `Verdict` says what loading a text has to come to, without going through the stages: the
size counts first, then whether the text holds a policy, then the least name of a group that is not
one, and then the first rule with a fault, of which its first counts.

`load_verdict` says that every text has exactly one verdict and that loading comes to it, with one
exception. Where the fault to be reported is a check period whose spans carry the sum past the
longest duration, loading breaks off over that sum. `load_breaks_off` is about such a text.
-/

namespace MeshAccess

/-- The fault as it is to be reported. -/
def PolicyFault.reported : PolicyFault → PolicyFault
  | .invalidRule index f => .invalidRule index f.reported
  | f => f

theorem PolicyFault.reported_eq_self {f : PolicyFault}
    (h : ∀ index p, f ≠ .invalidRule index (.periodOverrun p)) : f.reported = f := by
  cases f with
  | invalidRule index e =>
      exact congrArg _ (RuleFault.reported_eq_self fun p he => h index p (congrArg _ he))
  | _ => rfl

theorem PolicyFault.reported_eq_invalidRule {f : PolicyFault} {index : Nat} {e : RuleFault}
    (h : f.reported = .invalidRule index e) :
    ∃ e', f = .invalidRule index e' ∧ e'.reported = e := by
  cases f with
  | invalidRule i e' =>
      obtain ⟨rfl, he⟩ := PolicyFault.invalidRule.inj h
      exact ⟨e', rfl, he⟩
  | _ => cases h

/-! ## Names of groups -/

/-- The name begins as names of groups have to. -/
def NamesGroup (name : String) : Prop := "group:".toList <+: name.toList

theorem isGroupName_iff {name : String} : Alias.isGroupName name = true ↔ NamesGroup name :=
  Alias.startsWith_iff

namespace Policy

variable {p : Policy} {name : String}

/-- The name is the least, in the order of bytes, of those that do not begin as names of groups have
to. -/
structure LeastBadName (p : Policy) (name : String) : Prop where
  mem : name ∈ p.groups.keys
  bad : ¬NamesGroup name
  least : ∀ other ∈ p.groups.keys, ¬NamesGroup other → Text.utf8 name ≤ Text.utf8 other

theorem find?_bad_iff :
    p.groups.keys.find? (fun name => !Alias.isGroupName name) = some name
      ↔ p.LeastBadName name := by
  -- the map keeps its names in ascending order, so the first bad one is the least
  have hbad : ∀ name, (!Alias.isGroupName name) = true ↔ ¬NamesGroup name := by
    intro name
    rw [← isGroupName_iff, Bool.not_eq_true', Bool.not_eq_true]
  have hascending : p.groups.keys.Pairwise (· < ·) := List.pairwise_map.mpr p.groups.ascending
  rw [Text.find?_eq_some_iff_least hascending]
  simp only [hbad]
  constructor
  · rintro ⟨hmem, hno, hleast⟩
    exact ⟨hmem, hno, hleast⟩
  · rintro ⟨hmem, hno, hleast⟩
    exact ⟨hmem, hno, hleast⟩

theorem find?_bad_eq_none_iff :
    p.groups.keys.find? (fun name => !Alias.isGroupName name) = none
      ↔ ∀ name ∈ p.groups.keys, NamesGroup name := by
  simp only [List.find?_eq_none, Bool.not_eq_true', Bool.not_eq_false, isGroupName_iff]

/-! ## The first rule with a fault -/

/-- The rule at the index is the first one that has a fault, and this is its first. -/
def FirstFault (rules : List Rule) (index : Nat) (f : RuleFault) : Prop :=
  ∃ before r after, rules = before ++ r :: after ∧ before.length = index ∧
    (∀ q ∈ before, ∀ g, ¬q.HasFault g) ∧ r.HasFault f

/-- Rules that are accepted are passed, and counted. -/
theorem firstFault?_append {before rest : List Rule} {start : Nat}
    (h : ∀ q ∈ before, q.check = .ok ()) :
    firstFault? start (before ++ rest) = firstFault? (start + before.length) rest := by
  induction before generalizing start with
  | nil => rfl
  | cons q before ih =>
      obtain ⟨hq, hbefore⟩ := List.forall_mem_cons.mp h
      have hcount : start + (before.length + 1) = start + 1 + before.length := by omega
      rw [List.cons_append, List.length_cons, hcount, ← ih hbefore, firstFault?, hq]

/-- The search for a rule that is refused stops at the first one. -/
theorem firstFault?_eq_some_iff {rules : List Rule} {start index : Nat} {f : RuleFault} :
    firstFault? start rules = some (index, f) ↔
      ∃ before r after, rules = before ++ r :: after ∧ index = start + before.length ∧
        (∀ q ∈ before, q.check = .ok ()) ∧ r.check = .error f := by
  constructor
  · intro h
    -- counting starts one further on for the rules behind the first
    induction rules generalizing start with
    | nil => cases h
    | cons r rules ih =>
        rw [firstFault?] at h
        cases hc : r.check with
        | error e =>
            rw [hc] at h
            obtain ⟨rfl, rfl⟩ := Prod.mk.inj (Option.some.inj h)
            exact ⟨[], r, rules, rfl, rfl, fun q hq => absurd hq List.not_mem_nil, hc⟩
        | ok u =>
            rw [hc] at h
            obtain ⟨before, q, after, rfl, rfl, hbefore, hq⟩ := ih h
            refine ⟨r :: before, q, after, rfl, ?_, List.forall_mem_cons.mpr ⟨hc, hbefore⟩, hq⟩
            rw [List.length_cons]
            omega
  · rintro ⟨before, r, after, rfl, rfl, hbefore, hr⟩
    rw [firstFault?_append hbefore, firstFault?, hr]

theorem firstFault?_eq_none_iff {rules : List Rule} {start : Nat} :
    firstFault? start rules = none ↔ ∀ r ∈ rules, r.check = .ok () := by
  induction rules generalizing start with
  | nil => simp [firstFault?]
  | cons r rules ih =>
      rw [firstFault?, List.forall_mem_cons]
      cases hc : r.check with
      | error e => simp
      | ok u => simp [ih]

/-- What is reported of the first rule that is refused is the first fault of the rules. -/
theorem firstFault_iff {rules : List Rule} {index : Nat} {f : RuleFault} :
    FirstFault rules index f ↔
      ∃ e, firstFault? 0 rules = some (index, e) ∧ e.reported = f := by
  simp only [firstFault?_eq_some_iff, Nat.zero_add]
  constructor
  · rintro ⟨before, r, after, rfl, rfl, hbefore, hr⟩
    obtain ⟨e, he, rfl⟩ := Rule.hasFault_iff.mp hr
    exact ⟨e, ⟨before, r, after, rfl, rfl,
      fun q hq => Rule.check_eq_ok_iff.mpr (hbefore q hq), he⟩, rfl⟩
  · rintro ⟨e, ⟨before, r, after, rfl, rfl, hbefore, he⟩, rfl⟩
    exact ⟨before, r, after, rfl, rfl, fun q hq => Rule.check_eq_ok_iff.mp (hbefore q hq),
      Rule.hasFault_iff.mpr ⟨e, he, rfl⟩⟩

/-! ## Checks of a policy -/

theorem check_of_leastBadName (h : p.LeastBadName name) :
    p.check = .error (.invalidGroup name) := by
  rw [check]
  simp only [find?_bad_iff.mpr h]

theorem check_of_firstFault? {index : Nat} {e : RuleFault}
    (hn : ∀ name ∈ p.groups.keys, NamesGroup name) (h : firstFault? 0 p.rules = some (index, e)) :
    p.check = .error (.invalidRule index e) := by
  rw [check]
  simp only [find?_bad_eq_none_iff.mpr hn, h]

theorem check_of_forall (hn : ∀ name ∈ p.groups.keys, NamesGroup name)
    (h : ∀ r ∈ p.rules, r.check = .ok ()) : p.check = .ok () := by
  rw [check]
  simp only [find?_bad_eq_none_iff.mpr hn, firstFault?_eq_none_iff.mpr h]

/-- A policy that is refused for a rule has a rule that is refused for it. -/
theorem exists_rule_of_check {index : Nat} {e : RuleFault}
    (h : p.check = .error (.invalidRule index e)) : ∃ r ∈ p.rules, r.check = .error e := by
  rw [check] at h
  cases hbad : p.groups.keys.find? (fun name => !Alias.isGroupName name) with
  | some name =>
      simp only [hbad, Except.error.injEq] at h
      cases h
  | none =>
      cases hfirst : firstFault? 0 p.rules with
      | none =>
          simp only [hbad, hfirst] at h
          cases h
      | some first =>
          obtain ⟨i, f⟩ := first
          simp only [hbad, hfirst, Except.error.injEq, PolicyFault.invalidRule.injEq] at h
          obtain ⟨rfl, rfl⟩ := h
          obtain ⟨before, r, after, hrules, -, -, hr⟩ := firstFault?_eq_some_iff.mp hfirst
          exact ⟨r, hrules ▸ List.mem_append_right _ List.mem_cons_self, hr⟩

/-! ## Verdicts -/

/-- What loading a text has to come to. -/
inductive Verdict (text : String) : Except PolicyFault Policy → Prop where
  | tooLarge (hs : maxSize < text.utf8ByteSize) :
      Verdict text (.error (.tooLarge text.utf8ByteSize))
  | unreadable {f : Json.Fault} (hs : text.utf8ByteSize ≤ maxSize)
      (hr : Json.Document.read decode text = .error f) : Verdict text (.error (.unreadable f))
  | invalidGroup {p : Policy} {name : String} (hs : text.utf8ByteSize ≤ maxSize)
      (hr : Json.Document.read decode text = .ok p) (hn : p.LeastBadName name) :
      Verdict text (.error (.invalidGroup name))
  | invalidRule {p : Policy} {index : Nat} {f : RuleFault} (hs : text.utf8ByteSize ≤ maxSize)
      (hr : Json.Document.read decode text = .ok p) (hn : ∀ name ∈ p.groups.keys, NamesGroup name)
      (hf : FirstFault p.rules index f) : Verdict text (.error (.invalidRule index f))
  | accepted {p : Policy} (hs : text.utf8ByteSize ≤ maxSize)
      (hr : Json.Document.read decode text = .ok p) (hn : ∀ name ∈ p.groups.keys, NamesGroup name)
      (hf : ∀ r ∈ p.rules, ∀ f, ¬r.HasFault f) : Verdict text (.ok p)

section

variable {text : String}

/-- A text is judged by its size, by what it holds, by the names of the groups and by the rules. -/
theorem exists_verdict (text : String) : ∃ v, Verdict text v := by
  by_cases hs : maxSize < text.utf8ByteSize
  · exact ⟨_, .tooLarge hs⟩
  replace hs := Nat.not_lt.mp hs
  cases hr : Json.Document.read decode text with
  | error f => exact ⟨_, .unreadable hs hr⟩
  | ok p =>
      cases hbad : p.groups.keys.find? (fun name => !Alias.isGroupName name) with
      | some name => exact ⟨_, .invalidGroup hs hr (find?_bad_iff.mp hbad)⟩
      | none =>
          have hn := find?_bad_eq_none_iff.mp hbad
          cases hfirst : firstFault? 0 p.rules with
          | some first => exact ⟨_, .invalidRule hs hr hn (firstFault_iff.mpr ⟨_, hfirst, rfl⟩)⟩
          | none =>
              refine ⟨_, .accepted hs hr hn ?_⟩
              intro r hmem
              exact Rule.check_eq_ok_iff.mp (firstFault?_eq_none_iff.mp hfirst r hmem)

/-- Up to how an overrun is reported, loading a text comes to its verdict. -/
theorem Verdict.load {v : Except PolicyFault Policy} (h : Verdict text v) :
    (load text).mapError PolicyFault.reported = v := by
  cases h with
  | tooLarge hs =>
      rw [load_of_tooLarge hs]
      rfl
  | unreadable hs hr =>
      rw [load_of_unreadable hs hr]
      rfl
  | invalidGroup hs hr hn =>
      rw [load_of_read hs hr, check_of_leastBadName hn]
      rfl
  | invalidRule hs hr hn hf =>
      obtain ⟨e, hfirst, rfl⟩ := firstFault_iff.mp hf
      rw [load_of_read hs hr, check_of_firstFault? hn hfirst]
      rfl
  | accepted hs hr hn hf =>
      rw [load_of_read hs hr, check_of_forall hn fun r hmem => Rule.check_eq_ok_iff.mpr (hf r hmem)]
      rfl

/-- A text has exactly one verdict. -/
theorem verdict_iff {v : Except PolicyFault Policy} :
    Verdict text v ↔ (load text).mapError PolicyFault.reported = v := by
  constructor
  · exact Verdict.load
  · intro h
    obtain ⟨w, hw⟩ := exists_verdict text
    rw [← h, hw.load]
    exact hw

/-! ## Overruns -/

/-- The verdict is about a check period of which the spans carry the sum past the longest
duration. -/
structure Overrun (v : Except PolicyFault Policy) (index : Nat) (p : String) : Prop where
  verdict : v = .error (.invalidRule index (.invalidPeriod p))
  sum : Duration.read p = .error .overrun

/-- A text that is refused for a rule holds a rule that is refused for it. -/
theorem exists_rule_of_load {index : Nat} {e : RuleFault}
    (h : load text = .error (.invalidRule index e)) : ∃ r : Rule, r.check = .error e := by
  by_cases hs : maxSize < text.utf8ByteSize
  · rw [load_of_tooLarge hs] at h
    cases h
  replace hs := Nat.not_lt.mp hs
  cases hr : Json.Document.read decode text with
  | error f =>
      rw [load_of_unreadable hs hr] at h
      cases h
  | ok p =>
      rw [load_of_read hs hr] at h
      cases hc : p.check with
      | ok u =>
          rw [hc] at h
          cases h
      | error f =>
          rw [hc] at h
          obtain rfl : f = .invalidRule index e := Except.error.inj h
          obtain ⟨r, -, hcheck⟩ := exists_rule_of_check hc
          exact ⟨r, hcheck⟩

/-- Loading breaks off exactly where the verdict is about an overrun. -/
theorem overrun_iff {v : Except PolicyFault Policy} {index : Nat} {p : String}
    (hv : Verdict text v) :
    Overrun v index p ↔ load text = .error (.invalidRule index (.periodOverrun p)) := by
  have hload := hv.load
  constructor
  · rintro ⟨rfl, hsum⟩
    cases hl : load text with
    | ok q =>
        rw [hl] at hload
        cases hload
    | error f =>
        rw [hl] at hload
        obtain ⟨e, rfl, he⟩ := PolicyFault.reported_eq_invalidRule (Except.error.inj hload)
        -- the spans tell which of the two faults stands behind the reported one
        obtain ⟨r, hr⟩ := exists_rule_of_load hl
        rw [(Rule.read_eq_overrun_iff hr he).mp hsum]
  · intro hl
    rw [hl] at hload
    obtain ⟨r, hr⟩ := exists_rule_of_load hl
    exact ⟨hload.symm, (Rule.read_eq_overrun_iff hr rfl).mpr rfl⟩

/-- **Loading accepts the valid policies and reports the first fault.** Every text has exactly one
verdict. Loading comes to it unless the verdict is about an overrun, and then it breaks off over
this overrun. -/
theorem load_verdict (text : String) :
    ∃ v, (∀ w, Verdict text w ↔ w = v) ∧
      ((∀ index p, ¬Overrun v index p) → load text = v) ∧
      ∀ index p,
        Overrun v index p ↔ load text = .error (.invalidRule index (.periodOverrun p)) := by
  obtain ⟨v, hv⟩ := exists_verdict text
  refine ⟨v, ?_, ?_, fun index p => overrun_iff hv⟩
  · intro w
    rw [verdict_iff, hv.load, eq_comm]
  · intro hno
    have hload := hv.load
    cases hl : load text with
    | ok q =>
        rw [hl] at hload
        exact hload
    | error f =>
        rw [hl] at hload
        rw [← hload]
        refine congrArg Except.error (PolicyFault.reported_eq_self ?_).symm
        intro index p hf
        exact hno index p ((overrun_iff hv).mpr (hl.trans (congrArg Except.error hf)))

end

/-! ## A sum that runs over -/

namespace SpansRunOver

/-- The spans of the check period come to one second more than the longest duration has. -/
def text : String :=
  "\x7b\"ssh\":[\x7b\"action\":\"check\",\"checkPeriod\":\"18446744073709551615s 1000ms\",
  \"src\":[\"a\"],\"dst\":[\"b\"],\"users\":[\"c\"]\x7d]\x7d"

/-- The policy that the text holds. -/
def policy : Policy where
  groups := .empty
  rules := [⟨.check, some "18446744073709551615s 1000ms", ["a"], ["b"], ["c"], [], false⟩]

set_option maxRecDepth 4000 in
theorem read_text : Json.Document.read decode text = .ok policy :=
  Json.Document.read_eq_ok (Json.Document.ofText_eq_build rfl)
    (Json.eq_ok_of_toOption (by decide +kernel)) (by decide +kernel)

theorem load_text :
    load text = .error (.invalidRule 0 (.periodOverrun "18446744073709551615s 1000ms")) := by
  have hn : ∀ name ∈ policy.groups.keys, NamesGroup name := by
    intro name hname
    cases hname
  have hfirst : firstFault? 0 policy.rules
      = some (0, .periodOverrun "18446744073709551615s 1000ms") := by decide +kernel
  rw [load_of_read (by decide +kernel) read_text, check_of_firstFault? hn hfirst]
  rfl

end SpansRunOver

/-- **Loading may break off.** The verdict on a text is that a rule has a bad check period, and
loading does not come to it. -/
theorem load_breaks_off :
    ¬∀ (text : String) (v : Except PolicyFault Policy), Verdict text v → load text = v := by
  intro h
  obtain ⟨v, hv⟩ := exists_verdict SpansRunOver.text
  have hload := h SpansRunOver.text v hv
  have hover := (overrun_iff hv).mpr SpansRunOver.load_text
  rw [SpansRunOver.load_text, hover.verdict] at hload
  cases hload

end Policy

end MeshAccess
