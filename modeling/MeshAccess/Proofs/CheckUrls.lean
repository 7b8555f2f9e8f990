import Mathlib.Data.List.DropRight
import MeshAccess.Proofs.Entries
import MeshAccess.Proofs.PolicyFaults

/-!
# Check periods in the URLs of held sessions

A session that is held is delegated to a URL that ends in the check period of its rule, and the
period stands there as it was given. `checkUrl_carries_period` says that it can be read back all the
same: it is what follows the last slash, so that under given settings rules share a URL exactly when
they share a period, and slashes at the end of the start of the URL make no difference.

The period can be told from the rest because no period of an accepted rule holds a slash
(`slash_not_mem_period`). A duration is read span by span, and each span takes only characters of
numbers and units off the text (`spanChar_or_mem_of_readSpan`), so the whole text has no others.
-/

namespace MeshAccess

/-! ## Characters of durations -/

namespace Duration

variable {d e : Duration} {cs rest : List Char} {c : Char}

/-- A character of a number, with the white space in it, of a unit, or the point. -/
def SpanChar (c : Char) : Prop := isNumberChar c = true ∨ isUnitLetter c = true ∨ c = '.'

theorem mem_dropWhile_of_mem {p : Char → Bool} (h : c ∈ cs) :
    p c = true ∨ c ∈ cs.dropWhile p := by
  rw [← List.takeWhile_append_dropWhile (p := p) (l := cs), List.mem_append] at h
  exact h.imp_left List.mem_takeWhile_imp

theorem spanChar_or_mem_of_finishSpan {n : Nat} {f : Option Fraction}
    (h : finishSpan d n f cs = .ok (e, rest)) (hc : c ∈ cs) : SpanChar c ∨ c ∈ rest := by
  rw [finishSpan] at h
  split at h
  · cases ha : addSpan d n f (cs.takeWhile isUnitLetter) with
    | error f =>
        rw [ha] at h
        cases h
    | ok d' =>
        rw [ha] at h
        obtain ⟨-, rfl⟩ := Prod.mk.inj (Except.ok.inj h)
        exact (mem_dropWhile_of_mem hc).imp_left fun h => Or.inr (Or.inl h)
  · cases h

/-- A span takes nothing but its characters off the text. -/
theorem spanChar_or_mem_of_readSpan (h : readSpan d cs = .ok (e, rest)) (hc : c ∈ cs) :
    SpanChar c ∨ c ∈ rest := by
  rw [readSpan] at h
  rcases mem_dropWhile_of_mem hc with hnumber | hc
  · exact Or.inl (Or.inl hnumber)
  split at h
  · cases h
  · rename_i ds _ hpoint
    split at h
    · cases h
    · -- behind the number stand the point, the fraction and the unit
      rw [hpoint, List.mem_cons] at hc
      rcases hc with rfl | hc
      · exact Or.inl (Or.inr (Or.inr rfl))
      rcases mem_dropWhile_of_mem hc with hnumber | hc
      · exact Or.inl (Or.inl hnumber)
      · exact spanChar_or_mem_of_finishSpan h hc
  · exact spanChar_or_mem_of_finishSpan h hc

/-- A row of spans has no other characters. -/
theorem spanChar_of_readSpans (h : readSpans d cs = .ok e) : ∀ c ∈ cs, SpanChar c := by
  intro c hc
  -- the white space in front of a span counts among the characters of numbers
  fun_induction readSpans d cs with
  | case1 d cs hblank =>
      rcases mem_dropWhile_of_mem hc with hb | hc
      · exact Or.inl (Bool.or_eq_true_iff.mpr (Or.inr hb))
      · rw [hblank] at hc
        exact absurd hc List.not_mem_nil
  | case2 => cases h
  | case3 d cs c' ds hblank _ d' rest hspan ih =>
      rcases mem_dropWhile_of_mem hc with hb | hc
      · exact Or.inl (Bool.or_eq_true_iff.mpr (Or.inr hb))
      · rw [hblank] at hc
        exact (spanChar_or_mem_of_readSpan hspan hc).elim id (ih h)
  | case4 => cases h

theorem not_spanChar_slash : ¬SpanChar '/' := by
  have hnumber : ¬isNumberChar '/' = true := by decide
  have hunit : ¬isUnitLetter '/' = true := by decide
  rintro (h | h | h)
  · exact hnumber h
  · exact hunit h
  · exact absurd h (by decide)

/-- No text of a duration holds a slash. -/
theorem slash_not_mem_of_read {p : String} (h : read p = .ok d) : '/' ∉ p.toList := by
  intro hslash
  rw [read] at h
  split at h
  · rename_i hzero
    rw [hzero] at hslash
    exact absurd hslash (by decide)
  · split at h
    · cases h
    · exact not_spanChar_slash (spanChar_of_readSpans h '/' hslash)

end Duration

/-! ## Periods -/

namespace Rule

variable {r : Rule} {p : String}

/-- The period is the one that takes effect: the one that is given, or `always` if there is none or
an empty one. -/
inductive Effective (r : Rule) : String → Prop where
  | given {p : String} (h : r.checkPeriod = some p) (hne : p ≠ "") : Effective r p
  | absent (h : r.checkPeriod = none) : Effective r "always"
  | empty (h : r.checkPeriod = some "") : Effective r "always"

theorem effective_iff : r.Effective p ↔ r.period = p := by
  rw [period]
  constructor
  · intro h
    cases h with
    | given h hne =>
        rw [h]
        exact if_neg hne
    | absent h =>
        rw [h]
        rfl
    | empty h =>
        rw [h]
        rfl
  · rintro rfl
    cases hgiven : r.checkPeriod with
    | none => exact .absent hgiven
    | some q =>
        by_cases hq : q = ""
        · rw [hq] at hgiven
          simp only [hq, if_true]
          exact .empty hgiven
        · simp only [hq, if_false]
          exact .given hgiven hq

/-- The period of an accepted rule holds no slash. -/
theorem slash_not_mem_period (h : r.check = .ok ()) : '/' ∉ r.period.toList := by
  have hno := check_eq_ok_iff.mp h
  have hs : r.src ≠ [] := fun h => hno _ (.src h)
  have hd : r.dst ≠ [] := fun h => hno _ (.dst hs h)
  have hu : r.users ≠ [] := fun h => hno _ (.users hs hd h)
  by_cases ha : r.period = always
  · rw [ha]
    decide
  · cases hread : Duration.read r.period with
    | ok d => exact Duration.slash_not_mem_of_read hread
    | error e =>
        have hbad : r.BadPeriod r.period := badPeriod_iff.mpr ⟨rfl, ha, by simp [hread]⟩
        exact absurd (.period hs hd hu hbad) (hno _)

end Rule

/-- The rules of an accepted policy are all accepted. -/
theorem Policy.check_of_mem_rules {p : Policy} {r : Rule} (h : p.check = .ok ())
    (hr : r ∈ p.rules) : r.check = .ok () := by
  rw [check] at h
  split at h
  · cases h
  · split at h
    · cases h
    · rename_i hnone
      exact firstFault?_eq_none_iff.mp hnone r hr

/-! ## URLs -/

namespace Settings

variable {s : Settings} {start base url period : String}

/-- The text `base` is `start` without the slashes at its end. -/
def WithoutSlashes (start base : String) : Prop :=
  (∃ k, start.toList = base.toList ++ List.replicate k '/') ∧ base.toList.getLast? ≠ some '/'

/-- The texts differ in nothing but the number of slashes at their ends. -/
def SameButSlashes (start start' : String) : Prop :=
  ∃ base j k, start.toList = base ++ List.replicate j '/' ∧
    start'.toList = base ++ List.replicate k '/'

/-- What follows the last slash of a URL. -/
def behindLastSlash (url : String) : String :=
  String.ofList (url.toList.rtakeWhile (· != '/'))

/-- The URL for checks every `period`, from which the period can be read back. -/
structure Carries (start period url : String) : Prop where
  url_eq : ∃ base, WithoutSlashes start base ∧
    url = base ++ "/$SRC_NODE_ID/to/$DST_NODE_ID/" ++ period
  behindLastSlash_eq : behindLastSlash url = period

theorem toList_dropSlashes (start : String) :
    (dropSlashes start).toList = start.toList.rdropWhile (· == '/') :=
  String.toList_ofList

theorem withoutSlashes_dropSlashes (start : String) :
    WithoutSlashes start (dropSlashes start) := by
  rw [WithoutSlashes, toList_dropSlashes]
  constructor
  · have hsplit := List.rdropWhile_append_rtakeWhile (p := (· == '/')) (l := start.toList)
    have hslashes : ∀ c ∈ start.toList.rtakeWhile (· == '/'), c = '/' := by
      intro c hc
      have hslash : (c == '/') = true := List.mem_rtakeWhile_imp (p := (· == '/')) hc
      exact beq_iff_eq.mp hslash
    exact ⟨_, hsplit.symm.trans (congrArg _ (List.eq_replicate_of_mem hslashes))⟩
  · intro hlast
    obtain ⟨hne, hslash⟩ := List.mem_getLast?_eq_getLast hlast
    exact List.rdropWhile_last_not (· == '/') start.toList hne (beq_iff_eq.mpr hslash.symm)

theorem rdropWhile_append_slashes (base : List Char) (k : Nat) :
    (base ++ List.replicate k '/').rdropWhile (· == '/') = base.rdropWhile (· == '/') := by
  induction k with
  | zero => rw [List.replicate_zero, List.append_nil]
  | succ k ih =>
      rw [List.replicate_succ', ← List.append_assoc, List.rdropWhile_concat_pos _ _ _ rfl, ih]

theorem dropSlashes_eq_of_sameButSlashes {start' : String} (h : SameButSlashes start start') :
    dropSlashes start = dropSlashes start' := by
  obtain ⟨base, j, k, hj, hk⟩ := h
  apply String.toList_injective
  rw [toList_dropSlashes, toList_dropSlashes, hj, hk, rdropWhile_append_slashes,
    rdropWhile_append_slashes]

/-- A text without slashes is read back from behind the last slash. -/
theorem behindLastSlash_append {after : String} (h : '/' ∉ after.toList) (before : List Char)
    (hurl : url.toList = before ++ '/' :: after.toList) : behindLastSlash url = after := by
  have hkeep : ∀ c ∈ after.toList.reverse, (c != '/') = true := by
    intro c hc
    refine bne_iff_ne.mpr ?_
    rintro rfl
    exact h (List.mem_reverse.mp hc)
  rw [behindLastSlash, hurl, List.rtakeWhile, List.reverse_append, List.reverse_cons,
    List.append_assoc, List.takeWhile_append_of_pos hkeep, List.singleton_append,
    List.takeWhile_cons_of_neg (by decide), List.append_nil, List.reverse_reverse,
    String.ofList_toList]

theorem carries_checkUrl (h : '/' ∉ period.toList) :
    Carries s.checkUrlStart period (s.checkUrl period) where
  url_eq := ⟨_, withoutSlashes_dropSlashes _, rfl⟩
  behindLastSlash_eq := by
    have hplaceholders : "/$SRC_NODE_ID/to/$DST_NODE_ID/".toList
        = "/$SRC_NODE_ID/to/$DST_NODE_ID".toList ++ ['/'] := by decide
    refine behindLastSlash_append h
      ((dropSlashes s.checkUrlStart).toList ++ "/$SRC_NODE_ID/to/$DST_NODE_ID".toList) ?_
    rw [checkUrl, String.toList_append, String.toList_append, hplaceholders, List.append_assoc,
      List.append_assoc, List.append_assoc, List.singleton_append]

end Settings

namespace Compiler

open Settings

variable {s : Settings} {e : Entry}

/-- The entry stems from a check rule of an accepted policy that is compiled under the settings. -/
structure Held (s : Settings) (e : Entry) : Prop where
  compiled : ∃ text p srcs dst, Policy.load text = .ok p ∧ e ∈ (Compiler.mk p s).entries srcs dst
  check : e.origin.action = .check

theorem Held.rule_check (h : Held s e) : e.origin.check = .ok () := by
  obtain ⟨⟨text, p, srcs, dst, hload, he⟩, -⟩ := h
  obtain ⟨user, hemit⟩ := emitted_of_mem he
  exact Policy.check_of_mem_rules (Policy.load_eq_ok_iff.mp hload).2.2 hemit.origin

theorem Held.holdAndDelegate (h : Held s e) :
    e.rule.action.holdAndDelegate = some (s.checkUrl e.origin.period) := by
  obtain ⟨⟨text, p, srcs, dst, -, he⟩, hcheck⟩ := h
  obtain ⟨user, hemit⟩ := emitted_of_mem he
  rw [hemit.action, holdAndDelegate_action, if_pos hcheck]

theorem Held.carries (h : Held s e) :
    Carries s.checkUrlStart e.origin.period (s.checkUrl e.origin.period) :=
  carries_checkUrl (Rule.slash_not_mem_period h.rule_check)

/-- Under the same settings, URLs are the same where periods are. -/
theorem Held.holdAndDelegate_eq_iff {e' : Entry} (h : Held s e) (h' : Held s e') :
    e.rule.action.holdAndDelegate = e'.rule.action.holdAndDelegate
      ↔ e.origin.period = e'.origin.period := by
  rw [h.holdAndDelegate, h'.holdAndDelegate, Option.some.injEq]
  constructor
  · intro hurl
    rw [← h.carries.behindLastSlash_eq, hurl, h'.carries.behindLastSlash_eq]
  · intro hperiod
    rw [hperiod]

theorem compile_of_sameButSlashes {start : String} (h : SameButSlashes s.checkUrlStart start)
    (p : Policy) (srcs : List OwnedNode) (dst : OwnedNode) :
    (Compiler.mk p { s with checkUrlStart := start }).compile srcs dst
      = (Compiler.mk p s).compile srcs dst := by
  have hurl : ({ s with checkUrlStart := start } : Settings).checkUrl = s.checkUrl := by
    funext period
    rw [checkUrl, checkUrl, dropSlashes_eq_of_sameButSlashes h]
  have haction : ∀ r,
      action { s with checkUrlStart := start } r srcs dst = action s r srcs dst := by
    intro r
    rw [action, action, baseAction, baseAction, hurl]
  rw [compile, compile]
  refine congrArg Wire.Document.mk (List.flatMap_congr ?_)
  intro r _
  exact compileRule_congr rfl rfl (haction r) fun _ => rfl

/-- **The check period can be read back from the URL.** The entries of a compiled policy are the
rules of its document, one by one. Where they hold sessions, they delegate to the URL with the
effective period of the rule that they stem from, which is what follows the last slash. Under the
same settings two rules have one URL exactly when they have one effective period, and slashes at the
end of the start of the URL make no difference to any document. -/
theorem checkUrl_carries_period (s : Settings) :
    (∀ p srcs dst, ((Compiler.mk p s).compile srcs dst).rules
        = ((Compiler.mk p s).entries srcs dst).map Entry.rule) ∧
      (∀ e, Held s e → ∃ period url, e.origin.Effective period ∧
          e.rule.action.holdAndDelegate = some url ∧ Carries s.checkUrlStart period url) ∧
      (∀ e e', Held s e → Held s e' →
          (e.rule.action.holdAndDelegate = e'.rule.action.holdAndDelegate
            ↔ ∃ period, e.origin.Effective period ∧ e'.origin.Effective period)) ∧
      ∀ start, SameButSlashes s.checkUrlStart start → ∀ p srcs dst,
        (Compiler.mk p { s with checkUrlStart := start }).compile srcs dst
          = (Compiler.mk p s).compile srcs dst := by
  refine ⟨fun p srcs dst => map_rule_entries.symm, ?_, ?_,
    fun start h p srcs dst => compile_of_sameButSlashes h p srcs dst⟩
  · intro e h
    exact ⟨_, _, Rule.effective_iff.mpr rfl, h.holdAndDelegate, h.carries⟩
  · intro e e' h h'
    rw [h.holdAndDelegate_eq_iff h']
    simp only [Rule.effective_iff]
    constructor
    · intro hperiod
      exact ⟨_, hperiod, rfl⟩
    · rintro ⟨period, rfl, hperiod⟩
      exact hperiod.symm

/-! ## Two check rules -/

namespace TwoPeriods

/-- Members may log in on their own nodes as root after a check, and as an operator after a check
before every session. -/
def text : String :=
  "\x7b\"ssh\":[\x7b\"action\":\"check\",\"checkPeriod\":\"1h 30m\",
  \"src\":[\"autogroup:member\"],\"dst\":[\"autogroup:self\"],\"users\":[\"root\"]\x7d,
  \x7b\"action\":\"check\",\"checkPeriod\":\"\",
  \"src\":[\"autogroup:member\"],\"dst\":[\"autogroup:self\"],\"users\":[\"ops\"]\x7d]\x7d"

/-- The rule with a period. -/
def timed : Rule :=
  ⟨.check, some "1h 30m", ["autogroup:member"], ["autogroup:self"], ["root"], [], false⟩

/-- The rule with an empty period. -/
def untimed : Rule :=
  ⟨.check, some "", ["autogroup:member"], ["autogroup:self"], ["ops"], [], false⟩

/-- The policy that the text holds. -/
def policy : Policy := ⟨.empty, [timed, untimed]⟩

/-- Settings with slashes at the end of the start of the URL. -/
def settings : Settings := { Settings.standard with checkUrlStart := "https://ctl/ssh//" }

/-- A user. -/
def ann : User := ⟨⟨1⟩, "ann", none⟩

/-- A node of the user. -/
def desk : OwnedNode := ⟨⟨⟨1⟩, "desk", some ⟨10, 0, 0, 1⟩, none, some ⟨1⟩, []⟩, some ann⟩

/-- Another node of the user. -/
def laptop : OwnedNode := ⟨⟨⟨2⟩, "laptop", some ⟨10, 0, 0, 2⟩, none, some ⟨1⟩, []⟩, some ann⟩

/-- What a rule yields for the desk. -/
def entry (r : Rule) : Entry :=
  ⟨r, .own, ⟨[⟨"10.0.0.2"⟩], Logins.ofTokens r.users, .hold (settings.checkUrl r.period)⟩⟩

set_option maxRecDepth 4000 in
theorem load_text : Policy.load text = .ok policy :=
  Policy.load_eq_ok (Json.Document.ofText_eq_build rfl) (by decide +kernel) (by decide +kernel)
    (by decide +kernel) (by decide +kernel)

theorem held_timed : Held settings (entry timed) := by
  have hw : (entry timed).rule ∈ scopedRule ⟨policy, settings⟩ [laptop] desk timed .own := by
    decide +kernel
  exact ⟨⟨text, policy, [laptop], desk, load_text, mem_entries List.mem_cons_self rfl hw⟩, rfl⟩

theorem held_untimed : Held settings (entry untimed) := by
  have hw : (entry untimed).rule ∈ scopedRule ⟨policy, settings⟩ [laptop] desk untimed .own := by
    decide +kernel
  have hmem : untimed ∈ policy.rules := List.mem_cons_of_mem _ List.mem_cons_self
  exact ⟨⟨text, policy, [laptop], desk, load_text, mem_entries hmem rfl hw⟩, rfl⟩

end TwoPeriods

/-- The period is read back from the URL of the first rule, and the second has another URL. -/
theorem checkUrl_carries_period_twoPeriods :
    Held TwoPeriods.settings (TwoPeriods.entry TwoPeriods.timed) ∧
      Held TwoPeriods.settings (TwoPeriods.entry TwoPeriods.untimed) ∧
      Carries "https://ctl/ssh//" "1h 30m" "https://ctl/ssh/$SRC_NODE_ID/to/$DST_NODE_ID/1h 30m" ∧
      (TwoPeriods.entry TwoPeriods.timed).rule.action.holdAndDelegate
        ≠ (TwoPeriods.entry TwoPeriods.untimed).rule.action.holdAndDelegate := by
  obtain ⟨-, hcarries, hsame, -⟩ := checkUrl_carries_period TwoPeriods.settings
  refine ⟨TwoPeriods.held_timed, TwoPeriods.held_untimed, ?_, ?_⟩
  · obtain ⟨period, url, heffective, hurl, h⟩ := hcarries _ TwoPeriods.held_timed
    obtain rfl := Rule.effective_iff.mp heffective
    obtain rfl : "https://ctl/ssh/$SRC_NODE_ID/to/$DST_NODE_ID/1h 30m" = url :=
      Option.some.inj (Eq.trans (by decide +kernel) hurl)
    exact h
  · intro hurl
    obtain ⟨period, htimed, huntimed⟩ :=
      (hsame _ _ TwoPeriods.held_timed TwoPeriods.held_untimed).mp hurl
    have heq := (Rule.effective_iff.mp htimed).trans (Rule.effective_iff.mp huntimed).symm
    exact absurd heq (by decide)

end Compiler

end MeshAccess
