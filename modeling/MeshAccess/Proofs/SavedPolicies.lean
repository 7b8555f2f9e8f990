import MeshAccess.Policy.Document
import MeshAccess.Proofs.Encodings

/-!
# Policies saved and loaded again

A policy may be written in many ways: as an object or an array, with unknown members, with several
lists for one group, with any word for an action. What is loaded keeps of this only the policy, and
`load_saved` says that nothing is lost when it is written again: the written form is loaded as the
same policy, as long as it is not too large.

The document of a policy is a written form of it (`Policy.encodes`), whatever the policy is, and so
loading it leaves only the checks (`load_toJson_iff`); a policy that was loaded has passed them
(`load_eq_ok_iff`).
-/

namespace MeshAccess

open Json (Encodes)
open Json.Record (Reads)

namespace RuleAction

/-- The word for an action names the action; for an unknown one this is a word of its own. -/
theorem ofWord_word (a : RuleAction) : ofWord a.word = a := by
  cases a <;> decide

theorem encodes (a : RuleAction) : Encodes decode (.text a.word) a :=
  ⟨.text a.word, congrArg Except.ok a.ofWord_word⟩

end RuleAction

namespace Rule

theorem encodes (r : Rule) : Encodes decode r.toJson r := by
  rw [toJson]
  simp only [List.cons_append, List.append_assoc, List.nil_append]
  exact .record (((Reads.given r.action.encodes).and
    ((Reads.optionalText "checkPeriod" r.checkPeriod).and
      ((Reads.given (.texts r.src)).and
        ((Reads.given (.texts r.dst)).and
          ((Reads.given (.texts r.users)).and
            ((Reads.items .texts r.recorder).and
              (.flag "enforceRecorder" r.enforceRecorder))))))).map _)

end Rule

namespace Policy

variable {p : Policy}

/-- The document of any policy is a written form of it. -/
theorem encodes (p : Policy) : Encodes decode p.toJson p :=
  .record (((Reads.given (.map fun e _ => .texts e.2)).and
    (.given (.list fun r _ => r.encodes))).map _)

/-- Size comes first, whatever the text holds. -/
theorem load_of_tooLarge {text : String} (hs : maxSize < text.utf8ByteSize) :
    load text = .error (.tooLarge text.utf8ByteSize) := by
  rw [load, if_pos hs]

theorem load_of_unreadable {text : String} {f : Json.Fault} (hs : text.utf8ByteSize ≤ maxSize)
    (hr : Json.Document.read decode text = .error f) : load text = .error (.unreadable f) := by
  rw [load, if_neg (Nat.not_lt.mpr hs)]
  simp only [hr]

theorem load_of_read {text : String} (hs : text.utf8ByteSize ≤ maxSize)
    (hr : Json.Document.read decode text = .ok p) : load text = p.check.map fun _ => p := by
  rw [load, if_neg (Nat.not_lt.mpr hs)]
  simp only [hr]
  cases p.check <;> rfl

/-- A text is loaded as a policy when it is small enough, holds the policy, and the policy passes
the checks. -/
theorem load_eq_ok_iff {text : String} :
    load text = .ok p ↔ text.utf8ByteSize ≤ maxSize ∧ Json.Document.read decode text = .ok p ∧
      p.check = .ok () := by
  by_cases hs : maxSize < text.utf8ByteSize
  · rw [load_of_tooLarge hs]
    exact ⟨nofun, fun h => absurd h.1 (Nat.not_le_of_lt hs)⟩
  replace hs := Nat.not_lt.mp hs
  cases hr : Json.Document.read decode text with
  | error f =>
      rw [load_of_unreadable hs hr]
      exact ⟨nofun, fun h => nomatch h.2.1⟩
  | ok q =>
      rw [load_of_read hs hr]
      constructor
      · intro h
        cases hcheck : q.check with
        | error f =>
            rw [hcheck] at h
            exact nomatch h
        | ok u =>
            rw [hcheck] at h
            obtain rfl : q = p := Except.ok.inj h
            exact ⟨hs, rfl, hcheck⟩
      · rintro ⟨-, h, hcheck⟩
        obtain rfl : q = p := Except.ok.inj h
        rw [hcheck]
        rfl

/-- A small text whose document is that of an acceptable policy is loaded. -/
theorem load_eq_ok {text : String} {d : Json.Document} (hd : Json.Document.ofText text = d)
    (hsize : text.utf8ByteSize ≤ maxSize) (hv : (decode d.value).toOption = some p)
    (ht : d.trailing = false) (hcheck : p.check.toOption = some ()) : load text = .ok p :=
  load_eq_ok_iff.mpr ⟨hsize, Json.Document.read_eq_ok hd (Json.eq_ok_of_toOption hv) ht,
    Json.eq_ok_of_toOption hcheck⟩

/-- The document of a policy is loaded as the policy when it is small enough and the policy passes
the checks. -/
theorem load_toJson_iff :
    load p.toJson.compact = .ok p
      ↔ p.toJson.compact.utf8ByteSize ≤ maxSize ∧ p.check = .ok () := by
  rw [load_eq_ok_iff]
  exact and_congr_right fun _ => and_iff_right p.encodes.read_compact

/-- **Saving and loading a policy changes nothing.** Whatever text a policy was loaded from, its
compact document is loaded as the same policy, if it is not too large, and is then written as the
same text again. -/
theorem load_saved {text : String} (h : load text = .ok p)
    (hsize : p.toJson.compact.utf8ByteSize ≤ maxSize) :
    load p.toJson.compact = .ok p ∧
      (load p.toJson.compact).map (fun q => q.toJson.compact) = .ok p.toJson.compact := by
  obtain ⟨-, -, hcheck⟩ := load_eq_ok_iff.mp h
  have hload : load p.toJson.compact = .ok p := load_toJson_iff.mpr ⟨hsize, hcheck⟩
  refine ⟨hload, ?_⟩
  rw [hload]
  rfl

/-! ## A policy in mixed forms -/

namespace MixedForms

/-- An unknown member, two lists for one group, a rule with an unknown action as an object, and a
rule as an array. -/
def text : String :=
  "\x7b\"acls\":[1.50e999,\x7b\x7d],
  \"groups\":\x7b\"group:ops\":[\"bob@example.com\"],\"group:ops\":[\"ann@example.com\"]\x7d,
  \"ssh\":[\x7b\"users\":[\"root\"],\"action\":\"deny\",\"checkPeriod\":null,\"recorder\":[],
  \"dst\":[\"tag:prod\"],\"src\":[\"group:ops\"]\x7d,
  [\x7b\"check\":null\x7d,\"12h\",[\"tag:ci\"],[\"autogroup:self\"],[\"autogroup:nonroot\"]]]\x7d"

/-- The policy that the text holds. -/
def policy : Policy where
  groups := SortedMap.empty.insert "group:ops" ["ann@example.com"]
  rules := [⟨.unknown, none, ["group:ops"], ["tag:prod"], ["root"], [], false⟩,
    ⟨.check, some "12h", ["tag:ci"], ["autogroup:self"], ["autogroup:nonroot"], [], false⟩]

set_option maxRecDepth 4000 in
theorem load_text : load text = .ok policy :=
  load_eq_ok (Json.Document.ofText_eq_build rfl) (by decide +kernel) (by decide +kernel)
    (by decide +kernel) (by decide +kernel)

end MixedForms

/-- The policy is loaded, and its document is loaded as the same policy. -/
theorem load_saved_of_mixedForms :
    load MixedForms.text = .ok MixedForms.policy ∧
      MixedForms.policy.toJson.compact.utf8ByteSize ≤ maxSize ∧
      load MixedForms.policy.toJson.compact = .ok MixedForms.policy ∧
      (load MixedForms.policy.toJson.compact).map (fun q => q.toJson.compact)
        = .ok MixedForms.policy.toJson.compact := by
  have hsize : MixedForms.policy.toJson.compact.utf8ByteSize ≤ maxSize := by decide +kernel
  exact ⟨MixedForms.load_text, hsize, load_saved MixedForms.load_text hsize⟩

end Policy

end MeshAccess
