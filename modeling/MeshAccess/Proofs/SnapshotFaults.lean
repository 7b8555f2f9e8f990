import Mathlib.Data.List.Nodup
import MeshAccess.Proofs.SavedSnapshots

/-!
# Which snapshots are loaded, and which fault is reported

A text that holds a snapshot is loaded when the tags of every node are sound: at most a hundred, and
none of them twice. `Node.HasFault` says which fault a node has otherwise, without going through the
check: too many tags come first, and of repeated ones the first that equals an earlier one counts.
`FirstOffence` says which node of a snapshot is reported for its fault, and `load_admits` that
loading comes to just that.

The search for a repeated tag keeps the tags it has seen, so its lemmas speak of any tags seen
before: `Fresh` tags are passed (`firstRepeated?_append`), and the next one is found if it is not.
-/

namespace MeshAccess

namespace Node

variable {n : Node} {f : NodeFault}

/-! ## Repeated items -/

/-- None of the items was seen before, and none of them is repeated. -/
def Fresh (seen ts : List String) : Prop := ts.Nodup ∧ ∀ t ∈ ts, t ∉ seen

section Search

variable {seen before ts : List String} {t : String}

theorem fresh_cons : Fresh seen (t :: ts) ↔ t ∉ seen ∧ Fresh (t :: seen) ts := by
  rw [Fresh, Fresh, List.nodup_cons, List.forall_mem_cons]
  simp only [List.mem_cons, not_or]
  constructor
  · rintro ⟨⟨hnew, hnodup⟩, ht, hseen⟩
    refine ⟨ht, hnodup, fun s hs => ⟨?_, hseen s hs⟩⟩
    rintro rfl
    exact hnew hs
  · rintro ⟨ht, hnodup, hnew⟩
    exact ⟨⟨fun h => (hnew t h).1 rfl, hnodup⟩, ht, fun s hs => (hnew s hs).2⟩

theorem firstRepeated?_cons_of_mem (h : t ∈ seen) : firstRepeated? seen (t :: ts) = some t :=
  if_pos (List.contains_iff_mem.mpr h)

theorem firstRepeated?_cons_of_notMem (h : t ∉ seen) :
    firstRepeated? seen (t :: ts) = firstRepeated? (t :: seen) ts :=
  if_neg fun hseen => h (List.contains_iff_mem.mp hseen)

theorem firstRepeated?_append (h : Fresh seen before) :
    firstRepeated? seen (before ++ ts) = firstRepeated? (before.reverse ++ seen) ts := by
  induction before generalizing seen with
  | nil => rfl
  | cons s before ih =>
      obtain ⟨hs, hbefore⟩ := fresh_cons.mp h
      rw [List.cons_append, firstRepeated?_cons_of_notMem hs, ih hbefore, List.reverse_cons,
        List.append_assoc, List.singleton_append]

theorem firstRepeated?_eq_none_iff : firstRepeated? seen ts = none ↔ Fresh seen ts := by
  induction ts generalizing seen with
  | nil => exact ⟨fun _ => ⟨List.nodup_nil, nofun⟩, fun _ => rfl⟩
  | cons t ts ih =>
      rw [fresh_cons]
      by_cases ht : t ∈ seen
      · rw [firstRepeated?_cons_of_mem ht]
        exact ⟨nofun, fun h => absurd ht h.1⟩
      · rw [firstRepeated?_cons_of_notMem ht, ih, and_iff_right ht]

/-- The search stops at the first item that was seen before or equals an earlier one. -/
theorem firstRepeated?_eq_some_iff :
    firstRepeated? seen ts = some t ↔
      ∃ before after, ts = before ++ t :: after ∧ Fresh seen before ∧
        (t ∈ seen ∨ t ∈ before) := by
  constructor
  · intro h
    -- the items in front of the one found are seen by the time it is looked at
    induction ts generalizing seen with
    | nil => cases h
    | cons s ts ih =>
        by_cases hs : s ∈ seen
        · rw [firstRepeated?_cons_of_mem hs] at h
          obtain rfl : s = t := Option.some.inj h
          exact ⟨[], ts, rfl, ⟨List.nodup_nil, nofun⟩, Or.inl hs⟩
        · rw [firstRepeated?_cons_of_notMem hs] at h
          obtain ⟨before, after, rfl, hfresh, ht⟩ := ih h
          refine ⟨s :: before, after, rfl, fresh_cons.mpr ⟨hs, hfresh⟩, ?_⟩
          rw [List.mem_cons] at ht ⊢
          exact or_left_comm.mp (or_assoc.mp ht)
  · rintro ⟨before, after, rfl, hfresh, ht⟩
    rw [firstRepeated?_append hfresh]
    refine firstRepeated?_cons_of_mem (List.mem_append.mpr ?_)
    exact ht.symm.imp_left List.mem_reverse.mpr

end Search

/-! ## Faults of a node -/

/-- At most a hundred tags, and none of them twice. -/
structure SoundTags (n : Node) : Prop where
  few : n.tags.length ≤ 100
  nodup : n.tags.Nodup

/-- The tag is the first in the list that equals an earlier one. -/
def FirstRepeated (tags : List Tag) (t : Tag) : Prop :=
  ∃ before after, tags = before ++ t :: after ∧ before.Nodup ∧ t ∈ before

/-- The fault that counts, if the node has any: too many tags, whether or not some are repeated, or
else the first repeated tag. -/
inductive HasFault (n : Node) : NodeFault → Prop where
  | tooManyTags (h : 100 < n.tags.length) : HasFault n (.tooManyTags n.tags.length)
  | duplicateTag {t : Tag} (hfew : n.tags.length ≤ 100) (h : FirstRepeated n.tags t) :
      HasFault n (.duplicateTag t.text)

/-- Tags are told apart by their texts. -/
theorem text_injective : Function.Injective Tag.text := by
  rintro ⟨s, hs⟩ ⟨t, ht⟩ h
  obtain rfl : s = t := h
  rfl

/-- Nothing is found among tags of which none comes twice. -/
theorem nodup_iff {tags : List Tag} :
    tags.Nodup ↔ firstRepeated? [] (tags.map Tag.text) = none := by
  rw [firstRepeated?_eq_none_iff, Fresh, List.nodup_map_iff text_injective]
  exact ⟨fun h => ⟨h, fun _ _ => List.not_mem_nil⟩, And.left⟩

/-- The search goes by texts and finds tags. -/
theorem firstRepeated_iff {tags : List Tag} {t : Tag} :
    FirstRepeated tags t ↔ firstRepeated? [] (tags.map Tag.text) = some t.text := by
  simp only [firstRepeated?_eq_some_iff, Fresh, List.not_mem_nil, not_false_eq_true, implies_true,
    and_true, false_or]
  constructor
  · rintro ⟨before, after, rfl, hnodup, ht⟩
    exact ⟨before.map Tag.text, after.map Tag.text, List.map_append,
      hnodup.map text_injective, List.mem_map_of_mem ht⟩
  · rintro ⟨before, after, htags, hnodup, ht⟩
    obtain ⟨front, back, rfl, rfl, hback⟩ := List.map_eq_append_iff.mp htags
    obtain ⟨u, after', rfl, hu, -⟩ := List.map_eq_cons_iff.mp hback
    obtain rfl : u = t := text_injective hu
    exact ⟨front, after', rfl, hnodup.of_map, (List.mem_map_of_injective text_injective).mp ht⟩

/-- A repeated text is that of a tag. -/
theorem exists_tag_of_firstRepeated? {tags : List Tag} {s : String}
    (h : firstRepeated? [] (tags.map Tag.text) = some s) : ∃ t ∈ tags, t.text = s := by
  obtain ⟨before, after, htags, -⟩ := firstRepeated?_eq_some_iff.mp h
  refine List.mem_map.mp ?_
  rw [htags]
  exact List.mem_append_right _ List.mem_cons_self

/-- A node is accepted exactly when its tags are sound. -/
theorem check_eq_ok_iff : n.check = .ok () ↔ n.SoundTags := by
  rw [check]
  by_cases hc : maxTags < n.tags.length
  · rw [if_pos hc]
    exact ⟨fun h => absurd h (by simp), fun h => absurd h.few (Nat.not_le_of_lt hc)⟩
  · rw [if_neg hc]
    cases hr : firstRepeated? [] (n.tags.map Tag.text) with
    | none => exact ⟨fun _ => ⟨Nat.not_lt.mp hc, nodup_iff.mpr hr⟩, fun _ => rfl⟩
    | some s =>
        constructor
        · intro h
          cases h
        · intro h
          rw [nodup_iff.mp h.nodup] at hr
          cases hr

/-- A node is refused for the fault that counts. -/
theorem check_eq_error_iff : n.check = .error f ↔ n.HasFault f := by
  rw [check]
  by_cases hc : maxTags < n.tags.length
  · rw [if_pos hc, Except.error.injEq]
    constructor
    · rintro rfl
      exact .tooManyTags hc
    · intro h
      cases h with
      | tooManyTags h => rfl
      | duplicateTag hfew h => exact absurd hc (Nat.not_lt.mpr hfew)
  · rw [if_neg hc]
    cases hr : firstRepeated? [] (n.tags.map Tag.text) with
    | none =>
        constructor
        · intro h
          exact absurd h (by simp)
        · intro h
          cases h with
          | tooManyTags h => exact absurd h hc
          | duplicateTag hfew h =>
              rw [firstRepeated_iff.mp h] at hr
              cases hr
    | some s =>
        simp only [Except.error.injEq]
        constructor
        · rintro rfl
          obtain ⟨t, -, rfl⟩ := exists_tag_of_firstRepeated? hr
          exact .duplicateTag (Nat.not_lt.mp hc) (firstRepeated_iff.mpr hr)
        · intro h
          cases h with
          | tooManyTags h => exact absurd h hc
          | duplicateTag hfew h =>
              rw [firstRepeated_iff.mp h] at hr
              rw [Option.some.inj hr]

end Node

namespace Snapshot

variable {s : Snapshot} {text : String} {e : SnapshotFault}

/-! ## The first node with a fault -/

/-- The fault is that of the first node whose tags are not sound, reported with its hostname. -/
inductive FirstOffence (nodes : List Node) : SnapshotFault → Prop where
  | found {before after : List Node} {n : Node} {f : NodeFault} (h : nodes = before ++ n :: after)
      (hbefore : ∀ m ∈ before, m.SoundTags) (hfault : n.HasFault f) :
      FirstOffence nodes (.invalidNode n.hostname f)

/-- What a snapshot is refused for on account of a node. -/
def refusal? (n : Node) : Option SnapshotFault :=
  match n.check with
  | .error f => some (.invalidNode n.hostname f)
  | .ok () => none

theorem refusal?_eq_none_iff {n : Node} : refusal? n = none ↔ n.SoundTags := by
  rw [refusal?, ← Node.check_eq_ok_iff]
  cases n.check with
  | error f => simp
  | ok u => simp

theorem refusal?_eq_some_iff {n : Node} :
    refusal? n = some e ↔ ∃ f, n.HasFault f ∧ .invalidNode n.hostname f = e := by
  simp only [refusal?, ← Node.check_eq_error_iff]
  cases n.check with
  | error f => simp
  | ok u => simp

theorem firstFault?_eq_findSome? (nodes : List Node) :
    firstFault? nodes = nodes.findSome? refusal? := by
  induction nodes with
  | nil => rfl
  | cons n nodes ih =>
      rw [firstFault?, List.findSome?_cons, refusal?]
      cases n.check with
      | error f => rfl
      | ok u => exact ih

theorem firstFault?_eq_none_iff {nodes : List Node} :
    firstFault? nodes = none ↔ ∀ n ∈ nodes, n.SoundTags := by
  simp only [firstFault?_eq_findSome?, List.findSome?_eq_none_iff, refusal?_eq_none_iff]

theorem firstFault?_eq_some_iff {nodes : List Node} :
    firstFault? nodes = some e ↔ FirstOffence nodes e := by
  simp only [firstFault?_eq_findSome?, List.findSome?_eq_some_iff, refusal?_eq_some_iff,
    refusal?_eq_none_iff]
  constructor
  · rintro ⟨before, n, after, h, ⟨f, hfault, rfl⟩, hbefore⟩
    exact .found h hbefore hfault
  · rintro ⟨h, hbefore, hfault⟩
    exact ⟨_, _, _, h, ⟨_, hfault, rfl⟩, hbefore⟩

/-! ## Loading -/

/-- What is left of loading when the text holds a snapshot. -/
theorem load_of_read (h : Json.Document.read decode text = .ok s) :
    load text = (firstFault? s.nodes).elim (.ok s) .error := by
  rw [load]
  simp only [h]
  cases firstFault? s.nodes <;> rfl

/-- **Loading admits exactly the snapshots with sound tags.** A text that holds a snapshot is loaded
as that snapshot exactly when the tags of every node are sound, and otherwise it is refused for the
fault of the first node whose tags are not. -/
theorem load_admits (h : Json.Document.read decode text = .ok s) :
    (load text = .ok s ↔ ∀ n ∈ s.nodes, n.SoundTags) ∧
      (∀ e, load text = .error e ↔ FirstOffence s.nodes e) ∧
      ((∃ e, FirstOffence s.nodes e) ↔ ¬∀ n ∈ s.nodes, n.SoundTags) := by
  simp only [load_of_read h, ← firstFault?_eq_none_iff, ← firstFault?_eq_some_iff]
  cases firstFault? s.nodes with
  | none => simp
  | some f => simp

/-! ## A crowd of tags -/

namespace CrowdedNode

/-- A tag. -/
def crowd : Tag := ⟨"tag:crowd", by decide⟩

/-- A node with one tag. -/
def desk : Node := ⟨⟨1⟩, "desk", none, none, none, [crowd]⟩

/-- A node with one tag more than a node may carry, and all of them the same. -/
def hall : Node := ⟨⟨2⟩, "hall", none, none, none, List.replicate 101 crowd⟩

/-- A node that repeats a tag and does not come first. -/
def lobby : Node := ⟨⟨3⟩, "lobby", none, none, none, [crowd, crowd]⟩

/-- The nodes in a row. -/
def snapshot : Snapshot := ⟨[], [desk, hall, lobby]⟩

end CrowdedNode

/-- The hall is refused for the number of its tags, and the lobby behind it does not count. -/
theorem load_admits_crowdedNode :
    Json.Document.read decode CrowdedNode.snapshot.toJson.compact = .ok CrowdedNode.snapshot ∧
      load CrowdedNode.snapshot.toJson.compact = .error (.invalidNode "hall" (.tooManyTags 101)) ∧
      ¬∀ n ∈ CrowdedNode.snapshot.nodes, n.SoundTags := by
  have hread := CrowdedNode.snapshot.encodes.read_compact
  have hnodes : CrowdedNode.snapshot.nodes
      = [CrowdedNode.desk] ++ CrowdedNode.hall :: [CrowdedNode.lobby] := rfl
  have hdesk : CrowdedNode.desk.SoundTags := ⟨by decide, by decide⟩
  have hhall : CrowdedNode.hall.HasFault (.tooManyTags 101) := .tooManyTags (by decide)
  have hoffence : FirstOffence CrowdedNode.snapshot.nodes
      (.invalidNode "hall" (.tooManyTags 101)) :=
    .found hnodes (List.forall_mem_singleton.mpr hdesk) hhall
  obtain ⟨-, herror, hsome⟩ := load_admits hread
  exact ⟨hread, (herror _).mpr hoffence, hsome.mp ⟨_, hoffence⟩⟩

end Snapshot

end MeshAccess
