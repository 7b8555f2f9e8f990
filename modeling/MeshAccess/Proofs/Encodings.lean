import MeshAccess.Json.Decode
import MeshAccess.Json.Record
import MeshAccess.Proofs.WrittenJson

/-!
# Values that decode to what they were written for

`Encodes decode v a` says that the JSON value `v` is a written form of `a`: it can be read back, and
what the reader `decode` makes of it is `a`. The lemmas below put such facts together in the way in
which readers are put together, so that every type of document needs no more than one fact for each
of its fields.

Records are the only readers with a choice: a member may be left out where its field has a default.
`Record.Reads r names ms a` says that the members `ms` are written for the fields of `r`, whose
names are `names`, and fill them so as to give `a`. `Reads.and` joins two records with different
names, and `Encodes.record` gives the object of the members as a written form of the structure.
-/

namespace MeshAccess

/-! ## Maps in ascending order -/

namespace SortedMap

variable {α : Type}

theorem insertEntry_of_forall_lt {k : String} {v : α} {es : List (String × α)}
    (h : ∀ e ∈ es, e.1 < k) : insertEntry k v es = es ++ [(k, v)] := by
  induction es with
  | nil => rfl
  | cons e es ih =>
      obtain ⟨l, w⟩ := e
      have hl : l < k := h (l, w) List.mem_cons_self
      have hne : ¬k = l := by
        rintro rfl
        exact String.lt_irrefl k hl
      rw [insertEntry, if_neg (String.lt_asymm hl), if_neg hne,
        ih fun e he => h e (List.mem_cons_of_mem _ he), List.cons_append]

/-- A key behind all others is inserted at the end. -/
theorem insert_last {m : SortedMap α} {k : String} {v : α} (h : ∀ e ∈ m.entries, e.1 < k) :
    (m.insert k v).entries = m.entries ++ [(k, v)] :=
  insertEntry_of_forall_lt h

theorem ext_entries {m n : SortedMap α} (h : m.entries = n.entries) : m = n := by
  cases m
  cases n
  obtain rfl := h
  rfl

end SortedMap

namespace Json

variable {α β : Type}

/-- The value is a written form of `a` for the reader. -/
structure Encodes (decode : Reading → Except Fault α) (v : Json) (a : α) : Prop where
  readable : v.Readable
  decoded : decode v.reading = .ok a

namespace Encodes

variable {decode : Reading → Except Fault α} {v : Json} {a : α}

/-! ## Whole texts -/

theorem read_compact (h : Encodes decode v a) : Document.read decode v.compact = .ok a :=
  Document.read_eq_ok (Document.ofText_compact h.readable) h.decoded rfl

theorem read_pretty (h : Encodes decode v a) : Document.read decode v.pretty = .ok a :=
  Document.read_eq_ok (Document.ofText_pretty h.readable) h.decoded rfl

/-! ## Plain values -/

theorem text (s : String) : Encodes Reading.asText (.text s) s := ⟨.text s, rfl⟩

theorem bool (b : Bool) : Encodes Reading.asBool (.bool b) b := ⟨.bool b, rfl⟩

theorem parsed {parse : String → Except String α} {s : String} (h : parse s = .ok a) :
    Encodes (Reading.asParsed parse) (.text s) a := by
  refine ⟨.text s, ?_⟩
  have hs : Reading.asText (.leaf (.text s)) = .ok s := rfl
  rw [reading, Reading.asParsed, hs]
  simp only [h]

/-- A value other than null stands for itself where it may be missing. -/
theorem given (h : Encodes decode v a) (hv : v ≠ .null) :
    Encodes (Reading.asOption decode) v (some a) := by
  refine ⟨h.readable, ?_⟩
  have hsome : (decode v.reading).map some = .ok (some a) := by
    rw [h.decoded]
    rfl
  cases v with
  | null => exact absurd rfl hv
  | _ => exact hsome

/-! ## Lists and maps -/

theorem asList_closed (rs : List Reading) :
    Reading.asList decode (.array rs none) = Reading.items decode [] rs := by
  cases h : Reading.items decode [] rs <;> simp only [Reading.asList, h]

theorem items {encode : α → Json} {as : List α} (h : ∀ a ∈ as, Encodes decode (encode a) a)
    (seen : List α) :
    Reading.items decode seen (readItems (as.map encode)) = .ok (seen.reverse ++ as) := by
  induction as generalizing seen with
  | nil => rw [List.map_nil, readItems, Reading.items, List.append_nil]
  | cons a as ih =>
      have ha := (h a List.mem_cons_self).decoded
      rw [List.map_cons, readItems, Reading.items, ha]
      simp only
      rw [ih (fun b hb => h b (List.mem_cons_of_mem _ hb)), List.reverse_cons, List.append_assoc,
        List.singleton_append]

/-- A list is written item by item. -/
theorem list {encode : α → Json} {as : List α} (h : ∀ a ∈ as, Encodes decode (encode a) a) :
    Encodes (Reading.asList decode) (.array (as.map encode)) as := by
  refine ⟨.array ?_, ?_⟩
  · intro v hv
    obtain ⟨a, ha, rfl⟩ := List.mem_map.mp hv
    exact (h a ha).readable
  · rw [reading, asList_closed, items h]
    rfl

theorem texts (ss : List String) : Encodes (Reading.asList Reading.asText) (Json.texts ss) ss :=
  list fun s _ => text s

theorem asMap_closed (ms : List (Token × Reading)) :
    Reading.asMap decode (.object ms none) = Reading.entries decode .empty ms := by
  cases h : Reading.entries decode .empty ms <;> simp only [Reading.asMap, h]

/-- Entries that come in ascending order are put in one behind the other. -/
theorem entries {encode : α → Json} {es : List (String × α)} {seen m : SortedMap α}
    (hm : m.entries = seen.entries ++ es) (h : ∀ e ∈ es, Encodes decode (encode e.2) e.2) :
    Reading.entries decode seen (readMembers (es.map fun e => (e.1, encode e.2))) = .ok m := by
  induction es generalizing seen with
  | nil =>
      rw [List.append_nil] at hm
      rw [List.map_nil, readMembers, Reading.entries, SortedMap.ext_entries hm]
  | cons e es ih =>
      obtain ⟨k, a⟩ := e
      have ha : decode (encode a).reading = .ok a := (h (k, a) List.mem_cons_self).decoded
      -- the keys of `m` ascend, so `k` comes behind all that have been seen
      have hlt : ∀ e ∈ seen.entries, e.1 < k := by
        have hpair := m.ascending
        rw [hm, List.pairwise_append] at hpair
        exact fun e he => hpair.2.2 e he (k, a) List.mem_cons_self
      have hinsert : m.entries = (seen.insert k a).entries ++ es := by
        rw [SortedMap.insert_last hlt, List.append_assoc, List.singleton_append, hm]
      rw [List.map_cons, readMembers, Reading.entries]
      simp only [Reading.key, ha]
      exact ih hinsert fun e he => h e (List.mem_cons_of_mem _ he)

/-- A map is written entry by entry. -/
theorem map {encode : α → Json} {m : SortedMap α}
    (h : ∀ e ∈ m.entries, Encodes decode (encode e.2) e.2) :
    Encodes (Reading.asMap decode) (.object (m.entries.map fun e => (e.1, encode e.2))) m := by
  refine ⟨.object ?_, ?_⟩
  · intro member hmember
    obtain ⟨e, he, rfl⟩ := List.mem_map.mp hmember
    exact (h e he).readable
  · have hm : m.entries = SortedMap.empty.entries ++ m.entries := rfl
    rw [reading, asMap_closed, entries hm h]

end Encodes

/-! ## Records -/

namespace Record

/-- The members are written for the fields of the record, whose names are `names`, and fill them so
as to give `a`. -/
structure Reads (r : Record α) (names : List String) (ms : List (String × Json)) (a : α) :
    Prop where
  known : ∀ k v draft, (r.put k v draft).isSome = true ↔ k ∈ names
  named : ∀ m ∈ ms, m.1 ∈ names
  readable : ∀ m ∈ ms, m.2.Readable
  filled : ∃ draft, r.fill r.blank (readMembers ms) = .ok draft ∧ r.finish draft = .ok a

/-- The record has exactly the fields with the given names. -/
def Knows (r : Record α) (names : List String) : Prop :=
  ∀ k v draft, (r.put k v draft).isSome = true ↔ k ∈ names

theorem put_field_self {name : String} {value : Reading → Except Fault α} {absent : Option α}
    (v : Reading) :
    (field name value absent).put name v none = some ((value v).map some) :=
  if_pos rfl

theorem knows_field (name : String) (value : Reading → Except Fault α) (absent : Option α) :
    (field name value absent).Knows [name] := by
  intro k v draft
  rw [List.mem_singleton]
  constructor
  · intro h
    by_cases hk : k = name
    · exact hk
    · have hput : (field name value absent).put k v draft = none := if_neg hk
      rw [hput] at h
      exact nomatch h
  · rintro rfl
    change Option α at draft
    cases draft with
    | none => rw [put_field_self]; rfl
    | some a =>
        have hput : (field k value absent).put k v (some a)
            = some (.error (.mismatch (.repeated k))) := if_pos rfl
        rw [hput]
        rfl

/-- A field whose member is given. -/
theorem Reads.given {name : String} {value : Reading → Except Fault α} {absent : Option α}
    {v : Json} {a : α} (h : Encodes value v a) :
    (field name value absent).Reads [name] [(name, v)] a where
  known := knows_field _ _ _
  named := by
    intro m hm
    rw [List.mem_singleton.mp hm]
    exact List.mem_singleton_self name
  readable := by
    intro m hm
    rw [List.mem_singleton.mp hm]
    exact h.readable
  filled := by
    refine ⟨some a, ?_, rfl⟩
    have hput : (field name value absent).put name v.reading none = some (.ok (some a)) := by
      rw [put_field_self, h.decoded]
      rfl
    have hblank : (field name value absent).blank = none := rfl
    simp only [hblank, readMembers, fill, Reading.key, hput]

/-- A field whose member is left out, as it has the default. -/
theorem Reads.left (name : String) (value : Reading → Except Fault α) (a : α) :
    (field name value (some a)).Reads [name] [] a where
  known := knows_field _ _ _
  named := nofun
  readable := nofun
  filled := ⟨none, rfl, rfl⟩

/-! ### Fields that may be left out -/

/-- A flag is written when it is set. -/
theorem Reads.flag (name : String) (b : Bool) :
    (withDefault name Reading.asBool false).Reads [name] (flag? name b) b := by
  cases b with
  | false => exact .left name Reading.asBool false
  | true => exact .given (.bool true)

/-- An optional value is written when there is one. -/
theorem Reads.optional {name : String} {value : Reading → Except Fault α} {encode : α → Json}
    (h : ∀ a, Encodes value (encode a) a) (hnull : ∀ a, encode a ≠ .null) (o : Option α) :
    (Record.optional name value).Reads [name] (member? name (o.map encode)) o := by
  cases o with
  | none => exact .left name (Reading.asOption value) none
  | some a => exact .given ((h a).given (hnull a))

theorem Reads.optionalText (name : String) (o : Option String) :
    (Record.optional name Reading.asText).Reads [name] (member? name (o.map .text)) o :=
  .optional .text (fun _ h => nomatch h) o

/-- A list that is empty by default is written when it has items. -/
theorem Reads.items {name : String} {value : Reading → Except Fault (List α)}
    {encode : List α → Json} [DecidableEq α] (h : ∀ as, Encodes value (encode as) as)
    (as : List α) :
    (withDefault name value []).Reads [name]
      (if as = [] then [] else [(name, encode as)]) as := by
  by_cases has : as = []
  · rw [if_pos has, has]
    exact .left name value []
  · rw [if_neg has]
    exact .given (h as)

/-! ### Records of several fields -/

theorem fill_append {r : Record α} {d d' d'' : r.Draft} {xs ys : List (Token × Reading)}
    (hx : r.fill d xs = .ok d') (hy : r.fill d' ys = .ok d'') :
    r.fill d (xs ++ ys) = .ok d'' := by
  induction xs generalizing d with
  | nil =>
      obtain rfl : d = d' := Except.ok.inj hx
      exact hy
  | cons x xs ih =>
      rw [List.cons_append, fill]
      rw [fill] at hx
      split at hx
      · exact nomatch hx
      · split at hx
        · exact nomatch hx
        · exact ih hx
        · split at hx
          · exact nomatch hx
          · exact ih hx

variable {r : Record α} {s : Record β}

theorem Knows.and {ks ls : List String} (hr : r.Knows ks) (hs : s.Knows ls) :
    (r.and s).Knows (ks ++ ls) := by
  rintro k v ⟨d, e⟩
  rw [List.mem_append, ← hr k v d, ← hs k v e]
  cases hd : r.put k v d with
  | some x => simp only [Record.and, hd, Option.isSome_some, true_or]
  | none =>
      simp only [Record.and, hd, Option.isSome_map, Option.isSome_none, Bool.false_eq_true,
        false_or]

theorem Knows.map {ks : List String} (make : α → β) (h : r.Knows ks) : (r.map make).Knows ks := h

/-- A record that puts members where `r` puts them is filled as `r` is; `place` tells where the
draft of `r` stands in its own. -/
theorem fill_placed (place : r.Draft → s.Draft) {ms : List (String × Json)} {d d' : r.Draft}
    (hput : ∀ m ∈ ms, ∀ v draft, ∃ x, r.put m.1 v draft = some x ∧
      s.put m.1 v (place draft) = some (x.map place))
    (h : r.fill d (readMembers ms) = .ok d') :
    s.fill (place d) (readMembers ms) = .ok (place d') := by
  induction ms generalizing d with
  | nil =>
      obtain rfl : d = d' := Except.ok.inj h
      rfl
  | cons m ms ih =>
      obtain ⟨k, v⟩ := m
      obtain ⟨x, hx, hplaced⟩ := hput (k, v) List.mem_cons_self v.reading d
      simp only [readMembers, fill, Reading.key, hx] at h
      simp only [readMembers, fill, Reading.key, hplaced]
      cases x with
      | error f => cases h
      | ok d₁ => exact ih (fun m hm => hput m (List.mem_cons_of_mem _ hm)) h

/-- The members of two records with different names, one behind the other. -/
theorem Reads.and {ks ls : List String} {ms ns : List (String × Json)} {a : α} {b : β}
    (hr : r.Reads ks ms a) (hs : s.Reads ls ns b) (hdisjoint : ∀ l ∈ ls, l ∉ ks := by decide) :
    (r.and s).Reads (ks ++ ls) (ms ++ ns) (a, b) where
  known := Knows.and hr.known hs.known
  named := by
    intro m hm
    rw [List.mem_append]
    exact (List.mem_append.mp hm).imp (hr.named m) (hs.named m)
  readable := by
    intro m hm
    exact (List.mem_append.mp hm).elim (hr.readable m) (hs.readable m)
  filled := by
    obtain ⟨d, hd, hfinish⟩ := hr.filled
    obtain ⟨e, he, hfinish'⟩ := hs.filled
    -- the members of `r` are put into the first draft and leave the second blank
    have hleft : ∀ m ∈ ms, ∀ v draft, ∃ x, r.put m.1 v draft = some x ∧
        (r.and s).put m.1 v (draft, s.blank) = some (x.map (·, s.blank)) := by
      intro m hm v draft
      obtain ⟨x, hx⟩ := Option.isSome_iff_exists.mp ((hr.known m.1 v draft).mpr (hr.named m hm))
      exact ⟨x, hx, by simp only [Record.and, hx]⟩
    -- those of `s` are none of `r`, so they are passed on to the second
    have hright : ∀ n ∈ ns, ∀ v draft, ∃ x, s.put n.1 v draft = some x ∧
        (r.and s).put n.1 v (d, draft) = some (x.map (d, ·)) := by
      intro n hn v draft
      have hno : ¬(r.put n.1 v d).isSome = true :=
        mt (hr.known n.1 v d).mp (hdisjoint n.1 (hs.named n hn))
      obtain ⟨x, hx⟩ := Option.isSome_iff_exists.mp ((hs.known n.1 v draft).mpr (hs.named n hn))
      refine ⟨x, hx, ?_⟩
      simp only [Record.and, Option.not_isSome_iff_eq_none.mp hno, hx, Option.map_some]
    have hms : (r.and s).fill (r.blank, s.blank) (readMembers ms) = .ok (d, s.blank) :=
      fill_placed (s := r.and s) (·, s.blank) hleft hd
    have hns : (r.and s).fill (d, s.blank) (readMembers ns) = .ok (d, e) :=
      fill_placed (s := r.and s) (d, ·) hright he
    refine ⟨(d, e), ?_, ?_⟩
    · rw [readMembers_append]
      exact fill_append hms hns
    · simp only [Record.and, hfinish, hfinish', Except.map]

/-- The structure that is made from the fields. -/
theorem Reads.map {ks : List String} {ms : List (String × Json)} {a : α} (make : α → β)
    (h : r.Reads ks ms a) : (r.map make).Reads ks ms (make a) where
  known := h.known
  named := h.named
  readable := h.readable
  filled := by
    obtain ⟨d, hd, hfinish⟩ := h.filled
    have hput : ∀ m ∈ ms, ∀ v draft, ∃ x, r.put m.1 v draft = some x ∧
        (r.map make).put m.1 v draft = some (x.map id) := by
      intro m hm v draft
      obtain ⟨x, hx⟩ := Option.isSome_iff_exists.mp ((h.known m.1 v draft).mpr (h.named m hm))
      exact ⟨x, hx, by cases x <;> exact hx⟩
    refine ⟨d, fill_placed (r := r) (s := r.map make) id hput hd, ?_⟩
    simp only [Record.map, hfinish, Except.map]

end Record

/-- The object of the members is a written form of the structure. -/
theorem Encodes.record {r : Record α} {names : List String} {ms : List (String × Json)} {a : α}
    (h : r.Reads names ms a) : Encodes r.read (.object ms) a := by
  refine ⟨.object h.readable, ?_⟩
  obtain ⟨draft, hfill, hfinish⟩ := h.filled
  simp only [reading, Record.read, hfill, hfinish]

end Json

end MeshAccess
