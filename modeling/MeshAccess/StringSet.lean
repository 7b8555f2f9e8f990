/-!
# Sets of texts in order of arrival

A list of texts that holds each one once, in the order in which they first came, and beside it the
texts seen, where each new one is looked up. `mem_add` says what a set holds after a batch,
`add_append` that batches can be joined, and `foldl_add` that any number of them can.
-/

namespace MeshAccess

/-- Distinct texts in order of arrival. -/
structure StringSet where
  toList : List String
  /-- The same texts for looking them up, in an order that does not count. -/
  seen : List String
  nodup : toList.Nodup
  inStep : seen.Perm toList

namespace StringSet

/-- The set without texts. -/
def empty : StringSet := ⟨[], [], .nil, .nil⟩

/-- The set with `s` as its last text, unless it was seen already. -/
def insert (set : StringSet) (s : String) : StringSet :=
  if h : s ∈ set.seen then set
  else
    { toList := set.toList ++ [s]
      seen := s :: set.seen
      nodup := by
        rw [List.nodup_append]
        refine ⟨set.nodup, by simp, ?_⟩
        intro a ha b hb
        rw [List.mem_singleton] at hb
        exact fun e => h (set.inStep.mem_iff.mpr (hb ▸ e ▸ ha))
      inStep := (set.inStep.cons s).trans (List.perm_append_singleton s set.toList).symm }

/-- The set with the texts of a batch put in one after the other. -/
def add (set : StringSet) (batch : List String) : StringSet := batch.foldl insert set

/-- The distinct texts of a list. -/
def ofList (batch : List String) : StringSet := empty.add batch

theorem toList_insert (set : StringSet) (s : String) :
    (set.insert s).toList = if s ∈ set.toList then set.toList else set.toList ++ [s] := by
  rw [insert]
  by_cases h : s ∈ set.seen
  · rw [dif_pos h, if_pos (set.inStep.mem_iff.mp h)]
  · rw [dif_neg h, if_neg (mt set.inStep.mem_iff.mpr h)]

/-- A text is in the set after an insertion if it was put in or there before. -/
theorem mem_insert {set : StringSet} {s t : String} :
    t ∈ (set.insert s).toList ↔ t = s ∨ t ∈ set.toList := by
  rw [toList_insert]
  split
  · rename_i h
    exact ⟨.inr, fun h' => h'.elim (fun e => e ▸ h) id⟩
  · simp [or_comm]

/-- A set holds what was put in and what was there before. -/
theorem mem_add {set : StringSet} {batch : List String} {t : String} :
    t ∈ (set.add batch).toList ↔ t ∈ batch ∨ t ∈ set.toList := by
  induction batch generalizing set with
  | nil => simp [add]
  | cons s batch ih =>
    have h := @ih (set.insert s)
    rw [mem_insert] at h
    simp only [add, List.foldl_cons, List.mem_cons] at h ⊢
    rw [h, or_left_comm, or_assoc]

/-- Adding two batches is adding them joined. -/
theorem add_append (set : StringSet) (xs ys : List String) :
    set.add (xs ++ ys) = (set.add xs).add ys := by
  simp [add]

/-- Adding batch after batch is adding all of them joined. -/
theorem foldl_add {α : Type} (set : StringSet) (batch : α → List String) (l : List α) :
    l.foldl (fun set a => set.add (batch a)) set = set.add (l.flatMap batch) :=
  List.foldl_flatMap.symm

end StringSet

end MeshAccess
