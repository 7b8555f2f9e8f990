/-!
# Maps sorted by key

A finite map from texts, kept as its entries in ascending order of keys, so that two maps with the
same entries are equal. Texts are ordered by their code points. `get?_insert` says what insertion
does to the values of keys.
-/

namespace MeshAccess

/-- A finite map from texts with entries in ascending order of keys. -/
structure SortedMap (α : Type) where
  entries : List (String × α)
  ascending : entries.Pairwise fun e f => e.1 < f.1

namespace SortedMap

variable {α : Type}

instance [DecidableEq α] : DecidableEq (SortedMap α) := fun m n =>
  if h : m.entries = n.entries then
    isTrue (by cases m; cases n; simp_all)
  else isFalse fun e => h (congrArg entries e)

/-- The map without entries. -/
def empty : SortedMap α := ⟨[], .nil⟩

instance : Inhabited (SortedMap α) := ⟨empty⟩

/-- The entries with `v` for the key `k`, in ascending order if they were. -/
def insertEntry (k : String) (v : α) : List (String × α) → List (String × α)
  | [] => [(k, v)]
  | (l, w) :: es =>
    if k < l then (k, v) :: (l, w) :: es
    else if k = l then (k, v) :: es
    else (l, w) :: insertEntry k v es

theorem mem_of_mem_insertEntry {k : String} {v : α} {es : List (String × α)} {e : String × α}
    (h : e ∈ insertEntry k v es) : e = (k, v) ∨ e ∈ es := by
  fun_induction insertEntry k v es <;> grind

theorem lt_of_not_lt_of_ne {k l : String} (h : ¬k < l) (hne : k ≠ l) : l < k := by
  rcases Std.lt_trichotomy k l with h' | h' | h'
  · exact absurd h' h
  · exact absurd h' hne
  · exact h'

theorem pairwise_insertEntry (k : String) (v : α) {es : List (String × α)}
    (h : es.Pairwise fun e f => e.1 < f.1) :
    (insertEntry k v es).Pairwise fun e f => e.1 < f.1 := by
  induction es with
  | nil => simp [insertEntry]
  | cons e es ih =>
    obtain ⟨l, w⟩ := e
    rw [List.pairwise_cons] at h
    obtain ⟨hlt, hes⟩ := h
    simp only [insertEntry]
    split
    · rename_i hkl
      refine .cons ?_ (.cons hlt hes)
      intro f hf
      rcases List.mem_cons.1 hf with rfl | hf
      · exact hkl
      · exact String.lt_trans hkl (hlt f hf)
    · rename_i hkl
      split
      · rename_i heq
        subst heq
        exact .cons hlt hes
      · rename_i hne
        refine .cons ?_ (ih hes)
        intro f hf
        rcases mem_of_mem_insertEntry hf with rfl | hf
        · exact lt_of_not_lt_of_ne hkl hne
        · exact hlt f hf

/-- The map with `v` for the key `k`. -/
def insert (m : SortedMap α) (k : String) (v : α) : SortedMap α :=
  ⟨insertEntry k v m.entries, pairwise_insertEntry k v m.ascending⟩

/-- The value of the key `k`. -/
def get? (m : SortedMap α) (k : String) : Option α := m.entries.lookup k

/-- Whether the key `k` has a value. -/
def contains (m : SortedMap α) (k : String) : Bool := (m.get? k).isSome

/-- The keys in ascending order. -/
def keys (m : SortedMap α) : List String := m.entries.map (·.1)

/-- The number of entries. -/
def size (m : SortedMap α) : Nat := m.entries.length

/-- Whether there is no entry. -/
def isEmpty (m : SortedMap α) : Bool := m.entries.isEmpty

/-! ## What the entries are -/

theorem lookup_insertEntry (k : String) (v : α) (es : List (String × α)) (l : String)
    (h : es.Pairwise fun e f => e.1 < f.1) :
    (insertEntry k v es).lookup l = if l = k then some v else es.lookup l := by
  induction es with
  | nil => by_cases hl : l = k <;> simp [insertEntry, hl]
  | cons e es ih =>
    obtain ⟨m, w⟩ := e
    rw [List.pairwise_cons] at h
    obtain ⟨hlt, hes⟩ := h
    simp only [insertEntry]
    split
    · by_cases hl : l = k
      · subst hl; simp
      · simp [List.lookup_cons, hl, beq_eq_false_iff_ne.2]
    · split
      · rename_i hkm
        subst hkm
        by_cases hl : l = k <;> simp [List.lookup_cons, hl, beq_eq_false_iff_ne.2]
      · rename_i hkm
        by_cases hl : l = k
        · subst hl; simp [List.lookup_cons, beq_eq_false_iff_ne.2 hkm, ih hes]
        · simp [List.lookup_cons, hl, ih hes]

/-- Insertion sets the value of its key and leaves the others. -/
theorem get?_insert (m : SortedMap α) (k : String) (v : α) (l : String) :
    (m.insert k v).get? l = if l = k then some v else m.get? l :=
  lookup_insertEntry k v m.entries l m.ascending

@[simp] theorem get?_empty (l : String) : (empty : SortedMap α).get? l = none := rfl

end SortedMap

end MeshAccess
