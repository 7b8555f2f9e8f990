import Mathlib.Data.List.Induction
import Mathlib.Data.List.Nodup
import MeshAccess.Recorder
import MeshAccess.StringSet

/-!
# First occurrences

Source addresses and recorders are collected so that each stands once, at the place where it first
comes up. Both collections are the same function of what is collected, `List.eraseDups`
(`StringSet.toList_ofList`, `Recorder.resolve_eq_eraseDups`), and `eraseDups_append_singleton` says
what one more item does to it; the other laws follow by induction from the end of the list.

`Repeats` relates a list to the same list with items put in again behind their first occurrence.
What is collected item by item from the one list is collected from the other, in the same order
(`Repeats.eraseDups_flatMap`).
-/

namespace MeshAccess

section EraseDups

variable {α β : Type} [BEq α] [LawfulBEq α]

/-- One more item stands behind the others, unless it is one of them. -/
theorem eraseDups_append_singleton (l : List α) (a : α) :
    (l ++ [a]).eraseDups = if a ∈ l then l.eraseDups else l.eraseDups ++ [a] := by
  rw [List.eraseDups_append, List.removeAll, List.filter_singleton, List.elem_eq_mem]
  by_cases h : a ∈ l
  · rw [if_pos h, decide_eq_true h]
    exact List.append_nil _
  · rw [if_neg h, decide_eq_false h]
    rfl

theorem nodup_eraseDups (l : List α) : l.eraseDups.Nodup := by
  induction l using List.reverseRecOn with
  | nil => exact .nil
  | append_singleton l a ih =>
      rw [eraseDups_append_singleton]
      by_cases h : a ∈ l
      · rw [if_pos h]
        exact ih
      · rw [if_neg h, ← List.concat_eq_append, List.nodup_concat, List.mem_eraseDups]
        exact ⟨h, ih⟩

/-- Which items are kept does not change which of their occurrences is the first. -/
theorem eraseDups_filter (keep : α → Bool) (l : List α) :
    (l.filter keep).eraseDups = l.eraseDups.filter keep := by
  induction l using List.reverseRecOn with
  | nil => rfl
  | append_singleton l a ih =>
      rw [List.filter_append, List.filter_singleton, eraseDups_append_singleton]
      cases hk : keep a with
      | false =>
          rw [cond_false, List.append_nil, ih]
          by_cases h : a ∈ l
          · rw [if_pos h]
          · rw [if_neg h, List.filter_append, List.filter_singleton, hk]
            exact (List.append_nil _).symm
      | true =>
          rw [cond_true, eraseDups_append_singleton, ih]
          simp only [List.mem_filter, hk, and_true]
          by_cases h : a ∈ l
          · rw [if_pos h, if_pos h]
          · rw [if_neg h, if_neg h, List.filter_append, List.filter_singleton, hk]
            rfl

/-- Behind other items come those that are none of them. -/
theorem eraseDups_append_eq (xs ys : List α) :
    (xs ++ ys).eraseDups = xs.eraseDups ++ ys.eraseDups.filter fun y => !xs.elem y := by
  rw [List.eraseDups_append, List.removeAll, eraseDups_filter]

/-- Items that came up before do not count. -/
theorem eraseDups_append_of_subset {xs ys : List α} (h : ys ⊆ xs) (zs : List α) :
    (xs ++ (ys ++ zs)).eraseDups = (xs ++ zs).eraseDups := by
  have hnone : (ys.filter fun y => !xs.elem y) = [] := by
    rw [List.filter_eq_nil_iff]
    intro y hy
    simp [h hy]
  rw [List.eraseDups_append, List.eraseDups_append, List.removeAll, List.filter_append, hnone]
  rfl

/-- The first occurrences in two lists determine those in the joined list. -/
theorem eraseDups_append_congr {xs xs' ys ys' : List α} (hx : xs.eraseDups = xs'.eraseDups)
    (hy : ys.eraseDups = ys'.eraseDups) : (xs ++ ys).eraseDups = (xs' ++ ys').eraseDups := by
  have hmem : ∀ a, xs.elem a = xs'.elem a := by
    intro a
    rw [List.elem_eq_mem, List.elem_eq_mem, decide_eq_decide, ← List.mem_eraseDups, hx,
      List.mem_eraseDups]
  rw [eraseDups_append_eq, eraseDups_append_eq, hx, hy]
  simp only [hmem]

/-- Where the items of a list give the same first occurrences, so does the whole list. -/
theorem eraseDups_flatMap_congr {f g : β → List α} {l : List β}
    (h : ∀ b ∈ l, (f b).eraseDups = (g b).eraseDups) :
    (l.flatMap f).eraseDups = (l.flatMap g).eraseDups := by
  induction l with
  | nil => rfl
  | cons b l ih =>
      rw [List.flatMap_cons, List.flatMap_cons]
      refine eraseDups_append_congr (h b List.mem_cons_self) (ih ?_)
      intro b' hb'
      exact h b' (List.mem_cons_of_mem _ hb')

end EraseDups

/-! ## The order of first occurrences -/

section Places

variable {α γ : Type} {R : γ → γ → Prop} {f : γ → Option α} {places : List γ} {z : γ} {a b : α}

/-- Some place gives `a` that lies before all places that give `b`. -/
def GivenBefore (R : γ → γ → Prop) (f : γ → Option α) (places : List γ) (a b : α) : Prop :=
  ∃ x ∈ places, f x = some a ∧ ∀ y ∈ places, f y = some b → R x y

/-- A place behind the others leaves the items in the order that they are in. -/
theorem GivenBefore.append_singleton (h : GivenBefore R f places a b) (hz : ∀ x ∈ places, R x z) :
    GivenBefore R f (places ++ [z]) a b := by
  obtain ⟨x, hx, ha, hbefore⟩ := h
  refine ⟨x, List.mem_append_left _ hx, ha, ?_⟩
  intro y hy hb
  rcases List.mem_append.mp hy with hy | hy
  · exact hbefore y hy hb
  · rw [List.mem_singleton.mp hy]
    exact hz x hx

/-- An item that only the last place gives comes after those that the other places give. -/
theorem givenBefore_of_notMem (ha : a ∈ places.filterMap f) (hb : b ∉ places.filterMap f)
    (hz : ∀ x ∈ places, R x z) : GivenBefore R f (places ++ [z]) a b := by
  obtain ⟨x, hx, hfx⟩ := List.mem_filterMap.mp ha
  refine ⟨x, List.mem_append_left _ hx, hfx, ?_⟩
  intro y hy hfy
  rcases List.mem_append.mp hy with hy | hy
  · exact absurd (List.mem_filterMap.mpr ⟨y, hy, hfy⟩) hb
  · rw [List.mem_singleton.mp hy]
    exact hz x hx

/-- First occurrences stand in the order of the places that give them. -/
theorem pairwise_eraseDups_filterMap [BEq α] [LawfulBEq α] (h : places.Pairwise R) :
    (places.filterMap f).eraseDups.Pairwise (GivenBefore R f places) := by
  induction places using List.reverseRecOn with
  | nil => exact .nil
  | append_singleton places z ih =>
      rw [List.pairwise_append] at h
      obtain ⟨hplaces, -, hlast⟩ := h
      have hz : ∀ x ∈ places, R x z := fun x hx => hlast x hx z (List.mem_singleton_self z)
      have hkept : (places.filterMap f).eraseDups.Pairwise (GivenBefore R f (places ++ [z])) :=
        (ih hplaces).imp fun hab => hab.append_singleton hz
      rw [List.filterMap_append]
      cases hfz : f z with
      | none =>
          rw [List.filterMap_cons_none hfz, List.filterMap_nil, List.append_nil]
          exact hkept
      | some b =>
          rw [List.filterMap_cons_some hfz, List.filterMap_nil, eraseDups_append_singleton]
          by_cases hb : b ∈ places.filterMap f
          · rw [if_pos hb]
            exact hkept
          · -- the item is new, and stands behind all that came up before
            rw [if_neg hb, List.pairwise_append]
            refine ⟨hkept, List.pairwise_singleton _ b, ?_⟩
            intro a ha b' hb'
            rw [List.mem_singleton.mp hb']
            exact givenBefore_of_notMem (List.mem_eraseDups.mp ha) hb hz

end Places

/-! ## The two collections -/

/-- A set of texts lists the first occurrences in the batch that was put in. -/
theorem StringSet.toList_ofList (batch : List String) :
    (ofList batch).toList = batch.eraseDups := by
  induction batch using List.reverseRecOn with
  | nil => rfl
  | append_singleton batch s ih =>
      have hstep : ofList (batch ++ [s]) = (ofList batch).insert s := add_append empty batch [s]
      rw [hstep, toList_insert, ih, eraseDups_append_singleton]
      simp only [List.mem_eraseDups]

namespace Recorder

theorem distinct_eq_eraseDups (seen es : List Endpoint) :
    distinct seen es = (es.filter fun e => decide (e ∉ seen)).eraseDups := by
  induction es generalizing seen with
  | nil => rfl
  | cons e es ih =>
      rw [distinct]
      by_cases h : e ∈ seen
      · rw [if_pos h, ih, List.filter_cons_of_neg]
        simp [h]
      · have hfilter : (es.filter fun e' => decide (e' ∉ e :: seen))
            = (es.filter fun e' => decide (e' ∉ seen)).filter fun e' => !e' == e := by
          rw [List.filter_filter]
          refine List.filter_congr ?_
          intro e' _
          simp [Bool.beq_eq_decide_eq]
        rw [if_neg h, ih, hfilter, List.filter_cons_of_pos (by simp [h]), List.eraseDups_cons]

/-- The recorders are the first occurrences among the endpoints of the tagged nodes. -/
theorem resolve_eq_eraseDups (tags : List String) (srcs : List OwnedNode) (dst : OwnedNode)
    (port : UInt16) :
    resolve tags srcs dst port
      = (tags.flatMap fun tag => (srcs ++ [dst]).flatMap fun n =>
          (endpoint? port tag n).toList).eraseDups := by
  rw [resolve, distinct_eq_eraseDups]
  simp only [List.not_mem_nil, not_false_eq_true, decide_true, List.filter_true,
    List.filterMap_eq_flatMap_toList]

end Recorder

/-! ## Repeated items -/

/-- The list is `l` with items put in again, each behind its first occurrence. -/
inductive Repeats {α : Type} (l : List α) : List α → Prop where
  | refl : Repeats l l
  | again {xs ys : List α} {a : α} (h : Repeats l (xs ++ ys)) (ha : a ∈ xs) :
      Repeats l (xs ++ a :: ys)

namespace Repeats

variable {α β : Type} {l l' : List α}

/-- An item of a list may be put in again at its end. -/
theorem append_singleton {a : α} (ha : a ∈ l) : Repeats l (l ++ [a]) := by
  refine .again ?_ ha
  rw [List.append_nil]
  exact .refl

theorem filter (h : Repeats l l') (keep : α → Bool) :
    Repeats (l.filter keep) (l'.filter keep) := by
  induction h with
  | refl => exact .refl
  | @again xs ys a _ ha ih =>
      rw [List.filter_append] at ih ⊢
      cases hk : keep a with
      | false => rwa [List.filter_cons_of_neg (by simp [hk])]
      | true =>
          rw [List.filter_cons_of_pos hk]
          exact .again ih (List.mem_filter.mpr ⟨ha, hk⟩)

theorem append_right (h : Repeats l l') (zs : List α) : Repeats (l ++ zs) (l' ++ zs) := by
  induction h with
  | refl => exact .refl
  | again _ ha ih =>
      rw [List.append_assoc] at ih ⊢
      exact .again ih ha

/-- Collecting from a list with repeated items gives the same first occurrences. -/
theorem eraseDups_flatMap [BEq β] [LawfulBEq β] (h : Repeats l l') (f : α → List β) :
    (l'.flatMap f).eraseDups = (l.flatMap f).eraseDups := by
  induction h with
  | refl => rfl
  | @again xs ys a _ ha ih =>
      have hsub : f a ⊆ xs.flatMap f := fun b hb => List.mem_flatMap.mpr ⟨a, ha, hb⟩
      rw [← ih, List.flatMap_append, List.flatMap_append, List.flatMap_cons,
        eraseDups_append_of_subset hsub]

end Repeats

end MeshAccess
