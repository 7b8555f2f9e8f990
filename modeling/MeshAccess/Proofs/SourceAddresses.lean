import Mathlib.Data.List.Basic
import MeshAccess.Proofs.Entries
import MeshAccess.Proofs.FirstOccurrences

/-!
# Source addresses are first occurrences

The source addresses of a rule are collected in a set that grows batch by batch, where each batch is
what one token brings in from one node. `Grown` says what a batch makes of a set, and
`StringSet.grown_add` that every batch does so, whatever was put in before. What the loops over
tokens and nodes come to can then be written down at once: the first occurrences among the addresses
of the matching nodes, one eligible token after the other (`collects_firstOccurrences`).

A set never drops or moves a text, so it keeps what it had in front (`toList_prefix_add`). All else
follows from batches put in one after the other being one batch (`ofBatches_eq_ofList`).
-/

namespace MeshAccess

namespace StringSet

/-- The set after batches that were put in one after the other. -/
def ofBatches (batches : List (List String)) : StringSet := batches.foldl add empty

/-- The order and the texts of the batches count, not where one ends and the next begins. -/
theorem ofBatches_eq_ofList (batches : List (List String)) :
    ofBatches batches = ofList batches.flatten :=
  List.foldl_flatten.symm

/-- The set `after` holds the first occurrences in `items`, those that `before` had in front, and
has seen just the texts that it holds. -/
structure Grown (before after : StringSet) (items : List String) : Prop where
  nodup : after.toList.Nodup
  mem_iff : ∀ s, s ∈ after.toList ↔ s ∈ items
  firstOccurrences : after.toList = items.eraseDups
  keeps : before.toList <+: after.toList
  seen : after.seen.Perm after.toList

variable (set : StringSet)

/-- An insertion leaves the texts that are there where they are. -/
theorem toList_prefix_insert (s : String) : set.toList <+: (set.insert s).toList := by
  have hstep := set.toList_insert s
  by_cases h : s ∈ set.toList
  · rw [if_pos h] at hstep
    exact hstep ▸ List.prefix_rfl
  · rw [if_neg h] at hstep
    exact hstep ▸ List.prefix_append _ _

/-- So does a batch, put in text by text. -/
theorem toList_prefix_add (batch : List String) : set.toList <+: (set.add batch).toList := by
  induction batch generalizing set with
  | nil => exact List.prefix_rfl
  | cons s batch ih =>
      show set.toList <+: ((set.insert s).add batch).toList
      exact (set.toList_prefix_insert s).trans (ih (set.insert s))

/-- One batch more makes the set grow to the first occurrences in all batches. -/
theorem grown_add (batches : List (List String)) (batch : List String) :
    Grown (ofBatches batches) ((ofBatches batches).add batch) (batches ++ [batch]).flatten := by
  have hall : (ofBatches batches).add batch = ofList (batches ++ [batch]).flatten := by
    rw [ofBatches_eq_ofList, List.flatten_append, List.flatten_singleton]
    exact (add_append empty batches.flatten batch).symm
  exact
    { nodup := nodup _
      mem_iff := by
        intro s
        rw [hall, mem_ofList]
      firstOccurrences := by rw [hall, toList_ofList]
      keeps := toList_prefix_add _ batch
      seen := inStep _ }

/-- Addresses stand in the order in which the batches bring them up, and once. -/
example :
    (ofBatches [["10.0.0.2", "10.0.0.1"], ["10.0.0.1", "10.0.0.3", "10.0.0.2"]]).toList
      = ["10.0.0.2", "10.0.0.1", "10.0.0.3"] := by
  decide

end StringSet

namespace Compiler

theorem sources_eq_eraseDups (p : Policy) (r : Rule) (srcs : List OwnedNode) (user : Option User) :
    sources p r srcs user
      = ((eligible r).flatMap fun t => srcs.flatMap fun n => expandSource p n t user).eraseDups := by
  rw [sources_eq_ofList, StringSet.toList_ofList]

/-- A token brings in the addresses of the nodes that it matches, in the order of the nodes. -/
theorem flatMap_expandSource (p : Policy) (srcs : List OwnedNode) (token : String)
    (user : Option User) :
    (srcs.flatMap fun n => expandSource p n token user)
      = (srcs.filter fun n => (Alias.classify token).matchesSource p n user).flatMap
          OwnedNode.addresses := by
  have hnone : ∀ n, (Alias.classify token).matchesSource p n user = false →
      expandSource p n token user = [] := by
    intro n hn
    rw [expandSource, hn]
    exact if_neg Bool.false_ne_true
  rw [← flatMap_filter_of_eq_nil hnone]
  refine List.flatMap_congr ?_
  intro n hn
  exact if_pos (List.mem_filter.mp hn).2

/-- **Principals are collected in the order in which they first come up.** However many batches were
put in before, one more makes the set the first occurrences in all of them: no text stands twice,
just the texts put in are there and have been seen, and those of the set before are in front. The
source addresses of every rule, under both scopes, are therefore the first occurrences among the
addresses, IPv4 before IPv6, of the nodes that a token matches, token by token as far as the rule's
action lets them bring in sources, and node by node. -/
theorem collects_firstOccurrences :
    (∀ (batches : List (List String)) (batch : List String),
      StringSet.Grown (.ofBatches batches) ((StringSet.ofBatches batches).add batch)
        (batches ++ [batch]).flatten) ∧
      ∀ (p : Policy) (r : Rule) (srcs : List OwnedNode) (user : Option User),
        sources p r srcs user
          = ((r.src.filter fun t => (Alias.classify t).isSourceFor r.action).flatMap fun t =>
              (srcs.filter fun n => (Alias.classify t).matchesSource p n user).flatMap fun n =>
                (n.node.ipv4.map IPv4.toText).toList
                  ++ (n.node.ipv6.map IPv6.toText).toList).eraseDups := by
  refine ⟨StringSet.grown_add, ?_⟩
  intro p r srcs user
  rw [sources_eq_eraseDups]
  simp only [flatMap_expandSource]
  rfl

end Compiler

end MeshAccess
