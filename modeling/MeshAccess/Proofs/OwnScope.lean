import Mathlib.Data.List.Basic
import MeshAccess.Proofs.Entries

/-!
# The own scope is the other one among fewer nodes

What a rule lets in on the own nodes of a user is decided by functions of their own, which ask for
the login of that user where the other scope asks for that of each node's owner.
`ownScope_restricts` says that there is no more to it than a restriction: under the own scope a
token matches exactly those of the user's own nodes that it matches under the other one. So the
source addresses of a rule, order included, are the same as under the other scope when the sources
are narrowed down to the user's own nodes beforehand.
-/

namespace MeshAccess

namespace Compiler

variable {p : Policy} {r : Rule} {srcs : List OwnedNode} {u : User}

theorem expandSource_own_eq (p : Policy) (n : OwnedNode) (token : String) (u : User) :
    expandSource p n token (some u)
      = if n.isOwnOf u then expandSource p n token none else [] := by
  rw [expandSource, expandSource, Alias.matchesSource_own_eq]
  cases n.isOwnOf u with
  | true => rfl
  | false => rfl

/-- The own scope has the source addresses that the other one has among the user's own nodes. -/
theorem sources_own_eq :
    sources p r srcs (some u) = sources p r (srcs.filter fun n => n.isOwnOf u) none := by
  have hleft : sources p r (srcs.filter fun n => n.isOwnOf u) (some u)
      = sources p r srcs (some u) := by
    refine sources_filter ?_
    intro n hn t _
    rw [expandSource_own_eq, hn, if_neg Bool.false_ne_true]
  rw [← hleft]
  refine sources_congr rfl ?_
  intro t _
  -- only the user's own nodes are left, and of these the scopes ask the same
  refine List.flatMap_congr ?_
  intro n hn
  rw [expandSource_own_eq, if_pos (List.mem_filter.mp hn).2]

/-- **The own scope restricts the other one to the user's own nodes.** Whatever an alias stands for,
it matches a node among the nodes of one user exactly when it matches it among all nodes, the node
carries no tag and its owner has the login of that user. The source addresses of every rule under
the own scope are therefore, as a list, those under the other scope from the sources that are
untagged and owned by that login. -/
theorem ownScope_restricts (p : Policy) (u : User) :
    (∀ (a : Alias) (n : OwnedNode),
      a.matchesSource p n (some u) = true ↔
        a.matchesSource p n none = true ∧ n.node.tags = [] ∧ n.hasUser u.login = true) ∧
      ∀ (r : Rule) (srcs : List OwnedNode),
        sources p r srcs (some u)
          = sources p r (srcs.filter fun n => !n.isTagged && n.hasUser u.login) none := by
  refine ⟨?_, ?_⟩
  · intro a n
    rw [Alias.matchesSource_own_eq, Bool.and_eq_true, OwnedNode.isOwnOf_iff]
    exact and_comm
  · intro r srcs
    exact sources_own_eq

end Compiler

end MeshAccess
