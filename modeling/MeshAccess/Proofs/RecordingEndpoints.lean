import Mathlib.Data.List.ProdSigma
import MeshAccess.Proofs.Widening

/-!
# Which endpoints record the sessions of a rule

An endpoint records sessions if some of the rule's recorder tags is carried by a source, or by the
destination, that has the IPv4 address of the endpoint. `ComesUp` says at which places that is: the
place of the tag in its list, and the place of the node among the sources with the destination
behind them. `Exact` is a list of all such endpoints, each once, in the order of the first places at
which they come up, tags before nodes. There is one list of this kind only (`Exact.eq`), so
`recorders_exact` says all there is to say about the recorders of a rule of a document.
-/

namespace MeshAccess

/-- Pairs stand in the order of their first items, and then of their second ones. -/
theorem pairwise_product {α β : Type} {R : α → α → Prop} {S : β → β → Prop} {as : List α}
    {bs : List β} (ha : as.Pairwise R) (hb : bs.Pairwise S) :
    (as ×ˢ bs).Pairwise fun x y => R x.1 y.1 ∨ x.1 = y.1 ∧ S x.2 y.2 := by
  induction ha with
  | nil => exact .nil
  | @cons a as hlt _ ih =>
      rw [List.product_cons, List.pairwise_append]
      refine ⟨?_, ih, ?_⟩
      · rw [List.pairwise_map]
        exact hb.imp fun h => Or.inr ⟨rfl, h⟩
      · rintro x hx ⟨a', b'⟩ hy
        obtain ⟨b, -, rfl⟩ := List.mem_map.mp hx
        exact Or.inl (hlt a' (List.mem_product.mp hy).1)

/-- Items stand in the order of their places. -/
theorem pairwise_zipIdx {α : Type} (l : List α) :
    l.zipIdx.Pairwise fun x y => x.2 < y.2 := by
  rw [← List.pairwise_map, List.zipIdx_map_snd]
  exact List.pairwise_lt_range'

namespace Recorder

variable {tags : List String} {srcs : List OwnedNode} {dst : OwnedNode} {port : UInt16}
  {i j : Nat} {e e' : Endpoint} {es es' : List Endpoint}

/-! ## The endpoints and their order -/

/-- The endpoint comes up at the place `i` of the tags and the place `j` of the nodes: the node
there, a source or behind them the destination, carries the tag there, and the endpoint has the
node's IPv4 address and the port. -/
inductive ComesUp (tags : List String) (srcs : List OwnedNode) (dst : OwnedNode) (port : UInt16)
    (i j : Nat) : Endpoint → Prop where
  | carried {t : Tag} {n : OwnedNode} {ip : IPv4} (htag : tags[i]? = some t.text)
      (hnode : (srcs ++ [dst])[j]? = some n) (ht : t ∈ n.node.tags) (hip : n.ipv4 = some ip) :
      ComesUp tags srcs dst port i j (.v4 ip port)

/-- Some place at which `e` comes up lies before all places at which `e'` does. -/
def Precedes (tags : List String) (srcs : List OwnedNode) (dst : OwnedNode) (port : UInt16)
    (e e' : Endpoint) : Prop :=
  ∃ i j, ComesUp tags srcs dst port i j e ∧
    ∀ i' j', ComesUp tags srcs dst port i' j' e' → i < i' ∨ i = i' ∧ j < j'

/-- The list holds the endpoints that come up, each once, in the order of the first places at which
they do. -/
structure Exact (tags : List String) (srcs : List OwnedNode) (dst : OwnedNode) (port : UInt16)
    (es : List Endpoint) : Prop where
  nodup : es.Nodup
  mem_iff : ∀ e, e ∈ es ↔ ∃ i j, ComesUp tags srcs dst port i j e
  ordered : es.Pairwise (Precedes tags srcs dst port)

theorem Precedes.asymm (h : Precedes tags srcs dst port e e') :
    ¬Precedes tags srcs dst port e' e := by
  rintro ⟨i', j', hup', hbefore'⟩
  obtain ⟨i, j, hup, hbefore⟩ := h
  have hlt := hbefore i' j' hup'
  have hlt' := hbefore' i j hup
  omega

/-- Nothing is left open: two such lists are the same. -/
theorem Exact.eq (h : Exact tags srcs dst port es) (h' : Exact tags srcs dst port es') :
    es = es' := by
  have hperm : es.Perm es' := by
    refine (List.perm_ext_iff_of_nodup h.nodup h'.nodup).mpr fun e => ?_
    rw [h.mem_iff, h'.mem_iff]
  refine hperm.eq_of_pairwise ?_ h.ordered h'.ordered
  intro e e' _ _ hlt hlt'
  exact absurd hlt' hlt.asymm

/-! ## The resolved list -/

/-- A node has an endpoint for the tags that it carries, at its IPv4 address. -/
theorem endpoint?_eq_some_iff {tag : String} {n : OwnedNode} :
    endpoint? port tag n = some e ↔
      ∃ t ∈ n.node.tags, t.text = tag ∧ ∃ ip, n.ipv4 = some ip ∧ .v4 ip port = e := by
  rw [endpoint?]
  by_cases h : n.hasTag tag = true
  · rw [if_pos h, Option.map_eq_some_iff]
    obtain ⟨t, ht, htext⟩ := OwnedNode.hasTag_iff.mp h
    exact ⟨fun hip => ⟨t, ht, htext, hip⟩, fun ⟨_, _, _, hip⟩ => hip⟩
  · rw [if_neg h]
    constructor
    · intro hnone
      exact nomatch hnone
    · rintro ⟨t, ht, htext, -⟩
      exact absurd (OwnedNode.hasTag_iff.mpr ⟨t, ht, htext⟩) h

theorem comesUp_iff :
    ComesUp tags srcs dst port i j e ↔
      ∃ tag n, tags[i]? = some tag ∧ (srcs ++ [dst])[j]? = some n ∧
        endpoint? port tag n = some e := by
  constructor
  · rintro ⟨htag, hnode, ht, hip⟩
    exact ⟨_, _, htag, hnode, endpoint?_eq_some_iff.mpr ⟨_, ht, rfl, _, hip, rfl⟩⟩
  · rintro ⟨tag, n, htag, hnode, hend⟩
    obtain ⟨t, ht, rfl, ip, hip, rfl⟩ := endpoint?_eq_some_iff.mp hend
    exact .carried htag hnode ht hip

/-- All pairs of a tag and a node, each with its place in its list. -/
def places (tags : List String) (nodes : List OwnedNode) :
    List ((String × Nat) × (OwnedNode × Nat)) :=
  tags.zipIdx ×ˢ nodes.zipIdx

theorem pairwise_places (nodes : List OwnedNode) :
    (places tags nodes).Pairwise fun x y =>
      x.1.2 < y.1.2 ∨ x.1 = y.1 ∧ x.2.2 < y.2.2 :=
  pairwise_product (pairwise_zipIdx tags) (pairwise_zipIdx nodes)

/-- The recorders are the first occurrences among the endpoints that come up at the places. -/
theorem resolve_eq_eraseDups_places :
    resolve tags srcs dst port
      = ((places tags (srcs ++ [dst])).filterMap fun x => endpoint? port x.1.1 x.2.1).eraseDups := by
  have hnodes : ∀ (nodes : List OwnedNode) (tag : String),
      nodes.filterMap (endpoint? port tag)
        = nodes.zipIdx.filterMap fun x => endpoint? port tag x.1 := by
    intro nodes tag
    conv_lhs => rw [← List.zipIdx_map_fst 0 nodes, List.filterMap_map]
    rfl
  have hplaces : ∀ nodes : List OwnedNode,
      ((places tags nodes).filterMap fun x => endpoint? port x.1.1 x.2.1)
        = tags.flatMap fun tag => nodes.filterMap (endpoint? port tag) := by
    intro nodes
    show (tags.zipIdx.flatMap fun x => nodes.zipIdx.map (Prod.mk x)).filterMap _ = _
    rw [List.filterMap_flatMap]
    conv_rhs => rw [← List.zipIdx_map_fst 0 tags, List.flatMap_map]
    simp only [List.filterMap_map, hnodes]
    rfl
  rw [hplaces, resolve, distinct_eq_eraseDups]
  simp only [List.not_mem_nil, not_false_eq_true, decide_true, List.filter_true]

theorem mem_places {nodes : List OwnedNode} {tag : String} {n : OwnedNode} :
    ((tag, i), (n, j)) ∈ places tags nodes ↔ tags[i]? = some tag ∧ nodes[j]? = some n := by
  rw [places, List.mem_product, List.mem_zipIdx_iff_getElem?, List.mem_zipIdx_iff_getElem?]

theorem exact_resolve (tags : List String) (srcs : List OwnedNode) (dst : OwnedNode)
    (port : UInt16) : Exact tags srcs dst port (resolve tags srcs dst port) where
  nodup := by
    rw [resolve_eq_eraseDups]
    exact nodup_eraseDups _
  mem_iff := by
    intro e
    rw [resolve_eq_eraseDups_places, List.mem_eraseDups, List.mem_filterMap]
    constructor
    · rintro ⟨⟨⟨tag, i⟩, ⟨n, j⟩⟩, hmem, hend⟩
      obtain ⟨htag, hnode⟩ := mem_places.mp hmem
      exact ⟨i, j, comesUp_iff.mpr ⟨tag, n, htag, hnode, hend⟩⟩
    · rintro ⟨i, j, hup⟩
      obtain ⟨tag, n, htag, hnode, hend⟩ := comesUp_iff.mp hup
      exact ⟨((tag, i), (n, j)), mem_places.mpr ⟨htag, hnode⟩, hend⟩
  ordered := by
    rw [resolve_eq_eraseDups_places]
    refine (pairwise_eraseDups_filterMap (pairwise_places (srcs ++ [dst]))).imp ?_
    rintro e e' ⟨⟨⟨tag, i⟩, ⟨n, j⟩⟩, hmem, hend, hbefore⟩
    obtain ⟨htag, hnode⟩ := mem_places.mp hmem
    refine ⟨i, j, comesUp_iff.mpr ⟨tag, n, htag, hnode, hend⟩, ?_⟩
    intro i' j' hup'
    obtain ⟨tag', n', htag', hnode', hend'⟩ := comesUp_iff.mp hup'
    rcases hbefore ((tag', i'), (n', j')) (mem_places.mpr ⟨htag', hnode'⟩) hend' with hlt | hlt
    · exact Or.inl hlt
    · exact Or.inr ⟨congrArg Prod.snd hlt.1, hlt.2⟩

/-- Tokens that name no tag give no endpoint, since every tag is named by its own text. -/
theorem resolve_filter_tags :
    resolve (tags.filter fun t => Alias.classify t = .tag t) srcs dst port
      = resolve tags srcs dst port := by
  rw [resolve, resolve, flatMap_filter_of_eq_nil]
  intro tag htag
  rw [List.filterMap_eq_nil_iff]
  intro n _
  rw [Option.eq_none_iff_forall_ne_some]
  intro e he
  obtain ⟨t, -, rfl, -⟩ := endpoint?_eq_some_iff.mp he
  exact absurd t.classify_text (of_decide_eq_false htag)

end Recorder

namespace Compiler

/-- **Recording endpoints are exact.** For every list of recorder tokens, the resolved list is the
one that holds the endpoints that come up, each once and in the order in which they first do; tokens
that name no tag contribute nothing. In a document, every rule that a rule of the policy yields,
whatever its action and under either scope, has exactly this list with the configured port. -/
theorem recorders_exact (c : Compiler) (srcs : List OwnedNode) (dst : OwnedNode) :
    (∀ (tokens : List String) (port : UInt16),
      (∀ es, Recorder.resolve tokens srcs dst port = es ↔
          Recorder.Exact tokens srcs dst port es) ∧
        Recorder.resolve (tokens.filter fun t => Alias.classify t = .tag t) srcs dst port
          = Recorder.resolve tokens srcs dst port) ∧
      (c.compile srcs dst).rules = (c.entries srcs dst).map Entry.rule ∧
      ∀ e ∈ c.entries srcs dst, Recorder.Exact e.origin.recorder srcs dst c.settings.recorderPort
        e.rule.action.recorders := by
  refine ⟨?_, map_rule_entries.symm, ?_⟩
  · intro tokens port
    refine ⟨?_, Recorder.resolve_filter_tags⟩
    intro es
    constructor
    · rintro rfl
      exact Recorder.exact_resolve tokens srcs dst port
    · intro h
      exact (Recorder.exact_resolve tokens srcs dst port).eq h
  · intro e he
    obtain ⟨user, hemit⟩ := emitted_of_mem he
    rw [hemit.action, recorders_action]
    exact Recorder.exact_resolve ..

end Compiler

end MeshAccess
