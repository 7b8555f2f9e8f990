import MeshAccess.Proofs.SelfGrants

/-!
# Which nodes are candidate sources

The document of a node is compiled with the other nodes of the snapshot as candidate sources, each
with its recorded owner (`RecordedOwner`). The node is found by its position in the list, but the
others are told from it by their numbers, and loading accepts snapshots in which several nodes have
one number. `compileFor_candidates` says what this comes to: the candidates are all nodes at other
positions (`Snapshot.candidates`) exactly where no other position has the number, and otherwise
those that share it are lost. `compileFor_loses_node` is about a snapshot that is accepted and
loses a node.
-/

namespace MeshAccess

/-! ## Recorded owners -/

/-- The owner is the last user who has the number recorded for the node, and there is none if no
user has it or no number is recorded. -/
inductive RecordedOwner (users : List User) (n : Node) : Option User → Prop where
  | owned {before after : List User} {u : User} (h : users = before ++ u :: after)
      (hid : n.userId = some u.id) (hlast : ∀ v ∈ after, v.id ≠ u.id) :
      RecordedOwner users n (some u)
  | unowned (h : ∀ u ∈ users, n.userId ≠ some u.id) : RecordedOwner users n none

namespace Directory

variable {d : Directory} {id : UserId}

theorem get?_eq_none_iff : d.get? id = none ↔ ∀ u ∈ d.users, u.id ≠ id := by
  simp [get?]

theorem get?_eq_some_iff {u : User} :
    d.get? id = some u ↔
      u.id = id ∧ ∃ before after, d.users = before ++ u :: after ∧ ∀ v ∈ after, v.id ≠ id := by
  rw [get?, List.findRev?_eq_find?_reverse, List.find?_eq_some_iff_append, beq_iff_eq]
  refine and_congr_right fun _ => ?_
  -- the users behind `u` are those in front of it from the end
  constructor
  · rintro ⟨front, back, h, hfront⟩
    refine ⟨back.reverse, front.reverse, ?_, ?_⟩
    · rw [← List.reverse_reverse d.users, h]
      simp
    · intro v hv
      simpa using hfront v (List.mem_reverse.mp hv)
  · rintro ⟨before, after, h, hafter⟩
    refine ⟨after.reverse, before.reverse, ?_, ?_⟩
    · rw [h]
      simp
    · intro v hv
      simpa using hafter v (List.mem_reverse.mp hv)

/-- A node is paired with its recorded owner. -/
theorem recordedOwner_own (d : Directory) (n : Node) :
    RecordedOwner d.users n (d.own n).owner := by
  show RecordedOwner d.users n (n.userId.bind d.get?)
  cases hid : n.userId with
  | none =>
      refine .unowned ?_
      intro u _ hu
      rw [hid] at hu
      cases hu
  | some id =>
      show RecordedOwner d.users n (d.get? id)
      cases hget : d.get? id with
      | none =>
          refine .unowned ?_
          intro u hu hu'
          rw [hid] at hu'
          exact get?_eq_none_iff.mp hget u hu (Option.some.inj hu').symm
      | some u =>
          obtain ⟨rfl, before, after, h, hlast⟩ := get?_eq_some_iff.mp hget
          exact .owned h hid hlast

end Directory

namespace Snapshot

variable {s : Snapshot} {selector : String} {i : Nat} {dst : Node}

/-! ## The others by position and by number -/

/-- Whether the selector spells the number of the node or is its hostname. -/
def selects (selector : String) (n : Node) : Bool :=
  some n.id == selectedId? selector || n.hostname == selector

/-- The position of the first node that the selector spells the number of or is the hostname of. -/
def position? (s : Snapshot) (selector : String) : Option Nat :=
  s.nodes.findIdx? (selects selector)

/-- The nodes at all other positions, in their order, each with its owner. -/
def candidates (s : Snapshot) (i : Nat) : List OwnedNode :=
  (s.nodes.eraseIdx i).map s.directory.own

/-- A selector finds the node at its position. -/
theorem find?_eq_position? : s.find? selector = (s.position? selector).bind (s.nodes[·]?) :=
  List.find?_eq_bind_findIdx?_getElem?

theorem exists_node_of_position? (h : s.position? selector = some i) :
    ∃ dst, s.nodes[i]? = some dst ∧ s.find? selector = some dst := by
  obtain ⟨hi, -⟩ := List.findIdx?_eq_some_iff_getElem.mp h
  have hnode : s.nodes[i]? = some s.nodes[i] := List.getElem?_eq_getElem hi
  refine ⟨s.nodes[i], hnode, ?_⟩
  rw [find?_eq_position?, h]
  exact hnode

/-- An item that is filtered out may be left out beforehand. -/
theorem filter_eraseIdx {nodes : List Node} {p : Node → Bool} (h : nodes[i]? = some dst)
    (hp : p dst = false) : (nodes.eraseIdx i).filter p = nodes.filter p := by
  induction nodes generalizing i with
  | nil => rfl
  | cons n nodes ih =>
      cases i with
      | zero =>
          obtain rfl : n = dst := Option.some.inj h
          rw [List.eraseIdx_cons_zero, List.filter_cons_of_neg (by simp [hp])]
      | succ i =>
          rw [List.eraseIdx_cons_succ, List.filter_cons, List.filter_cons, ih h]

/-- Of the nodes at other positions, those with the destination's number are lost. -/
theorem sourcesFor_eq_filter (h : s.nodes[i]? = some dst) :
    s.sourcesFor dst = (s.candidates i).filter (·.node.id != dst.id) := by
  have hdst : (dst.id != dst.id) = false := bne_self_eq_false dst.id
  rw [sourcesFor, candidates, List.filter_map, ← filter_eraseIdx h hdst]
  rfl

/-- No node is lost exactly when no other position has the destination's number. -/
theorem filter_candidates_eq_self_iff :
    (s.candidates i).filter (·.node.id != dst.id) = s.candidates i ↔
      ∀ j n, j ≠ i → s.nodes[j]? = some n → n.id ≠ dst.id := by
  simp only [List.filter_eq_self, candidates, List.forall_mem_map, List.mem_eraseIdx_iff_getElem?,
    bne_iff_ne]
  constructor
  · intro h j n hj hn
    exact h n ⟨j, hj, hn⟩
  · rintro h n ⟨j, hj, hn⟩
    exact h j n hj hn

/-- **The other nodes are the candidate sources, as far as their numbers differ.** Where a selector
finds the node at a position, its document is compiled with the nodes at the other positions, in
their order, without those that have its number; every node stands there with its recorded owner.
Nothing is lost exactly when no other position has the number. -/
theorem compileFor_candidates (s : Snapshot) {selector : String} {i : Nat}
    (h : s.position? selector = some i) :
    ∃ dst, s.nodes[i]? = some dst ∧ s.find? selector = some dst ∧
      (∀ c : Compiler, s.compileFor c selector
        = .ok (c.compile ((s.candidates i).filter (·.node.id != dst.id)) (s.directory.own dst))) ∧
      ((s.candidates i).filter (·.node.id != dst.id) = s.candidates i ↔
        ∀ j n, j ≠ i → s.nodes[j]? = some n → n.id ≠ dst.id) ∧
      ∀ n, RecordedOwner s.users n (s.directory.own n).owner := by
  obtain ⟨dst, hnode, hfind⟩ := exists_node_of_position? h
  refine ⟨dst, hnode, hfind, ?_, filter_candidates_eq_self_iff, s.directory.recordedOwner_own⟩
  intro c
  rw [compileFor, hfind, ← sourcesFor_eq_filter hnode]

/-! ## Two nodes with one number -/

namespace SharedNumber

/-- Two nodes of one user, with the same number. -/
def text : String :=
  "\x7b\"users\":[\x7b\"id\":1,\"name\":\"ann\"\x7d],
  \"nodes\":[\x7b\"id\":1,\"hostname\":\"desk\",\"ipv4\":\"10.0.0.1\",\"user_id\":1\x7d,
  \x7b\"id\":1,\"hostname\":\"laptop\",\"ipv4\":\"10.0.0.2\",\"user_id\":1\x7d]\x7d"

/-- The node that is selected. -/
def desk : Node := ⟨⟨1⟩, "desk", some ⟨10, 0, 0, 1⟩, none, some ⟨1⟩, []⟩

/-- The snapshot that the text holds. -/
def snapshot : Snapshot where
  users := [⟨⟨1⟩, "ann", none⟩]
  nodes := [desk, ⟨⟨1⟩, "laptop", some ⟨10, 0, 0, 2⟩, none, some ⟨1⟩, []⟩]

set_option maxRecDepth 2000 in
theorem load_text : Snapshot.load text = .ok snapshot :=
  load_eq_ok (Json.Document.ofText_eq_build rfl) (by decide +kernel) (by decide +kernel)
    (by decide +kernel)

end SharedNumber

/-- The desk is found in front and has no candidate sources, though there is another node. -/
theorem compileFor_candidates_of_sharedNumber :
    SharedNumber.snapshot.position? "desk" = some 0 ∧
      (SharedNumber.snapshot.candidates 0).map (fun n => n.node.hostname) = ["laptop"] ∧
      ∃ dst, SharedNumber.snapshot.nodes[0]? = some dst ∧
        SharedNumber.snapshot.find? "desk" = some dst ∧
        (∀ c : Compiler, SharedNumber.snapshot.compileFor c "desk"
          = .ok (c.compile ((SharedNumber.snapshot.candidates 0).filter (·.node.id != dst.id))
              (SharedNumber.snapshot.directory.own dst))) ∧
        ((SharedNumber.snapshot.candidates 0).filter (·.node.id != dst.id)
            = SharedNumber.snapshot.candidates 0 ↔
          ∀ j n, j ≠ 0 → SharedNumber.snapshot.nodes[j]? = some n → n.id ≠ dst.id) ∧
        ∀ n, RecordedOwner SharedNumber.snapshot.users n
          (SharedNumber.snapshot.directory.own n).owner := by
  have h : SharedNumber.snapshot.position? "desk" = some 0 := by decide +kernel
  exact ⟨h, by decide +kernel, compileFor_candidates SharedNumber.snapshot h⟩

/-- **A node may be lost.** In a snapshot that is accepted, the document of a node is not the one
that the nodes at the other positions give. -/
theorem compileFor_loses_node :
    ¬∀ (text : String) (s : Snapshot), Snapshot.load text = .ok s →
      ∀ (c : Compiler) (selector : String) (i : Nat) (dst : Node),
        s.position? selector = some i → s.nodes[i]? = some dst →
        s.compileFor c selector = .ok (c.compile (s.candidates i) (s.directory.own dst)) := by
  intro h
  have hdesk := h SharedNumber.text SharedNumber.snapshot SharedNumber.load_text memberToSelf
    "desk" 0 SharedNumber.desk (by decide +kernel) rfl
  exact absurd (congrArg Except.toOption hdesk) (by decide +kernel)

end Snapshot

end MeshAccess
