import Mathlib.Data.List.Forall2
import MeshAccess.Proofs.Entries

/-!
# What tagged nodes can bring about

The identity of a tagged node are its tags. Two statements about whole documents follow from that.

* **Owners of tagged nodes do not count** (`compile_eq_of_sameButTaggedOwners`): giving, taking or
  replacing the owner of tagged sources changes nothing in any document, recorders included.
* **Tagged nodes never enter through a check** (`check_excludes_tagged`): a rule with a check is
  compiled as if its tags were not written and as if there were no tagged sources, so what it lets
  in are addresses of untagged nodes.

Both rest on `Alias.matchesSource_of_isTagged`, which is carried from one token and one node to the
sources of a rule, from there to the rules under one scope, and then to the document.
-/

namespace MeshAccess

/-! ## Owners of tagged nodes -/

/-- Two nodes are the same but for the owner, which may be any or none where the node is tagged. -/
structure SameButTaggedOwner (n m : OwnedNode) : Prop where
  node : n.node = m.node
  owner : n.node.tags = [] → n.owner = m.owner

namespace SameButTaggedOwner

variable {n m : OwnedNode}

theorem hasTag_eq (h : SameButTaggedOwner n m) (text : String) : n.hasTag text = m.hasTag text :=
  congrArg (Node.hasTag · text) h.node

theorem addresses_eq (h : SameButTaggedOwner n m) : n.addresses = m.addresses :=
  congrArg Node.addresses h.node

/-- No token tells the two nodes apart, whether the sources are those of one user or of all. -/
theorem matchesSource_eq (h : SameButTaggedOwner n m) (p : Policy) (a : Alias)
    (user : Option User) : a.matchesSource p n user = a.matchesSource p m user := by
  cases ht : n.isTagged with
  | true =>
      have hm : m.isTagged = true := (congrArg Node.isTagged h.node).symm.trans ht
      rw [Alias.matchesSource_of_isTagged a user ht, Alias.matchesSource_of_isTagged a user hm]
      simp only [h.hasTag_eq]
  | false =>
      -- an untagged node has its owner on both sides, so the two nodes are one
      have ho : n.owner = m.owner := h.owner (OwnedNode.isTagged_eq_false_iff.mp ht)
      have hnm : n = m := by
        obtain ⟨node, owner⟩ := n
        obtain ⟨node', owner'⟩ := m
        obtain rfl : node = node' := h.node
        obtain rfl : owner = owner' := ho
        rfl
      rw [hnm]

theorem expandSource_eq (h : SameButTaggedOwner n m) (p : Policy) (token : String)
    (user : Option User) : expandSource p n token user = expandSource p m token user := by
  rw [expandSource, expandSource, h.matchesSource_eq, h.addresses_eq]

theorem endpoint?_eq (h : SameButTaggedOwner n m) (port : UInt16) (tag : String) :
    Recorder.endpoint? port tag n = Recorder.endpoint? port tag m := by
  have hip : n.ipv4 = m.ipv4 := congrArg Node.ipv4 h.node
  rw [Recorder.endpoint?, Recorder.endpoint?, h.hasTag_eq, hip]

end SameButTaggedOwner

namespace Compiler

variable {c : Compiler} {srcs srcs' : List OwnedNode} {dst : OwnedNode}

/-- What is read off each node alike is read off the two lists alike. -/
theorem map_eq_of_sameButTaggedOwners {α : Type} {f : OwnedNode → α}
    (h : List.Forall₂ SameButTaggedOwner srcs srcs')
    (hf : ∀ n m, SameButTaggedOwner n m → f n = f m) : srcs.map f = srcs'.map f := by
  rw [← List.forall₂_eq_eq_eq, List.forall₂_map_left_iff, List.forall₂_map_right_iff]
  exact h.imp fun n m hnm => hf n m hnm

theorem sources_eq_of_sameButTaggedOwners (h : List.Forall₂ SameButTaggedOwner srcs srcs')
    (p : Policy) (r : Rule) (user : Option User) :
    sources p r srcs user = sources p r srcs' user := by
  refine sources_congr rfl ?_
  intro t _
  rw [List.flatMap_def, List.flatMap_def,
    map_eq_of_sameButTaggedOwners h fun n m hnm => hnm.expandSource_eq p t user]

theorem resolve_eq_of_sameButTaggedOwners (h : List.Forall₂ SameButTaggedOwner srcs srcs')
    (tags : List String) (port : UInt16) :
    Recorder.resolve tags srcs dst port = Recorder.resolve tags srcs' dst port := by
  have hfilter : ∀ tag, srcs.filterMap (Recorder.endpoint? port tag)
      = srcs'.filterMap (Recorder.endpoint? port tag) := by
    intro tag
    have hmap := map_eq_of_sameButTaggedOwners h fun n m hnm => hnm.endpoint?_eq port tag
    have hid := congrArg (List.filterMap id) hmap
    rwa [List.filterMap_map, List.filterMap_map] at hid
  rw [Recorder.resolve, Recorder.resolve]
  simp only [List.filterMap_append, hfilter]

/-- **Owners of tagged nodes do not count.** Two lists of sources that are the same, position by
position, but for the owners of tagged nodes give the same document for every destination. -/
theorem compile_eq_of_sameButTaggedOwners (c : Compiler) (dst : OwnedNode)
    (h : List.Forall₂ SameButTaggedOwner srcs srcs') :
    c.compile srcs dst = c.compile srcs' dst := by
  have haction : ∀ r, action c.settings r srcs dst = action c.settings r srcs' dst := by
    intro r
    rw [action, action, resolve_eq_of_sameButTaggedOwners h]
  have hrule : ∀ r, compileRule c r srcs dst = compileRule c r srcs' dst := by
    intro r
    exact compileRule_congr rfl rfl (haction r) (sources_eq_of_sameButTaggedOwners h c.policy r)
  rw [compile, compile]
  simp only [hrule]

namespace BuildHost

/-- Groups, members and tags may log in on the own nodes of the same user and on production. -/
def compiler : Compiler where
  policy :=
    ⟨SortedMap.empty.insert "group:eng" ["ann"],
      [⟨.accept, none, ["group:eng", "autogroup:member", "tag:ci"], ["autogroup:self", "tag:prod"],
        ["root"], ["tag:ci"], false⟩]⟩
  settings := .standard

/-- A user whose login is the name. -/
def ann : User := ⟨⟨1⟩, "ann", none⟩

/-- A node that builds, with some owner or none, and the one at which `ann` sits. -/
def sources (owner : Option User) : List OwnedNode :=
  [⟨⟨⟨1⟩, "build", some ⟨10, 0, 0, 1⟩, none, none, [⟨"tag:ci", by decide⟩]⟩, owner⟩,
    ⟨⟨⟨2⟩, "laptop", some ⟨10, 0, 0, 2⟩, none, some ⟨1⟩, []⟩, some ann⟩]

/-- A node in production that `ann` owns. -/
def server : OwnedNode :=
  ⟨⟨⟨3⟩, "server", some ⟨10, 0, 0, 3⟩, none, some ⟨1⟩, [⟨"tag:prod", by decide⟩]⟩, some ann⟩

end BuildHost

/-- To make `ann` the owner of the build host does not let it in as one of the nodes of `ann`. -/
theorem compile_buildHost :
    BuildHost.sources (some BuildHost.ann) ≠ BuildHost.sources none ∧
      List.Forall₂ SameButTaggedOwner
        (BuildHost.sources (some BuildHost.ann)) (BuildHost.sources none) ∧
      BuildHost.compiler.compile (BuildHost.sources (some BuildHost.ann)) BuildHost.server
        = BuildHost.compiler.compile (BuildHost.sources none) BuildHost.server ∧
      (BuildHost.compiler.compile (BuildHost.sources none) BuildHost.server).rules.map
          Wire.Rule.principals
        = [[⟨"10.0.0.2"⟩], [⟨"10.0.0.2"⟩, ⟨"10.0.0.1"⟩]] := by
  have hsame : List.Forall₂ SameButTaggedOwner
      (BuildHost.sources (some BuildHost.ann)) (BuildHost.sources none) :=
    .cons ⟨rfl, fun h => nomatch h⟩ (.cons ⟨rfl, fun _ => rfl⟩ .nil)
  refine ⟨by decide +kernel, hsame, ?_, by decide +kernel⟩
  exact compile_eq_of_sameButTaggedOwners BuildHost.compiler BuildHost.server hsame

end Compiler

/-! ## Tags and checks -/

/-- The rule without the tags among its source tokens, if it has a check. -/
def Rule.dropCheckTags (r : Rule) : Rule :=
  { r with
    src := if r.action = .check then r.src.filter fun t => !Alias.isTagName t else r.src }

namespace Compiler

/-- The compiler of the policy in which no rule with a check lists a tag as a source. -/
def dropCheckTags (c : Compiler) : Compiler :=
  c.update { c.policy with rules := c.policy.rules.map Rule.dropCheckTags }

variable {c : Compiler} {srcs : List OwnedNode} {dst : OwnedNode}

theorem expandSource_dropCheckTags (n : OwnedNode) (token : String) (user : Option User) :
    expandSource c.dropCheckTags.policy n token user = expandSource c.policy n token user := by
  have hg : c.dropCheckTags.policy.groups = c.policy.groups := rfl
  rw [expandSource, expandSource, Alias.matchesSource_eq_of_groups hg]

/-- The tokens that may go into a rule are not among those that are dropped from it. -/
theorem eligible_dropCheckTags (r : Rule) : eligible r.dropCheckTags = eligible r := by
  show ((if r.action = .check then r.src.filter fun t => !Alias.isTagName t else r.src).filter
      fun t => (Alias.classify t).isSourceFor r.action)
    = r.src.filter fun t => (Alias.classify t).isSourceFor r.action
  by_cases h : r.action = .check
  · rw [if_pos h, h]
    simp only [Alias.isSourceFor_check, List.filter_filter, Bool.and_self]
  · rw [if_neg h]

theorem sources_dropCheckTags (r : Rule) (user : Option User) :
    sources c.dropCheckTags.policy r.dropCheckTags srcs user = sources c.policy r srcs user := by
  refine sources_congr (eligible_dropCheckTags r) ?_
  intro t _
  simp only [expandSource_dropCheckTags]

theorem compileRule_dropCheckTags (r : Rule) :
    compileRule c.dropCheckTags r.dropCheckTags srcs dst = compileRule c r srcs dst :=
  compileRule_congr rfl rfl rfl (sources_dropCheckTags r)

/-- The tags among the sources of rules with checks have no effect at all. -/
theorem compile_dropCheckTags : c.dropCheckTags.compile srcs dst = c.compile srcs dst := by
  have hrules : c.dropCheckTags.policy.rules = c.policy.rules.map Rule.dropCheckTags := rfl
  rw [compile, compile, hrules, List.flatMap_map]
  simp only [compileRule_dropCheckTags]

/-! ## Checks without tagged sources -/

/-- No token that may go into a rule with a check brings in an address of a tagged node. -/
theorem expandSource_of_isTagged {p : Policy} {n : OwnedNode} {token : String}
    (user : Option User) (hn : n.isTagged = true)
    (he : (Alias.classify token).isSourceFor .check = true) : expandSource p n token user = [] := by
  rw [expandSource, Alias.matchesSource_eq_false_of_check user hn he]
  rfl

/-- Leaving out the tagged nodes leaves the sources of a rule with a check as they are, order
included. -/
theorem sources_filter_untagged (p : Policy) {r : Rule} (h : r.action = .check)
    (user : Option User) :
    sources p r (srcs.filter fun n => !n.isTagged) user = sources p r srcs user := by
  refine sources_filter ?_
  intro n hn t ht
  have he : (Alias.classify t).isSourceFor .check = true := h ▸ (List.mem_filter.mp ht).2
  rw [Bool.not_eq_false'] at hn
  exact expandSource_of_isTagged user hn he

/-- What of an entry a source learns: whom it lets in, and as whom. -/
def Entry.access (e : Entry) : List Wire.Principal × SortedMap String :=
  (e.rule.principals, e.rule.sshUsers)

/-- Under one scope, a rule with a check gives the same access without tagged sources. -/
theorem access_scopedRule_untagged {r : Rule} (h : r.action = .check) (s : Scope) :
    ((scopedRule c.dropCheckTags (srcs.filter fun n => !n.isTagged) dst r.dropCheckTags s).map
        fun w => (Entry.mk r.dropCheckTags s w).access)
      = (scopedRule c srcs dst r s).map fun w => (Entry.mk r s w).access := by
  have hsrc : ∀ user, sources c.dropCheckTags.policy r.dropCheckTags
      (srcs.filter fun n => !n.isTagged) user = sources c.policy r srcs user := by
    intro user
    rw [sources_dropCheckTags, sources_filter_untagged _ h]
  have hd : r.dropCheckTags.dst = r.dst := rfl
  have hu : r.dropCheckTags.users = r.users := rfl
  cases hs : s.user? dst with
  | none =>
      rw [scopedRule_of_none hs, scopedRule_of_none hs]
      rfl
  | some user =>
      -- the two grants differ in what happens to a session, as tagged sources may still record
      rw [scopedRule_of_some hs, scopedRule_of_some hs, hsrc, hd, hu, grant, grant]
      split
      · split <;> rfl
      · rfl

theorem access_entriesOf_untagged {r : Rule} (h : r.action = .check) :
    (entriesOf c.dropCheckTags (srcs.filter fun n => !n.isTagged) dst r.dropCheckTags).map
        Entry.access
      = (entriesOf c srcs dst r).map Entry.access := by
  have hr : r.action.isSupported = true := by
    rw [h]
    rfl
  have hr' : r.dropCheckTags.action.isSupported = true := hr
  rw [entriesOf_eq hr, entriesOf_eq hr', List.map_append, List.map_append, List.map_map,
    List.map_map, List.map_map, List.map_map]
  exact congr (congrArg _ (access_scopedRule_untagged h .own)) (access_scopedRule_untagged h .any)

/-- Tagged sources have no effect on whom the rules with checks let in, and as whom. -/
theorem access_check_entries_untagged :
    (((c.dropCheckTags.entries (srcs.filter fun n => !n.isTagged) dst).filter
        fun e => e.origin.action = .check).map Entry.access)
      = ((c.entries srcs dst).filter fun e => e.origin.action = .check).map Entry.access := by
  have hrules : c.dropCheckTags.policy.rules = c.policy.rules.map Rule.dropCheckTags := rfl
  rw [filter_origin_entries fun r => r.action = .check,
    filter_origin_entries fun r => r.action = .check, hrules, List.filter_map, List.flatMap_map,
    List.map_flatMap, List.map_flatMap, List.flatMap_def, List.flatMap_def]
  refine congrArg List.flatten (List.map_congr_left ?_)
  intro r hr
  have hcheck : r.action = .check := of_decide_eq_true (List.mem_filter.mp hr).2
  exact access_entriesOf_untagged hcheck

/-- What a rule that holds sessions lets in are addresses of untagged sources. -/
theorem untagged_of_held {w : Wire.Rule} (hw : w ∈ (c.compile srcs dst).rules)
    (hheld : w.action.holdAndDelegate.isSome = true) {q : Wire.Principal}
    (hq : q ∈ w.principals) : ∃ n ∈ srcs, n.node.tags = [] ∧ q.address ∈ n.addresses := by
  rw [← map_rule_entries] at hw
  obtain ⟨e, he, rfl⟩ := List.mem_map.mp hw
  obtain ⟨user, hemit⟩ := emitted_of_mem he
  obtain ⟨n, hn, ha, t, -, hel, hm⟩ := hemit.address_mem hq
  have hcheck : e.origin.action = .check := by
    rw [hemit.action, holdAndDelegate_action] at hheld
    by_cases h : e.origin.action = .check
    · exact h
    · rw [if_neg h] at hheld
      exact nomatch hheld
  rw [hcheck] at hel
  refine ⟨n, hn, OwnedNode.isTagged_eq_false_iff.mp ?_, ha⟩
  cases ht : n.isTagged with
  | false => rfl
  | true =>
      rw [Alias.matchesSource_eq_false_of_check user ht hel] at hm
      exact nomatch hm

/-- **Tagged nodes never enter through a check.** Dropping the tags among the sources of rules with
checks leaves every document as it is. Leaving out the tagged sources as well leaves the rules that
stem from rules with checks in number, principals and logins as they are, where the entries with
their origins are the rules of the two documents, one by one. And what a rule that holds sessions
lets in are addresses of untagged sources. -/
theorem check_excludes_tagged (c : Compiler) (srcs : List OwnedNode) (dst : OwnedNode) :
    c.dropCheckTags.compile srcs dst = c.compile srcs dst ∧
      (c.compile srcs dst).rules = (c.entries srcs dst).map Entry.rule ∧
      (c.dropCheckTags.compile (srcs.filter fun n => !n.isTagged) dst).rules
        = (c.dropCheckTags.entries (srcs.filter fun n => !n.isTagged) dst).map Entry.rule ∧
      ((c.dropCheckTags.entries (srcs.filter fun n => !n.isTagged) dst).filter
          fun e => e.origin.action = .check).map Entry.access
        = ((c.entries srcs dst).filter fun e => e.origin.action = .check).map Entry.access ∧
      ∀ w ∈ (c.compile srcs dst).rules, w.action.holdAndDelegate.isSome = true →
        ∀ q ∈ w.principals, ∃ n ∈ srcs, n.node.tags = [] ∧ q.address ∈ n.addresses := by
  refine ⟨compile_dropCheckTags, map_rule_entries.symm, map_rule_entries.symm,
    access_check_entries_untagged, ?_⟩
  intro w hw hheld q hq
  exact untagged_of_held hw hheld hq

end Compiler

end MeshAccess
