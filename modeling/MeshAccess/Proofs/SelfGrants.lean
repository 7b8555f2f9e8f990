import MeshAccess.Proofs.Entries
import MeshAccess.Proofs.SavedSnapshots

/-!
# Whose nodes a self grant lets in

A rule under the own scope is meant for the nodes of the destination's owner. Owners are told apart
by their logins, as everywhere in policies, and not by their numbers: the users of a snapshot may
share a login, most easily where one without an email address has the address of another as a name.

`selfGrant_stays_with_login` is what holds of every snapshot: a self grant stays with the login of
the destination's owner, and with its number if no other user has that login. It comes from
`LoginMate`, which nodes under the own scope are (`loginMate_of_emitted`) and which suffices to be
let in by some policy (`exists_entry_of_loginMate`). `selfGrant_leaves_user` shows that the number
alone is not kept.
-/

namespace MeshAccess

open Compiler

theorem Directory.owner_own {d : Directory} {n : Node} {u : User} (h : (d.own n).owner = some u) :
    ∃ id, n.userId = some id ∧ d.get? id = some u :=
  Option.bind_eq_some_iff.mp h

namespace Snapshot

variable {s : Snapshot}

/-! ## Sources and owners -/

/-- The possible sources of a destination are the nodes of other numbers, each with the owner that
its recorded number names. -/
theorem mem_sourcesFor {dst : Node} {n : OwnedNode} :
    n ∈ s.sourcesFor dst ↔ ∃ m ∈ s.nodes, m.id ≠ dst.id ∧ s.directory.own m = n := by
  show n ∈ (s.nodes.filter fun m => m.id != dst.id).map s.directory.own ↔ _
  simp only [List.mem_map, List.mem_filter, bne_iff_ne, ne_eq]
  constructor
  · rintro ⟨m, ⟨hm, hid⟩, rfl⟩
    exact ⟨m, hm, hid, rfl⟩
  · rintro ⟨m, hm, hid, rfl⟩
    exact ⟨m, ⟨hm, hid⟩, rfl⟩

/-- The document of a selected node is made of its entries. -/
theorem compileFor_eq (c : Compiler) {selector : String} {dst : Node}
    (h : s.find? selector = some dst) :
    s.compileFor c selector
      = .ok ⟨(c.entries (s.sourcesFor dst) (s.directory.own dst)).map Entry.rule⟩ := by
  rw [compileFor, h, map_rule_entries]

/-! ## Login mates -/

/-- The node is untagged, and its owner has the login of the owner of `dst`. -/
def LoginMate (dst n : OwnedNode) : Prop :=
  n.node.tags = [] ∧
    ∃ u v, n.owner = some u ∧ dst.owner = some v ∧ u.login = v.login ∧ v.login ≠ ""

/-- A principal of an entry under the own scope is an address of a login mate of the destination. -/
theorem loginMate_of_emitted {c : Compiler} {srcs : List OwnedNode} {dst : OwnedNode} {e : Entry}
    {user : Option User} (h : Emitted c srcs dst e user) (hs : e.scope = .own)
    {q : Wire.Principal} (hq : q ∈ e.rule.principals) :
    ∃ n ∈ srcs, q.address ∈ n.addresses ∧ LoginMate dst n := by
  have hscope := h.scope
  rw [hs] at hscope
  obtain ⟨v, hv, rfl⟩ := Option.map_eq_some_iff.mp hscope
  obtain ⟨n, hn, ha, t, -, -, hm⟩ := h.address_mem hq
  obtain ⟨ht, hne, ⟨u, hu, hl⟩, -⟩ := Alias.matchesSource_own_iff.mp hm
  exact ⟨n, hn, ha, ht, u, v, hu, hv, hl, hne⟩

/-- Every member may log in on the own nodes of the same user. -/
def memberToSelf : Compiler where
  policy :=
    ⟨.empty, [⟨.accept, none, ["autogroup:member"], ["autogroup:self"], ["root"], [], false⟩]⟩
  settings := .standard

/-- Conversely, some policy lets in every login mate under the own scope. -/
theorem exists_entry_of_loginMate {srcs : List OwnedNode} {dst n : OwnedNode} {a : String}
    (hn : n ∈ srcs) (hmate : LoginMate dst n) (ha : a ∈ n.addresses) :
    ∃ e ∈ memberToSelf.entries srcs dst, e.scope = .own ∧ ⟨a⟩ ∈ e.rule.principals := by
  obtain ⟨ht, u, v, hu, hv, hl, hne⟩ := hmate
  have hown : Scope.own.user? dst = some (some v) := congrArg (Option.map some) hv
  have hreached : (Destination.evaluate dst ["autogroup:self"]).owner = true := by
    show (dst.owner.isSome || false) = true
    rw [hv]
    rfl
  have hmatch : (Alias.classify "autogroup:member").matchesSource memberToSelf.policy n (some v)
      = true :=
    Alias.matchesSource_own_iff.mpr ⟨ht, hne, ⟨u, hu, hl⟩, .members (Or.inl rfl)⟩
  refine exists_entry List.mem_cons_self rfl hown hreached (List.cons_ne_nil _ _) ?_
  exact mem_sources.mpr ⟨n, hn, ha, _, List.mem_cons_self, by decide, hmatch⟩

/-! ## Self grants -/

/-- The principal is an address of an untagged node recorded for the same number as `dst`. -/
def SharesUser (s : Snapshot) (dst : Node) (q : Wire.Principal) : Prop :=
  ∃ n ∈ s.nodes, q.address ∈ n.addresses ∧ n.tags = [] ∧ n.userId = dst.userId

instance (s : Snapshot) (dst : Node) (q : Wire.Principal) : Decidable (SharesUser s dst q) :=
  inferInstanceAs (Decidable (∃ n ∈ s.nodes, _))

/-- The principal is an address of another, untagged node that is recorded for a user with the login
of the user recorded for `dst`, and for the very same number if no other number has that login. -/
def SharesLogin (s : Snapshot) (dst : Node) (q : Wire.Principal) : Prop :=
  ∃ n ∈ s.nodes, q.address ∈ n.addresses ∧ n.tags = [] ∧ n.id ≠ dst.id ∧
    ∃ i j u v, n.userId = some i ∧ s.directory.get? i = some u ∧
      dst.userId = some j ∧ s.directory.get? j = some v ∧ u.login = v.login ∧ v.login ≠ "" ∧
      ((∀ k x, s.directory.get? k = some x → x.login = v.login → k = j) → n.userId = dst.userId)

/-- What the entries under the own scope let in shares the login. -/
theorem sharesLogin_of_mem_entries {c : Compiler} {dst : Node} {e : Entry}
    (he : e ∈ c.entries (s.sourcesFor dst) (s.directory.own dst)) (hs : e.scope = .own)
    {q : Wire.Principal} (hq : q ∈ e.rule.principals) : s.SharesLogin dst q := by
  obtain ⟨user, hemit⟩ := emitted_of_mem he
  obtain ⟨n, hn, ha, ht, u, v, hu, hv, hl, hne⟩ := loginMate_of_emitted hemit hs hq
  obtain ⟨m, hm, hid, rfl⟩ := mem_sourcesFor.mp hn
  obtain ⟨i, hi, hgi⟩ := Directory.owner_own hu
  obtain ⟨j, hj, hgj⟩ := Directory.owner_own hv
  refine ⟨m, hm, ha, ht, hid, i, j, u, v, hi, hgi, hj, hgj, hl, hne, ?_⟩
  -- the owner found for `m` has the login too, so it is the destination's owner
  intro hunique
  rw [hi, hj, hunique i u hgi hl]

/-- What the entries under the own scope let in shares the user under every policy exactly when the
login mates of the destination have no other addresses than those of its user. -/
theorem sharesUser_iff {dst : Node} :
    (∀ c : Compiler, ∀ e ∈ c.entries (s.sourcesFor dst) (s.directory.own dst), e.scope = .own →
        ∀ q ∈ e.rule.principals, s.SharesUser dst q) ↔
      ∀ n ∈ s.sourcesFor dst, LoginMate (s.directory.own dst) n →
        ∀ a ∈ n.addresses, s.SharesUser dst ⟨a⟩ := by
  constructor
  · intro h n hn hmate a ha
    obtain ⟨e, he, hs, hq⟩ := exists_entry_of_loginMate hn hmate ha
    exact h memberToSelf e he hs _ hq
  · intro h c e he hs q hq
    obtain ⟨user, hemit⟩ := emitted_of_mem he
    obtain ⟨n, hn, ha, hmate⟩ := loginMate_of_emitted hemit hs hq
    exact h n hn hmate q.address ha

/-- **A self grant stays with one login.** The document of a selected node is made of its entries,
and what those under the own scope let in are addresses of other, untagged nodes that are recorded
for a user with the same login as the user recorded for the destination. They are those of the very
same user under every policy exactly when no other addresses have that login. -/
theorem selfGrant_stays_with_login (s : Snapshot) {selector : String} {dst : Node}
    (h : s.find? selector = some dst) :
    (∀ c : Compiler,
      s.compileFor c selector
          = .ok ⟨(c.entries (s.sourcesFor dst) (s.directory.own dst)).map Entry.rule⟩ ∧
        ∀ e ∈ c.entries (s.sourcesFor dst) (s.directory.own dst), e.scope = .own →
          ∀ q ∈ e.rule.principals, s.SharesLogin dst q) ∧
      ((∀ c : Compiler, ∀ e ∈ c.entries (s.sourcesFor dst) (s.directory.own dst),
          e.scope = .own → ∀ q ∈ e.rule.principals, s.SharesUser dst q) ↔
        ∀ n ∈ s.sourcesFor dst, LoginMate (s.directory.own dst) n →
          ∀ a ∈ n.addresses, s.SharesUser dst ⟨a⟩) := by
  refine ⟨?_, sharesUser_iff⟩
  intro c
  refine ⟨compileFor_eq c h, ?_⟩
  intro e he hs q hq
  exact sharesLogin_of_mem_entries he hs hq

/-! ## Two users with one login -/

namespace SharedLogin

/-- A user with an email address, and one without whose name is that address. -/
def text : String :=
  "\x7b\"users\":[\x7b\"id\":1,\"name\":\"ann\",\"email\":\"ann@example.com\"\x7d,
  \x7b\"id\":2,\"name\":\"ann@example.com\"\x7d],
  \"nodes\":[\x7b\"id\":1,\"hostname\":\"desk\",\"ipv4\":\"10.0.0.1\",\"user_id\":1\x7d,
  \x7b\"id\":2,\"hostname\":\"other\",\"ipv4\":\"10.0.0.2\",\"user_id\":2\x7d]\x7d"

/-- The node of the user with the email address. -/
def desk : Node := ⟨⟨1⟩, "desk", some ⟨10, 0, 0, 1⟩, none, some ⟨1⟩, []⟩

/-- The snapshot that the text holds. -/
def snapshot : Snapshot where
  users := [⟨⟨1⟩, "ann", some ⟨"ann@example.com", by decide +kernel⟩⟩,
    ⟨⟨2⟩, "ann@example.com", none⟩]
  nodes := [desk, ⟨⟨2⟩, "other", some ⟨10, 0, 0, 2⟩, none, some ⟨2⟩, []⟩]

/-- The entries of the desk's document. -/
def entries : List Entry :=
  memberToSelf.entries (snapshot.sourcesFor desk) (snapshot.directory.own desk)

set_option maxRecDepth 2000 in
theorem load_text : Snapshot.load text = .ok snapshot :=
  load_eq_ok (Json.Document.ofText_eq_build rfl) (by decide +kernel) (by decide +kernel)
    (by decide +kernel)

end SharedLogin

/-- The desk lets in the other node, whose owner goes by the same login. -/
theorem selfGrant_of_sharedLogin :
    SharedLogin.snapshot.find? "desk" = some SharedLogin.desk ∧
      SharedLogin.entries.map (fun e => (e.scope, e.rule.principals))
        = [(.own, [⟨"10.0.0.2"⟩])] ∧
      SharedLogin.snapshot.compileFor memberToSelf "desk"
        = .ok ⟨SharedLogin.entries.map Entry.rule⟩ ∧
      ∀ e ∈ SharedLogin.entries, e.scope = .own →
        ∀ q ∈ e.rule.principals, SharedLogin.snapshot.SharesLogin SharedLogin.desk q := by
  have hfind : SharedLogin.snapshot.find? "desk" = some SharedLogin.desk := by decide +kernel
  refine ⟨hfind, by decide +kernel, ?_⟩
  exact (selfGrant_stays_with_login SharedLogin.snapshot hfind).1 memberToSelf

/-- **A self grant may leave the user.** In a snapshot that is accepted, the node of one user is let
in on the node of another by a rule under the own scope. -/
theorem selfGrant_leaves_user :
    ¬∀ (text : String) (s : Snapshot), Snapshot.load text = .ok s →
      ∀ (c : Compiler) (selector : String) (dst : Node), s.find? selector = some dst →
        ∀ e ∈ c.entries (s.sourcesFor dst) (s.directory.own dst), e.scope = .own →
          ∀ q ∈ e.rule.principals, s.SharesUser dst q := by
  intro h
  have hdesk := h SharedLogin.text SharedLogin.snapshot SharedLogin.load_text memberToSelf
    "desk" SharedLogin.desk (by decide +kernel)
  exact absurd hdesk (by decide +kernel)

end Snapshot

end MeshAccess
