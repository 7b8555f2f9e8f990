import MeshAccess.Compiler
import MeshAccess.Proofs.Matching

/-!
# Where the rules of a document come from

A compiled document is a plain list of rules; it does not say which rule of the policy each of them
stems from, nor whether its principals are the own nodes of the destination's owner or nodes of all
users. `entries` lists the same rules in the same order together with both (`map_rule_entries`), so
that statements about the rules of one kind can be made of a whole document.

`Emitted` says once all that is true of an entry, and `emitted_of_mem` that it is true of every one:
it is drawn up from the sources of its origin under its scope, which `mem_sources` describes address
by address.
-/

namespace MeshAccess

/-- Items from which nothing is collected may be left out. -/
theorem flatMap_filter_of_eq_nil {α β : Type} {keep : α → Bool} {f : α → List β} {l : List α}
    (h : ∀ a, keep a = false → f a = []) : (l.filter keep).flatMap f = l.flatMap f := by
  induction l with
  | nil => rfl
  | cons a l ih =>
      rw [List.filter_cons, List.flatMap_cons, ← ih]
      cases ha : keep a with
      | true => rfl
      | false =>
          rw [h a ha]
          rfl

theorem StringSet.mem_ofList {batch : List String} {t : String} :
    t ∈ (StringSet.ofList batch).toList ↔ t ∈ batch := by
  refine StringSet.mem_add.trans ?_
  show t ∈ batch ∨ t ∈ [] ↔ t ∈ batch
  simp only [List.not_mem_nil, or_false]

/-! ## Granted logins -/

theorem SortedMap.isEmpty_insert {α : Type} (m : SortedMap α) (k : String) (v : α) :
    (m.insert k v).isEmpty = false := by
  show (insertEntry k v m.entries).isEmpty = false
  cases m.entries with
  | nil => rfl
  | cons e es =>
      obtain ⟨l, w⟩ := e
      rw [insertEntry]
      repeat' split
      all_goals rfl

theorem Logins.isEmpty_listed_cons (token : String) (tokens : List String) :
    (listed (token :: tokens)).isEmpty = false := by
  -- the first insertion makes the map non-empty, and none of the later ones empties it
  have hkeep : ∀ (ts : List String) (m : SortedMap String), m.isEmpty = false →
      (ts.foldl (fun m t => m.insert (entry t).1 (entry t).2) m).isEmpty = false := by
    intro ts
    induction ts with
    | nil => intro m hm; exact hm
    | cons t ts ih =>
        intro m _
        exact ih _ (SortedMap.isEmpty_insert m _ _)
  exact hkeep tokens _ (SortedMap.isEmpty_insert _ _ _)

/-- A list of user tokens grants no login exactly when it is empty. -/
theorem Logins.isEmpty_ofTokens {tokens : List String} :
    (ofTokens tokens).isEmpty = true ↔ tokens = [] := by
  constructor
  · intro h
    cases tokens with
    | nil => rfl
    | cons token tokens =>
        exfalso
        rw [ofTokens] at h
        split at h
        · rw [SortedMap.isEmpty_insert] at h
          exact nomatch h
        · rw [isEmpty_listed_cons] at h
          exact nomatch h
  · rintro rfl
    rfl

namespace Compiler

/-! ## Source addresses -/

theorem mem_expandSource {p : Policy} {n : OwnedNode} {token a : String} {user : Option User} :
    a ∈ expandSource p n token user ↔
      (Alias.classify token).matchesSource p n user = true ∧ a ∈ n.addresses := by
  rw [expandSource]
  by_cases h : (Alias.classify token).matchesSource p n user = true
  · rw [if_pos h]
    exact ⟨fun ha => ⟨h, ha⟩, fun ha => ha.2⟩
  · rw [if_neg h]
    exact ⟨fun ha => absurd ha List.not_mem_nil, fun ha => absurd ha.1 h⟩

/-- The tokens of a rule that may bring in sources. -/
def eligible (r : Rule) : List String :=
  r.src.filter fun t => (Alias.classify t).isSourceFor r.action

/-- Collecting token by token and node by node is putting in the addresses as one batch. -/
theorem sources_eq_ofList (p : Policy) (r : Rule) (srcs : List OwnedNode) (user : Option User) :
    sources p r srcs user
      = (StringSet.ofList
          ((eligible r).flatMap fun t => srcs.flatMap fun n => expandSource p n t user)).toList := by
  have hcollect : collect p srcs user
      = fun set t => set.add (srcs.flatMap fun n => expandSource p n t user) := by
    funext set t
    exact set.foldl_add _ srcs
  rw [sources, ← List.foldl_filter, hcollect, StringSet.foldl_add]
  rfl

/-- The source addresses of a rule are those of the nodes that some eligible token matches. -/
theorem mem_sources {p : Policy} {r : Rule} {srcs : List OwnedNode} {user : Option User}
    {a : String} :
    a ∈ sources p r srcs user ↔
      ∃ n ∈ srcs, a ∈ n.addresses ∧ ∃ t ∈ r.src,
        (Alias.classify t).isSourceFor r.action = true ∧
          (Alias.classify t).matchesSource p n user = true := by
  rw [sources_eq_ofList, StringSet.mem_ofList]
  simp only [eligible, List.mem_flatMap, List.mem_filter, mem_expandSource]
  constructor
  · rintro ⟨t, ⟨ht, he⟩, n, hn, hm, ha⟩
    exact ⟨n, hn, ha, t, ht, he, hm⟩
  · rintro ⟨n, hn, ha, t, ht, he, hm⟩
    exact ⟨t, ⟨ht, he⟩, n, hn, hm, ha⟩

theorem nodup_sources (p : Policy) (r : Rule) (srcs : List OwnedNode) (user : Option User) :
    (sources p r srcs user).Nodup :=
  StringSet.nodup _

/-- The source addresses are the same, order included, where the same tokens are eligible and each
of them brings in the same addresses. -/
theorem sources_congr {p q : Policy} {r r' : Rule} {srcs srcs' : List OwnedNode}
    {user user' : Option User} (ht : eligible r = eligible r')
    (he : ∀ t ∈ eligible r, (srcs.flatMap fun n => expandSource p n t user)
      = srcs'.flatMap fun n => expandSource q n t user') :
    sources p r srcs user = sources q r' srcs' user' := by
  have hflat : ((eligible r).flatMap fun t => srcs.flatMap fun n => expandSource p n t user)
      = (eligible r').flatMap fun t => srcs'.flatMap fun n => expandSource q n t user' := by
    rw [← ht, List.flatMap_def, List.flatMap_def, List.map_congr_left he]
  rw [sources_eq_ofList, sources_eq_ofList, hflat]

/-- Nodes that no eligible token brings in may be left out of the sources. -/
theorem sources_filter {p : Policy} {r : Rule} {srcs : List OwnedNode} {user : Option User}
    {keep : OwnedNode → Bool}
    (h : ∀ n, keep n = false → ∀ t ∈ eligible r, expandSource p n t user = []) :
    sources p r (srcs.filter keep) user = sources p r srcs user := by
  refine sources_congr rfl ?_
  intro t ht
  exact flatMap_filter_of_eq_nil fun n hn => h n hn t ht

/-! ## Rules with their origin -/

/-- Whose nodes the principals of a compiled rule may be. -/
inductive Scope where
  /-- The own nodes of the destination's owner. -/
  | own
  /-- The nodes of all users. -/
  | any
  deriving DecidableEq

/-- A rule of a document with the rule of the policy that it stems from. -/
structure Entry where
  origin : Rule
  scope : Scope
  rule : Wire.Rule

/-- The entries that a rule of the policy yields. -/
def entriesOf (c : Compiler) (srcs : List OwnedNode) (dst : OwnedNode) (r : Rule) : List Entry :=
  if r.action.isSupported then
    (ownerRule c r srcs dst).map (Entry.mk r .own) ++ (tagRule c r srcs dst).map (Entry.mk r .any)
  else []

/-- The entries of the document of the destination `dst`. -/
def entries (c : Compiler) (srcs : List OwnedNode) (dst : OwnedNode) : List Entry :=
  c.policy.rules.flatMap (entriesOf c srcs dst)

variable {c : Compiler} {srcs : List OwnedNode} {dst : OwnedNode}

theorem map_rule_entriesOf (r : Rule) :
    (entriesOf c srcs dst r).map Entry.rule = compileRule c r srcs dst := by
  rw [entriesOf, compileRule]
  by_cases h : r.action.isSupported = true
  · rw [if_pos h, if_pos h, List.map_append, List.map_map, List.map_map]
    show List.map id _ ++ List.map id _ = _
    rw [List.map_id, List.map_id]
  · rw [if_neg h, if_neg h]
    rfl

/-- The entries are the rules of the document, in the same order. -/
theorem map_rule_entries :
    (c.entries srcs dst).map Entry.rule = (c.compile srcs dst).rules := by
  show (c.policy.rules.flatMap (entriesOf c srcs dst)).map Entry.rule
    = c.policy.rules.flatMap fun r => compileRule c r srcs dst
  rw [List.map_flatMap]
  simp only [map_rule_entriesOf]

theorem origin_of_mem_entriesOf {r : Rule} {e : Entry} (h : e ∈ entriesOf c srcs dst r) :
    e.origin = r := by
  rw [entriesOf] at h
  split at h
  · rcases List.mem_append.mp h with h | h
    · obtain ⟨w, -, rfl⟩ := List.mem_map.mp h
      rfl
    · obtain ⟨w, -, rfl⟩ := List.mem_map.mp h
      rfl
  · exact absurd h List.not_mem_nil

/-- The entries that stem from certain rules are those that these rules yield. -/
theorem filter_origin_entries (keep : Rule → Bool) :
    ((c.entries srcs dst).filter fun e => keep e.origin)
      = (c.policy.rules.filter keep).flatMap (entriesOf c srcs dst) := by
  rw [entries]
  induction c.policy.rules with
  | nil => rfl
  | cons r rs ih =>
      rw [List.flatMap_cons, List.filter_append, ih, List.filter_cons]
      -- the entries of one rule are all kept or all left out
      by_cases hk : keep r = true
      · rw [if_pos hk, List.flatMap_cons, List.filter_eq_self.mpr]
        intro e he
        rw [origin_of_mem_entriesOf he, hk]
      · rw [if_neg hk, List.filter_eq_nil_iff.mpr, List.nil_append]
        intro e he
        rw [origin_of_mem_entriesOf he]
        exact hk

/-! ## What an entry is made of -/

/-- The user whose nodes alone may be sources under a scope, if it is restricted to one; no scope of
this kind where the destination has no owner. -/
def Scope.user? (dst : OwnedNode) : Scope → Option (Option User)
  | .own => dst.owner.map some
  | .any => some none

/-- Whether the destination is reached in the way that a scope is for. -/
def Scope.isReached (d : Destination) : Scope → Bool
  | .own => d.owner
  | .any => d.tagged

/-- The rules that a rule of the policy yields under one scope. -/
def scopedRule (c : Compiler) (srcs : List OwnedNode) (dst : OwnedNode) (r : Rule) (s : Scope) :
    List Wire.Rule :=
  match s.user? dst with
  | some user =>
    if s.isReached (Destination.evaluate dst r.dst) ∧ r.users ≠ [] then
      grant (sources c.policy r srcs user) (Logins.ofTokens r.users) (action c.settings r srcs dst)
    else []
  | none => []

theorem scopedRule_of_none {r : Rule} {s : Scope} (hs : s.user? dst = none) :
    scopedRule c srcs dst r s = [] := by
  rw [scopedRule, hs]

theorem scopedRule_of_some {r : Rule} {s : Scope} {user : Option User}
    (hs : s.user? dst = some user) :
    scopedRule c srcs dst r s =
      if s.isReached (Destination.evaluate dst r.dst) ∧ r.users ≠ [] then
        grant (sources c.policy r srcs user) (Logins.ofTokens r.users)
          (action c.settings r srcs dst)
      else [] := by
  rw [scopedRule, hs]

/-- The logins that a rule grants, by what it lists and by how the destination is reached. -/
theorem logins_eq (r : Rule) :
    logins r dst =
      (if (Destination.evaluate dst r.dst).owner ∧ r.users ≠ [] then
          some (Logins.ofTokens r.users) else none,
        if (Destination.evaluate dst r.dst).tagged ∧ r.users ≠ [] then
          some (Logins.ofTokens r.users) else none) := by
  rw [logins]
  by_cases hu : r.users = []
  · simp only [hu, Logins.isEmpty_ofTokens.mpr rfl, ne_eq, not_true_eq_false, and_false, if_true,
      if_false]
  · have he : (Logins.ofTokens r.users).isEmpty = false :=
      Bool.eq_false_iff.mpr fun h => hu (Logins.isEmpty_ofTokens.mp h)
    simp only [he, hu, ne_eq, not_false_eq_true, and_true, Bool.false_eq_true, if_false]

theorem ownerRule_eq_scopedRule (r : Rule) :
    ownerRule c r srcs dst = scopedRule c srcs dst r .own := by
  have hl : (logins r dst).1
      = if (Destination.evaluate dst r.dst).owner ∧ r.users ≠ [] then
          some (Logins.ofTokens r.users) else none := congrArg Prod.fst (logins_eq r)
  cases ho : dst.owner with
  | none =>
      have hs : Scope.own.user? dst = none := congrArg (Option.map some) ho
      rw [scopedRule_of_none hs, ownerRule, ho]
      cases (logins r dst).1 <;> rfl
  | some u =>
      have hs : Scope.own.user? dst = some (some u) := congrArg (Option.map some) ho
      rw [scopedRule_of_some hs, ownerRule, ho, hl]
      by_cases h : (Destination.evaluate dst r.dst).owner = true ∧ r.users ≠ []
      · rw [if_pos h]
        exact (if_pos h).symm
      · rw [if_neg h]
        exact (if_neg h).symm

theorem tagRule_eq_scopedRule (r : Rule) :
    tagRule c r srcs dst = scopedRule c srcs dst r .any := by
  have hl : (logins r dst).2
      = if (Destination.evaluate dst r.dst).tagged ∧ r.users ≠ [] then
          some (Logins.ofTokens r.users) else none := congrArg Prod.snd (logins_eq r)
  rw [scopedRule_of_some rfl, tagRule, hl]
  by_cases h : (Destination.evaluate dst r.dst).tagged = true ∧ r.users ≠ []
  · rw [if_pos h]
    exact (if_pos h).symm
  · rw [if_neg h]
    exact (if_neg h).symm

/-- A rule of the policy yields its rule under the own scope before the one under the other. -/
theorem compileRule_eq {r : Rule} (h : r.action.isSupported = true) :
    compileRule c r srcs dst = scopedRule c srcs dst r .own ++ scopedRule c srcs dst r .any := by
  rw [compileRule, if_pos h, ownerRule_eq_scopedRule, tagRule_eq_scopedRule]

theorem entriesOf_eq {r : Rule} (h : r.action.isSupported = true) :
    entriesOf c srcs dst r =
      (scopedRule c srcs dst r .own).map (Entry.mk r .own)
        ++ (scopedRule c srcs dst r .any).map (Entry.mk r .any) := by
  rw [entriesOf, if_pos h, ownerRule_eq_scopedRule, tagRule_eq_scopedRule]

/-- What a rule yields depends on nothing but whether its action is known, its logins, what happens
to its sessions, and its source addresses. -/
theorem compileRule_congr {c' : Compiler} {srcs' : List OwnedNode} {r r' : Rule}
    (hr : r.action.isSupported = r'.action.isSupported) (hl : logins r dst = logins r' dst)
    (ha : action c.settings r srcs dst = action c'.settings r' srcs' dst)
    (hs : ∀ user, sources c.policy r srcs user = sources c'.policy r' srcs' user) :
    compileRule c r srcs dst = compileRule c' r' srcs' dst := by
  have howner : ownerRule c r srcs dst = ownerRule c' r' srcs' dst := by
    rw [ownerRule, ownerRule, hl, ha]
    simp only [hs]
  have htag : tagRule c r srcs dst = tagRule c' r' srcs' dst := by
    rw [tagRule, tagRule, hl, ha, hs]
  rw [compileRule, compileRule, hr, howner, htag]

theorem mem_grant {addresses : List String} {logins : SortedMap String} {action : Wire.Action}
    {w : Wire.Rule} :
    w ∈ grant addresses logins action ↔
      addresses ≠ [] ∧ w = ⟨addresses.map Wire.Principal.mk, logins, action⟩ := by
  rw [grant]
  by_cases h : addresses = []
  · rw [if_pos h]
    exact ⟨fun hw => absurd hw List.not_mem_nil, fun hw => absurd h hw.1⟩
  · rw [if_neg h, List.mem_singleton]
    exact ⟨fun hw => ⟨h, hw⟩, fun hw => hw.2⟩

/-- All that is true of an entry of a document: where it stems from, why it is there, and that its
rule is drawn up from the sources of its origin under its scope. -/
structure Emitted (c : Compiler) (srcs : List OwnedNode) (dst : OwnedNode) (e : Entry)
    (user : Option User) : Prop where
  origin : e.origin ∈ c.policy.rules
  supported : e.origin.action.isSupported = true
  scope : e.scope.user? dst = some user
  reached : e.scope.isReached (Destination.evaluate dst e.origin.dst) = true
  users : e.origin.users ≠ []
  addresses : sources c.policy e.origin srcs user ≠ []
  principals : e.rule.principals = (sources c.policy e.origin srcs user).map Wire.Principal.mk
  sshUsers : e.rule.sshUsers = Logins.ofTokens e.origin.users
  action : e.rule.action = Compiler.action c.settings e.origin srcs dst

theorem mem_scopedRule {r : Rule} {s : Scope} {w : Wire.Rule}
    (h : w ∈ scopedRule c srcs dst r s) (hr : r ∈ c.policy.rules)
    (ha : r.action.isSupported = true) : ∃ user, Emitted c srcs dst ⟨r, s, w⟩ user := by
  cases hu : s.user? dst with
  | none =>
      rw [scopedRule_of_none hu] at h
      exact absurd h List.not_mem_nil
  | some user =>
      rw [scopedRule_of_some hu] at h
      by_cases hd : s.isReached (Destination.evaluate dst r.dst) = true ∧ r.users ≠ []
      · rw [if_pos hd] at h
        obtain ⟨hne, rfl⟩ := mem_grant.mp h
        exact ⟨user, hr, ha, hu, hd.1, hd.2, hne, rfl, rfl, rfl⟩
      · rw [if_neg hd] at h
        exact absurd h List.not_mem_nil

/-- Every entry of a document is drawn up in this way. -/
theorem emitted_of_mem {e : Entry} (h : e ∈ c.entries srcs dst) :
    ∃ user, Emitted c srcs dst e user := by
  obtain ⟨r, hr, he⟩ := List.mem_flatMap.mp h
  by_cases ha : r.action.isSupported = true
  · rw [entriesOf_eq ha] at he
    rcases List.mem_append.mp he with he | he
    · obtain ⟨w, hw, rfl⟩ := List.mem_map.mp he
      exact mem_scopedRule hw hr ha
    · obtain ⟨w, hw, rfl⟩ := List.mem_map.mp he
      exact mem_scopedRule hw hr ha
  · rw [entriesOf, if_neg ha] at he
    exact absurd he List.not_mem_nil

theorem mem_entries {r : Rule} {s : Scope} {w : Wire.Rule} (hr : r ∈ c.policy.rules)
    (ha : r.action.isSupported = true) (hw : w ∈ scopedRule c srcs dst r s) :
    ⟨r, s, w⟩ ∈ c.entries srcs dst := by
  refine List.mem_flatMap.mpr ⟨r, hr, ?_⟩
  rw [entriesOf_eq ha]
  cases s with
  | own => exact List.mem_append.mpr (Or.inl (List.mem_map_of_mem hw))
  | any => exact List.mem_append.mpr (Or.inr (List.mem_map_of_mem hw))

/-- Conversely, a source of a rule that is due under a scope is a principal of an entry. -/
theorem exists_entry {r : Rule} {s : Scope} {user : Option User} {a : String}
    (hr : r ∈ c.policy.rules) (ha : r.action.isSupported = true)
    (hs : s.user? dst = some user)
    (hd : s.isReached (Destination.evaluate dst r.dst) = true) (hu : r.users ≠ [])
    (hmem : a ∈ sources c.policy r srcs user) :
    ∃ e ∈ c.entries srcs dst, e.scope = s ∧ ⟨a⟩ ∈ e.rule.principals := by
  have hw : ⟨(sources c.policy r srcs user).map Wire.Principal.mk, Logins.ofTokens r.users,
      action c.settings r srcs dst⟩ ∈ scopedRule c srcs dst r s := by
    rw [scopedRule_of_some hs, if_pos ⟨hd, hu⟩]
    exact mem_grant.mpr ⟨List.ne_nil_of_mem hmem, rfl⟩
  exact ⟨_, mem_entries hr ha hw, rfl, List.mem_map_of_mem hmem⟩

/-- A principal of an entry is an address of a node that an eligible token of its origin matches. -/
theorem Emitted.address_mem {e : Entry} {user : Option User} (h : Emitted c srcs dst e user)
    {q : Wire.Principal} (hq : q ∈ e.rule.principals) :
    ∃ n ∈ srcs, q.address ∈ n.addresses ∧ ∃ t ∈ e.origin.src,
      (Alias.classify t).isSourceFor e.origin.action = true ∧
        (Alias.classify t).matchesSource c.policy n user = true := by
  rw [h.principals] at hq
  obtain ⟨a, ha, rfl⟩ := List.mem_map.mp hq
  exact mem_sources.mp ha

/-- Sessions are held under the rules with a check, and only under them. -/
theorem holdAndDelegate_action (s : Settings) (r : Rule) :
    (action s r srcs dst).holdAndDelegate
      = if r.action = .check then some (s.checkUrl r.period) else none := by
  have hbase : (action s r srcs dst).holdAndDelegate = (baseAction s r).holdAndDelegate := by
    rw [action]
    split <;> rfl
  rw [hbase, baseAction]
  cases r.action <;> rfl

end Compiler

end MeshAccess
