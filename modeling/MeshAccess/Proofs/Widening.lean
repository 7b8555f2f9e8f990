import Mathlib.Data.List.NodupEquivFin
import MeshAccess.Proofs.FirstOccurrences
import MeshAccess.Proofs.GroupMembers

/-!
# Adding never takes access away

A policy is widened by new groups, more members, and more source and destination tokens in its
rules (`Policy.Widens`). `compile_widens` says that under a widened policy and with more sources
every rule of a document is still there, in the same order among themselves, with the same logins
and the same treatment of sessions, and lets in at least the addresses that it let in before.

The proof goes up along the compiler. Each condition of a grant is monotone on its own: what a token
matches (`Alias.matchesSource_mono`), what the source addresses are (`sources_mono`), how a
destination is reached (`Scope.isReached_mono`), and which recorders there are (`mem_resolve`). A
grant that was dropped for want of sources may come up among the others, so documents are compared
by `List.SublistForall₂` and not position by position.
-/

namespace MeshAccess

/-! ## Lists that are embedded in order -/

section Embedding

open List (Forall₂ SublistForall₂)

variable {α β : Type} {R : α → β → Prop} {as as' : List α} {bs bs' : List β}

theorem sublistForall₂_append (h : SublistForall₂ R as bs) (h' : SublistForall₂ R as' bs') :
    SublistForall₂ R (as ++ as') (bs ++ bs') := by
  obtain ⟨cs, hcs, hsub⟩ := List.sublistForall₂_iff.mp h
  obtain ⟨cs', hcs', hsub'⟩ := List.sublistForall₂_iff.mp h'
  exact List.sublistForall₂_iff.mpr ⟨cs ++ cs', List.rel_append hcs hcs', hsub.append hsub'⟩

/-- Such an embedding maps positions to positions, in order. -/
theorem exists_orderEmbedding (h : SublistForall₂ R as bs) :
    ∃ f : Fin as.length ↪o Fin bs.length, ∀ i, R (as.get i) (bs.get (f i)) := by
  obtain ⟨cs, hcs, hsub⟩ := List.sublistForall₂_iff.mp h
  obtain ⟨hlen, hget⟩ := List.forall₂_iff_get.mp hcs
  obtain ⟨f, hf⟩ := List.sublist_iff_exists_fin_orderEmbedding_get_eq.mp hsub
  refine ⟨(Fin.castOrderIso hlen).toOrderEmbedding.trans f, ?_⟩
  intro i
  have hi : R (as.get i) (cs.get (Fin.cast hlen i)) := hget i i.isLt (hlen ▸ i.isLt)
  rw [hf] at hi
  exact hi

end Embedding

/-! ## Widened policies -/

/-- The rule lists other source and destination tokens, in the given relations to those of `r`, and
is the same otherwise. -/
inductive Rule.Revised (onSrc onDst : List String → List String → Prop) (r : Rule) :
    Rule → Prop where
  | tokens {src dst : List String} (hs : onSrc r.src src) (hd : onDst r.dst dst) :
      Revised onSrc onDst r { r with src := src, dst := dst }

theorem Rule.Revised.action_eq {onSrc onDst : List String → List String → Prop} {r r' : Rule}
    (h : r.Revised onSrc onDst r') : r'.action = r.action := by
  cases h
  rfl

/-- The policy has at least the groups, members and tokens of `p`, in the same rules. -/
structure Policy.Widens (p p' : Policy) : Prop where
  groups : ∀ name, p.members name ⊆ p'.members name
  rules : List.Forall₂ (Rule.Revised (· ⊆ ·) (· ⊆ ·)) p.rules p'.rules

theorem Policy.isMember_mono {p q : Policy} {group login : String}
    (hg : p.members group ⊆ q.members group) (h : p.isMember group login = true) :
    q.isMember group login = true := by
  obtain ⟨hne, hmem⟩ := isMember_iff_mem_members.mp h
  exact isMember_iff_mem_members.mpr ⟨hne, hg hmem⟩

/-- With more members in its groups, a policy takes no node out of what a token matches. -/
theorem Alias.matchesSource_mono {p q : Policy} (hg : ∀ name, p.members name ⊆ q.members name)
    {a : Alias} {n : OwnedNode} {user : Option User} (h : a.matchesSource p n user = true) :
    a.matchesSource q n user = true := by
  have hany : a.matchesSource p n none = true → a.matchesSource q n none = true := by
    intro h
    cases a with
    | group name =>
        obtain ⟨ht, hm⟩ := Bool.and_eq_true_iff.mp h
        obtain ⟨u, ho, hmember⟩ := (Option.any_eq_true _ _).mp hm
        refine Bool.and_eq_true_iff.mpr ⟨ht, (Option.any_eq_true _ _).mpr ⟨u, ho, ?_⟩⟩
        exact Policy.isMember_mono (hg name) hmember
    | user _ | tag _ | member | self | nonroot | unknown _ => exact h
  cases user with
  | none => exact hany h
  | some u =>
      rw [matchesSource_own_eq, Bool.and_eq_true] at h ⊢
      exact ⟨h.1, hany h.2⟩

/-! ## Recorders -/

/-- The recorders are the endpoints of the sources and the destination under the tags. -/
theorem Recorder.mem_resolve {tags : List String} {srcs : List OwnedNode} {dst : OwnedNode}
    {port : UInt16} {e : Endpoint} :
    e ∈ resolve tags srcs dst port ↔
      ∃ tag ∈ tags, ∃ n, (n ∈ srcs ∨ n = dst) ∧ endpoint? port tag n = some e := by
  simp only [resolve_eq_eraseDups, List.mem_eraseDups, List.mem_flatMap, List.mem_append,
    List.mem_singleton, Option.mem_toList]

theorem Recorder.resolve_subset {tags : List String} {srcs srcs' : List OwnedNode} {dst : OwnedNode}
    {port : UInt16} (h : srcs ⊆ srcs') :
    resolve tags srcs dst port ⊆ resolve tags srcs' dst port := by
  intro e he
  obtain ⟨tag, htag, n, hn, hend⟩ := mem_resolve.mp he
  exact mem_resolve.mpr ⟨tag, htag, n, hn.imp_left (h ·), hend⟩

/-- What happens to a session apart from where it is recorded. -/
def Wire.Action.withoutRecorders (a : Wire.Action) : Wire.Action := { a with recorders := [] }

namespace Compiler

variable {c : Compiler} {srcs srcs' : List OwnedNode} {dst : OwnedNode} {r r' : Rule}
  {onSrc onDst : List String → List String → Prop}

theorem recorders_action (s : Settings) (r : Rule) (srcs : List OwnedNode) (dst : OwnedNode) :
    (action s r srcs dst).recorders = Recorder.resolve r.recorder srcs dst s.recorderPort := by
  rw [action]
  by_cases h : r.recorder = []
  · rw [if_pos h, h, baseAction]
    cases r.action <;> rfl
  · rw [if_neg h]

/-- Apart from recorders, what happens to a session does not depend on sources and tokens. -/
theorem withoutRecorders_action (s : Settings) (srcs srcs' : List OwnedNode) (dst : OwnedNode)
    (h : r.Revised onSrc onDst r') :
    (action s r' srcs' dst).withoutRecorders = (action s r srcs dst).withoutRecorders := by
  cases h with
  | tokens =>
      rw [action, action]
      by_cases hr : r.recorder = []
      · rw [if_pos hr, if_pos hr]
        rfl
      · rw [if_neg hr, if_neg hr]
        rfl

/-! ## The conditions of a grant -/

/-- A destination is reached by more tokens if it is reached by some of them. -/
theorem Scope.isReached_mono {s : Scope} {tokens tokens' : List String} (h : tokens ⊆ tokens')
    (hd : s.isReached (Destination.evaluate dst tokens) = true) :
    s.isReached (Destination.evaluate dst tokens') = true := by
  have hany : ∀ reaches : String → Bool,
      tokens.any reaches = true → tokens'.any reaches = true := by
    intro reaches hr
    obtain ⟨t, ht, hreach⟩ := List.any_eq_true.mp hr
    exact List.any_eq_true.mpr ⟨t, h ht, hreach⟩
  cases s with
  | own => exact hany _ hd
  | any => exact hany _ hd

/-- More groups, tokens and nodes take no address away from the sources. -/
theorem sources_mono {p q : Policy} (hg : ∀ name, p.members name ⊆ q.members name)
    (hs : srcs ⊆ srcs') (hr : r.Revised (· ⊆ ·) onDst r') (user : Option User) :
    sources p r srcs user ⊆ sources q r' srcs' user := by
  cases hr with
  | tokens hsrc =>
      intro a ha
      obtain ⟨n, hn, hna, t, ht, he, hm⟩ := mem_sources.mp ha
      exact mem_sources.mpr ⟨n, hs hn, hna, t, hsrc ht, he, Alias.matchesSource_mono hg hm⟩

/-! ## Grants and documents -/

/-- The rule lets in at least whom `w` lets in, as the same users and with the same treatment of
sessions, which are recorded at least where they were. -/
structure Extends (w w' : Wire.Rule) : Prop where
  principals : w.principals ⊆ w'.principals
  sshUsers : w'.sshUsers = w.sshUsers
  action : w'.action.withoutRecorders = w.action.withoutRecorders
  recorders : w.action.recorders ⊆ w'.action.recorders

open List (SublistForall₂)

theorem extends_grant {addresses addresses' : List String} {logins : SortedMap String}
    {action action' : Wire.Action} (h : addresses ⊆ addresses')
    (ha : action'.withoutRecorders = action.withoutRecorders)
    (hr : action.recorders ⊆ action'.recorders) :
    SublistForall₂ Extends (grant addresses logins action) (grant addresses' logins action') := by
  rw [grant, grant]
  by_cases hne : addresses = []
  · rw [if_pos hne]
    exact .nil
  · have hne' : addresses' ≠ [] := by
      rintro rfl
      exact hne (List.eq_nil_of_subset_nil h)
    rw [if_neg hne, if_neg hne']
    exact .cons ⟨List.map_subset _ h, rfl, ha, hr⟩ .nil

variable {p' : Policy}

/-- Under one scope, a grant of a rule is kept by what the widened rule yields. -/
theorem extends_scopedRule (hg : ∀ name, c.policy.members name ⊆ p'.members name)
    (hs : srcs ⊆ srcs') (hr : r.Revised (· ⊆ ·) (· ⊆ ·) r') (s : Scope) :
    SublistForall₂ Extends (scopedRule c srcs dst r s)
      (scopedRule (c.update p') srcs' dst r' s) := by
  have hsources := sources_mono hg hs hr
  have haction := withoutRecorders_action c.settings srcs srcs' dst hr
  cases hr with
  | @tokens src' dst' hsrc hdst =>
      cases hu : s.user? dst with
      | none =>
          rw [scopedRule_of_none hu]
          exact .nil
      | some user =>
          rw [scopedRule_of_some hu, scopedRule_of_some hu]
          by_cases hd : s.isReached (Destination.evaluate dst r.dst) = true ∧ r.users ≠ []
          · have hd' : s.isReached (Destination.evaluate dst dst') = true ∧ r.users ≠ [] :=
              ⟨Scope.isReached_mono hdst hd.1, hd.2⟩
            rw [if_pos hd, if_pos hd']
            refine extends_grant (hsources user) haction ?_
            rw [recorders_action, recorders_action]
            exact Recorder.resolve_subset hs
          · rw [if_neg hd]
            exact .nil

theorem extends_compileRule (hg : ∀ name, c.policy.members name ⊆ p'.members name)
    (hs : srcs ⊆ srcs') (hr : r.Revised (· ⊆ ·) (· ⊆ ·) r') :
    SublistForall₂ Extends (compileRule c r srcs dst)
      (compileRule (c.update p') r' srcs' dst) := by
  have hsup : r'.action.isSupported = r.action.isSupported := by
    rw [hr.action_eq]
  by_cases ha : r.action.isSupported = true
  · rw [compileRule_eq ha, compileRule_eq (hsup.trans ha)]
    exact sublistForall₂_append (extends_scopedRule hg hs hr .own)
      (extends_scopedRule hg hs hr .any)
  · rw [compileRule, if_neg ha]
    exact .nil

/-- The document of a policy is embedded, rule by rule, in that of a widened one. -/
theorem extends_compile (hp : c.policy.Widens p') (hs : srcs ⊆ srcs') :
    SublistForall₂ Extends (c.compile srcs dst).rules ((c.update p').compile srcs' dst).rules := by
  have hrules : ∀ rules rules' : List Rule,
      List.Forall₂ (Rule.Revised (· ⊆ ·) (· ⊆ ·)) rules rules' →
        SublistForall₂ Extends (rules.flatMap fun r => compileRule c r srcs dst)
          (rules'.flatMap fun r => compileRule (c.update p') r srcs' dst) := by
    intro rules rules' h
    induction h with
    | nil => exact .nil
    | cons hr _ ih =>
        rw [List.flatMap_cons, List.flatMap_cons]
        exact sublistForall₂_append (extends_compileRule hp.groups hs hr) ih
  exact hrules _ _ hp.rules

/-- **Adding never takes access away.** Under a widened policy and with more sources, the rules of a
document are mapped in order to rules that extend them. -/
theorem compile_widens (c : Compiler) {p' : Policy} {srcs srcs' : List OwnedNode} (dst : OwnedNode)
    (hp : c.policy.Widens p') (hs : srcs ⊆ srcs') :
    ∃ f : Fin (c.compile srcs dst).rules.length ↪o
        Fin ((c.update p').compile srcs' dst).rules.length,
      ∀ i, Extends ((c.compile srcs dst).rules.get i)
        (((c.update p').compile srcs' dst).rules.get (f i)) :=
  exists_orderEmbedding (extends_compile hp hs)

namespace Rollout

/-- Developers, of whom there are none yet, and operators may log in on the front, the latter after
a check; all sessions are recorded. -/
def compiler : Compiler where
  policy :=
    ⟨SortedMap.empty.insert "group:ops" ["ann"],
      [⟨.accept, none, ["group:dev"], ["tag:front"], ["root"], ["tag:rec"], true⟩,
        ⟨.check, some "8h", ["group:ops"], ["tag:front"], ["ubuntu"], ["tag:rec"], true⟩]⟩
  settings := .standard

/-- There are developers, one more operator, and a wider second rule. -/
def widened : Policy :=
  ⟨(SortedMap.empty.insert "group:dev" ["ann"]).insert "group:ops" ["bob", "ann"],
    [⟨.accept, none, ["group:dev"], ["tag:front"], ["root"], ["tag:rec"], true⟩,
      ⟨.check, some "8h", ["tag:rec", "group:ops"], ["autogroup:self", "tag:front"], ["ubuntu"],
        ["tag:rec"], true⟩]⟩

/-- A user whose login is the name. -/
def ann : User := ⟨⟨1⟩, "ann", none⟩

/-- The node at which `ann` sits. -/
def laptop : OwnedNode :=
  ⟨⟨⟨1⟩, "laptop", some ⟨10, 0, 0, 1⟩, none, some ⟨1⟩, []⟩, some ann⟩

/-- The laptop behind a new node of another user and a new recorder. -/
def joined : List OwnedNode :=
  [⟨⟨⟨2⟩, "phone", some ⟨10, 0, 0, 2⟩, none, some ⟨2⟩, []⟩, some ⟨⟨2⟩, "bob", none⟩⟩,
    ⟨⟨⟨3⟩, "vault", some ⟨10, 0, 0, 3⟩, none, none, [⟨"tag:rec", by decide⟩]⟩, none⟩, laptop]

/-- A node of the front that `ann` owns. -/
def server : OwnedNode :=
  ⟨⟨⟨4⟩, "server", some ⟨10, 0, 0, 4⟩, none, some ⟨1⟩, [⟨"tag:front", by decide⟩]⟩, some ann⟩

theorem widens : compiler.policy.Widens widened where
  groups := by
    intro name
    simp only [Policy.members, compiler, widened, SortedMap.get?_insert, SortedMap.get?_empty]
    by_cases hops : name = "group:ops"
    · simp [hops]
    · simp [hops]
  rules := .cons (.tokens (by decide) (by decide)) (.cons (.tokens (by decide) (by decide)) .nil)

end Rollout

/-- The one rule there was stands behind a grant to the developers now, and once more for the own
nodes of the server's owner, with the new recorder in both. -/
theorem compile_rollout :
    Rollout.compiler.policy.Widens Rollout.widened ∧ [Rollout.laptop] ⊆ Rollout.joined ∧
      ((Rollout.compiler.compile [Rollout.laptop] Rollout.server).rules.map Wire.Rule.principals
          = [[⟨"10.0.0.1"⟩]] ∧
        ((Rollout.compiler.update Rollout.widened).compile Rollout.joined
            Rollout.server).rules.map Wire.Rule.principals
          = [[⟨"10.0.0.1"⟩], [⟨"10.0.0.1"⟩], [⟨"10.0.0.2"⟩, ⟨"10.0.0.1"⟩]]) ∧
      ∃ f : Fin (Rollout.compiler.compile [Rollout.laptop] Rollout.server).rules.length ↪o
          Fin ((Rollout.compiler.update Rollout.widened).compile Rollout.joined
            Rollout.server).rules.length,
        ∀ i, Extends
          ((Rollout.compiler.compile [Rollout.laptop] Rollout.server).rules.get i)
          (((Rollout.compiler.update Rollout.widened).compile Rollout.joined
            Rollout.server).rules.get (f i)) := by
  have hsub : [Rollout.laptop] ⊆ Rollout.joined := by decide
  exact ⟨Rollout.widens, hsub, by decide +kernel,
    compile_widens Rollout.compiler Rollout.server Rollout.widens hsub⟩

end Compiler

end MeshAccess
