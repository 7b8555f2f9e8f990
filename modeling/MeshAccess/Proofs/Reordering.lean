import MeshAccess.Proofs.Accumulation
import MeshAccess.Proofs.SourceAddresses
import MeshAccess.Proofs.WellFormed
import MeshAccess.Proofs.Widening

/-!
# Presentation order never decides who gets in

`compile_presentation` is about a policy and a list of sources that are written down in another way.

* **In another order.** Where source nodes and source tokens are permuted, the rules of a document
  correspond to each other one by one, and only the order of principals and recorders within a
  rule may be another (`SameButOrder`). Each way of writing widens the other, so this follows from
  what is known about widened policies (`extends_compile`), and from lists without repeats that
  hold the same items being permutations of each other.
* **With repeats.** Where source nodes and source tokens are put in again behind their first
  occurrence, and destination tokens are permuted and repeated at will, the document is the same.
-/

namespace MeshAccess

/-- The lists hold the same items, in whatever order and however often. -/
def SameItems {α : Type} (l l' : List α) : Prop := ∀ a, a ∈ l ↔ a ∈ l'

/-- The policy has the same groups, and its rules list other tokens in the given relations to those
of `p`. -/
structure Policy.Revised (onSrc onDst : List String → List String → Prop) (p p' : Policy) :
    Prop where
  groups : p'.groups = p.groups
  rules : List.Forall₂ (Rule.Revised onSrc onDst) p.rules p'.rules

section Revised

variable {onSrc onDst onSrc' onDst' : List String → List String → Prop}

theorem Rule.Revised.imp {r r' : Rule} (hsrc : ∀ l l', onSrc l l' → onSrc' l l')
    (hdst : ∀ l l', onDst l l' → onDst' l l') (h : r.Revised onSrc onDst r') :
    r.Revised onSrc' onDst' r' := by
  cases h with
  | tokens hs hd => exact .tokens (hsrc _ _ hs) (hdst _ _ hd)

theorem Rule.Revised.flip {r r' : Rule} (h : r.Revised onSrc onDst r') :
    r'.Revised (flip onSrc) (flip onDst) r := by
  cases h with
  | @tokens src dst hs hd =>
      exact @Rule.Revised.tokens _ _ { r with src := src, dst := dst } r.src r.dst hs hd

namespace Policy.Revised

variable {p p' : Policy}

theorem flip (h : p.Revised onSrc onDst p') : p'.Revised (flip onSrc) (flip onDst) p where
  groups := h.groups.symm
  rules := h.rules.flip.imp fun _ _ hr => hr.flip

/-- A policy that lists no fewer tokens widens the other. -/
theorem widens (hsrc : ∀ l l', onSrc l l' → l ⊆ l') (hdst : ∀ l l', onDst l l' → l ⊆ l')
    (h : p.Revised onSrc onDst p') : p.Widens p' where
  groups := by
    intro name
    rw [members, members, h.groups]
    exact List.Subset.refl _
  rules := h.rules.imp fun _ _ hr => hr.imp hsrc hdst

end Policy.Revised

end Revised

namespace Compiler

variable {c : Compiler} {srcs srcs' : List OwnedNode} {dst : OwnedNode} {r r' : Rule}
  {p' : Policy}

/-! ## In another order -/

/-- The rules differ in the order of principals and recorders at most. -/
structure SameButOrder (w w' : Wire.Rule) : Prop where
  principals : w.principals.Perm w'.principals
  sshUsers : w'.sshUsers = w.sshUsers
  action : w'.action.withoutRecorders = w.action.withoutRecorders
  recorders : w.action.recorders.Perm w'.action.recorders

open List (Forall₂ SublistForall₂)

/-- Two lists that are embedded in each other have the same length, and the embeddings go position
by position. -/
theorem forall₂_of_sublistForall₂ {α : Type} {R : α → α → Prop} {as bs : List α}
    (h : SublistForall₂ R as bs) (h' : SublistForall₂ R bs as) :
    Forall₂ (fun a b => R a b ∧ R b a) as bs := by
  obtain ⟨cs, hcs, hsub⟩ := List.sublistForall₂_iff.mp h
  obtain ⟨ds, hds, hsub'⟩ := List.sublistForall₂_iff.mp h'
  have hle : as.length ≤ bs.length := hcs.length_eq.trans_le hsub.length_le
  have hle' : bs.length ≤ as.length := hds.length_eq.trans_le hsub'.length_le
  obtain rfl : cs = bs := hsub.eq_of_length (by rw [← hcs.length_eq]; omega)
  obtain rfl : ds = as := hsub'.eq_of_length (by rw [← hds.length_eq]; omega)
  clear h h' hsub hsub' hle hle'
  induction hcs with
  | nil => exact .nil
  | cons hab _ ih =>
      cases hds with
      | cons hba hds => exact .cons ⟨hab, hba⟩ (ih hds)

/-- No rule of a document lists a principal or a recorder twice. -/
theorem nodup_of_mem_compile {w : Wire.Rule} (hw : w ∈ (c.compile srcs dst).rules) :
    w.principals.Nodup ∧ w.action.recorders.Nodup := by
  rw [← map_rule_entries] at hw
  obtain ⟨e, he, rfl⟩ := List.mem_map.mp hw
  obtain ⟨user, hemit⟩ := emitted_of_mem he
  refine ⟨hemit.wellFormed.nodup_principals, ?_⟩
  rw [hemit.action, recorders_action, Recorder.resolve_eq_eraseDups]
  exact nodup_eraseDups _

/-- Rules that extend each other and list nothing twice are the same but for the order. -/
theorem Extends.sameButOrder {w w' : Wire.Rule} (h : Extends w w') (h' : Extends w' w)
    (hw : w.principals.Nodup ∧ w.action.recorders.Nodup)
    (hw' : w'.principals.Nodup ∧ w'.action.recorders.Nodup) : SameButOrder w w' where
  principals := by
    refine (List.perm_ext_iff_of_nodup hw.1 hw'.1).mpr fun q => ?_
    exact ⟨fun hq => h.principals hq, fun hq => h'.principals hq⟩
  sshUsers := h.sshUsers
  action := h.action
  recorders := by
    refine (List.perm_ext_iff_of_nodup hw.2 hw'.2).mpr fun e => ?_
    exact ⟨fun he => h.recorders he, fun he => h'.recorders he⟩

theorem sameButOrder_compile (hp : c.policy.Revised List.Perm SameItems p')
    (hs : srcs.Perm srcs') :
    Forall₂ SameButOrder (c.compile srcs dst).rules ((c.update p').compile srcs' dst).rules := by
  have hwider : c.policy.Widens p' :=
    hp.widens (fun _ _ h => h.subset) fun _ _ h t ht => (h t).mp ht
  have hback : (c.update p').policy.Widens c.policy :=
    hp.flip.widens (fun _ _ h => h.symm.subset) fun _ _ h t ht => (h t).mpr ht
  have hthere : SublistForall₂ Extends (c.compile srcs dst).rules
      ((c.update p').compile srcs' dst).rules := extends_compile hwider hs.subset
  have hagain : SublistForall₂ Extends ((c.update p').compile srcs' dst).rules
      (c.compile srcs dst).rules := extends_compile hback hs.symm.subset
  have hmutual := forall₂_of_sublistForall₂ hthere hagain
  rw [List.forall₂_iff_zip] at hmutual ⊢
  refine ⟨hmutual.1, ?_⟩
  intro w w' hzip
  obtain ⟨hw, hw'⟩ := List.of_mem_zip hzip
  obtain ⟨hext, hext'⟩ := hmutual.2 hzip
  exact hext.sameButOrder hext' (nodup_of_mem_compile hw) (nodup_of_mem_compile hw')

/-! ## With repeats -/

theorem sources_of_repeats {onDst : List String → List String → Prop}
    (hr : r.Revised Repeats onDst r') (hs : Repeats srcs srcs') (p : Policy) (user : Option User) :
    sources p r' srcs' user = sources p r srcs user := by
  cases hr with
  | tokens hsrc =>
      rw [sources_eq_eraseDups, sources_eq_eraseDups, eligible, (hsrc.filter _).eraseDups_flatMap]
      exact eraseDups_flatMap_congr fun t _ => hs.eraseDups_flatMap _

theorem resolve_of_repeats (hs : Repeats srcs srcs') (tags : List String) (port : UInt16) :
    Recorder.resolve tags srcs' dst port = Recorder.resolve tags srcs dst port := by
  rw [Recorder.resolve_eq_eraseDups, Recorder.resolve_eq_eraseDups]
  exact eraseDups_flatMap_congr fun tag _ => (hs.append_right [dst]).eraseDups_flatMap _

theorem evaluate_of_sameItems {tokens tokens' : List String} (h : SameItems tokens tokens') :
    Destination.evaluate dst tokens' = Destination.evaluate dst tokens := by
  have hany : ∀ reaches : String → Bool, tokens'.any reaches = tokens.any reaches := by
    intro reaches
    rw [Bool.eq_iff_iff, List.any_eq_true, List.any_eq_true]
    exact exists_congr fun t => and_congr_left fun _ => (h t).symm
  rw [Destination.evaluate, Destination.evaluate, hany, hany]

theorem action_ext {a a' : Wire.Action} (h : a.withoutRecorders = a'.withoutRecorders)
    (hr : a.recorders = a'.recorders) : a = a' := by
  have hself : ∀ b : Wire.Action, b = { b.withoutRecorders with recorders := b.recorders } :=
    fun _ => rfl
  rw [hself a, hself a', h, hr]

theorem compileRule_of_repeats (hg : p'.groups = c.policy.groups)
    (hr : r.Revised Repeats SameItems r') (hs : Repeats srcs srcs') :
    compileRule (c.update p') r' srcs' dst = compileRule c r srcs dst := by
  have haction : action c.settings r' srcs' dst = action c.settings r srcs dst := by
    refine action_ext (withoutRecorders_action c.settings srcs srcs' dst hr) ?_
    rw [recorders_action, recorders_action, resolve_of_repeats hs]
    cases hr
    rfl
  have hsources : ∀ user, sources p' r' srcs' user = sources c.policy r srcs user := by
    intro user
    rw [sources_eq_of_groups hg, sources_of_repeats hr hs]
  have hlogins : logins r' dst = logins r dst := by
    cases hr with
    | tokens _ hdst => rw [logins, logins, evaluate_of_sameItems hdst]
  have hsup : r'.action.isSupported = r.action.isSupported := by
    rw [hr.action_eq]
  exact compileRule_congr hsup hlogins haction hsources

theorem compile_of_repeats (hp : c.policy.Revised Repeats SameItems p')
    (hs : Repeats srcs srcs') : (c.update p').compile srcs' dst = c.compile srcs dst := by
  have hmap : p'.rules.map (fun r => compileRule (c.update p') r srcs' dst)
      = c.policy.rules.map fun r => compileRule c r srcs dst := by
    symm
    rw [← List.forall₂_eq_eq_eq, List.forall₂_map_left_iff, List.forall₂_map_right_iff]
    exact hp.rules.imp fun r r' hr => (compileRule_of_repeats hp.groups hr hs).symm
  show Wire.Document.mk (p'.rules.flatMap _) = Wire.Document.mk (c.policy.rules.flatMap _)
  rw [List.flatMap_def, List.flatMap_def, hmap]

/-- **Presentation order never decides who gets in.** Permuting the sources and the source tokens of
rules gives rules that correspond one by one, in the same order, and differ in the order of
principals and recorders at most. Repeating sources and source tokens behind their first
occurrence, and permuting and repeating destination tokens, gives the same document. -/
theorem compile_presentation (c : Compiler) (p' : Policy) (srcs srcs' : List OwnedNode)
    (dst : OwnedNode) :
    (c.policy.Revised List.Perm SameItems p' → srcs.Perm srcs' →
      Forall₂ SameButOrder (c.compile srcs dst).rules ((c.update p').compile srcs' dst).rules) ∧
      (c.policy.Revised Repeats SameItems p' → Repeats srcs srcs' →
        (c.update p').compile srcs' dst = c.compile srcs dst) := by
  refine ⟨?_, ?_⟩
  · intro hp hs
    exact sameButOrder_compile hp hs
  · intro hp hs
    exact compile_of_repeats hp hs

namespace Shuffle

/-- A policy with one rule for the given tokens, whose sessions are recorded. -/
def policy (src dst : List String) : Policy :=
  ⟨SortedMap.empty.insert "group:ops" ["bob"],
    [⟨.accept, none, src, dst, ["ubuntu"], ["tag:log"], false⟩]⟩

/-- Operators, and all others behind them, may log in on the store. -/
def compiler : Compiler where
  policy := policy ["group:ops", "autogroup:member"] ["tag:store"]
  settings := .standard

/-- The tokens the other way round, and the destination twice. -/
def reversed : Policy := policy ["autogroup:member", "group:ops"] ["tag:store", "tag:store"]

/-- The operators once more behind all others. -/
def repeated : Policy :=
  policy ["group:ops", "autogroup:member", "group:ops"] ["tag:store", "tag:store"]

/-- A node of a user, or a recorder where the user has no name. -/
def node (id : UInt64) (ip : IPv4) (name : String) : OwnedNode :=
  if name = "" then
    ⟨⟨⟨id⟩, "recorder", some ip, none, none, [⟨"tag:log", by decide⟩]⟩, none⟩
  else ⟨⟨⟨id⟩, name, some ip, none, some ⟨id⟩, []⟩, some ⟨⟨id⟩, name, none⟩⟩

/-- The first and the third have the same address. -/
def sources : List OwnedNode :=
  [node 1 ⟨10, 0, 0, 1⟩ "ann", node 2 ⟨10, 0, 0, 2⟩ "bob", node 3 ⟨10, 0, 0, 1⟩ "bob",
    node 4 ⟨10, 0, 0, 4⟩ "", node 5 ⟨10, 0, 0, 5⟩ ""]

/-- The first source comes up once more, as the last one. -/
def again : List OwnedNode := sources ++ [node 1 ⟨10, 0, 0, 1⟩ "ann"]

/-- A tagged node. -/
def store : OwnedNode :=
  ⟨⟨⟨6⟩, "store", some ⟨10, 0, 0, 6⟩, none, none, [⟨"tag:store", by decide⟩]⟩, none⟩

theorem revised {onSrc onDst : List String → List String → Prop} {src dst : List String}
    (hsrc : onSrc ["group:ops", "autogroup:member"] src) (hdst : onDst ["tag:store"] dst) :
    compiler.policy.Revised onSrc onDst (policy src dst) where
  groups := rfl
  rules := .cons (.tokens hsrc hdst) .nil

theorem sameItems : SameItems ["tag:store"] ["tag:store", "tag:store"] := by
  intro t
  simp

theorem repeats : Repeats ["group:ops", "autogroup:member"]
    ["group:ops", "autogroup:member", "group:ops"] :=
  .append_singleton List.mem_cons_self

end Shuffle

/-- The other way round, principals and recorders stand in another order; with repeats nothing
changes. -/
theorem compile_shuffled :
    ((Shuffle.compiler.compile Shuffle.sources Shuffle.store).rules.map Wire.Rule.principals
          = [[⟨"10.0.0.2"⟩, ⟨"10.0.0.1"⟩]] ∧
        ((Shuffle.compiler.update Shuffle.reversed).compile
            Shuffle.sources.reverse Shuffle.store).rules.map Wire.Rule.principals
          = [[⟨"10.0.0.1"⟩, ⟨"10.0.0.2"⟩]]) ∧
      Forall₂ SameButOrder (Shuffle.compiler.compile Shuffle.sources Shuffle.store).rules
        ((Shuffle.compiler.update Shuffle.reversed).compile
          Shuffle.sources.reverse Shuffle.store).rules ∧
      (Shuffle.compiler.update Shuffle.repeated).compile Shuffle.again Shuffle.store
        = Shuffle.compiler.compile Shuffle.sources Shuffle.store := by
  have hperm : ["group:ops", "autogroup:member"].Perm ["autogroup:member", "group:ops"] := by
    decide
  have hagain : Repeats Shuffle.sources Shuffle.again := .append_singleton List.mem_cons_self
  refine ⟨by decide +kernel, ?_, ?_⟩
  · exact (compile_presentation Shuffle.compiler Shuffle.reversed Shuffle.sources _ Shuffle.store).1
      (Shuffle.revised hperm Shuffle.sameItems) (List.reverse_perm _).symm
  · exact (compile_presentation Shuffle.compiler Shuffle.repeated Shuffle.sources _ Shuffle.store).2
      (Shuffle.revised Shuffle.repeats Shuffle.sameItems) hagain

end Compiler

end MeshAccess
