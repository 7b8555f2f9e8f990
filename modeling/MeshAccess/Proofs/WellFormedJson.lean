import MeshAccess.Proofs.TokenGrammar
import MeshAccess.Proofs.WrittenJson

/-!
# Well-formed texts

A document can be passed over exactly if its text is well-formed JSON (`read_skip_iff`). Nothing
bounds the depth of its nesting, the size of its numbers or what the escapes of its literals name.

One half follows the text of a value to its end, by induction on the value: wherever it is due and
whatever comes behind it, one and the same tree results (`Value.yields`). For arrays and objects the
tree is that of the parts (`tree_arrayText`, `tree_objectText`), so a member that is added to an
object adds one member to its tree and leaves the others as they are.

The other half goes over the tokens from the end. `Demands` says what has to come where something is
due in the containers of a stack, one step over a token keeps it (`demands_of_step`), and a document
that breaks nowhere meets it from the start (`demands_of_done`).
-/

namespace MeshAccess.Json.Document

open Grammar

/-! ## Trees of texts -/

/-- Wherever a value is due, following `cs` leads behind a value with the tree `v`. -/
def Yields (cs : List Char) (v : Reading) : Prop :=
  ∀ (due : Due) (before stack : List Frame) (rest : List Char),
    Awaits due before stack → Ends rest →
      build due before (cs ++ rest) = build (.separator v) stack rest

/-- The tree of the text of a value. -/
def tree (cs : List Char) : Reading := (build .value [] cs).value

/-- The token of a key between its quotes. -/
def keyToken (key : List Char) : Token := (Token.nextText (key ++ ['\x22'])).1

theorem Yields.tree_eq {cs : List Char} {v : Reading} (h : Yields cs v) : tree cs = v := by
  have hbuild := h .value [] [] [] (awaits_value []) ends_nil
  rw [List.append_nil, build.eq_def (.separator v)] at hbuild
  rw [tree, hbuild]

theorem Yields.yields_tree {cs : List Char} {v : Reading} (h : Yields cs v) :
    Yields cs (tree cs) := h.tree_eq.symm ▸ h

theorem next_key {key : List Char} (h : Inside key) (rest : List Char) :
    Token.next ('\x22' :: (key ++ '\x22' :: rest)) = some (keyToken key, rest) := by
  obtain ⟨t, -, ht⟩ := h.exists_token
  have hkey : keyToken key = t := congrArg Prod.fst (ht [])
  rw [hkey, Token.next_cons (by decide)]
  exact congrArg some (ht rest)

theorem isLiteral_keyToken {key : List Char} (h : Inside key) : IsLiteral (keyToken key) := by
  obtain ⟨t, hliteral, ht⟩ := h.exists_token
  have hkey : keyToken key = t := congrArg Prod.fst (ht [])
  exact hkey ▸ hliteral

theorem keyToken_of_spells {key text : List Char} (h : Spells key text) :
    keyToken key = .text (String.ofList text) :=
  congrArg Prod.fst (nextText_of_spells h [])

theorem keyToken_of_refused {key : List Char} (hkey : Inside key) (h : Refused key) :
    keyToken key = .brokenText .malformed none := by
  rw [keyToken, Token.nextText, h]
  simp only [hkey.skip]

/-! ## Following a well-formed value -/

theorem stepValue_scalar {t : Token} (h : IsScalar t) (stack : List Frame) :
    stepValue stack t = some (.separator (.leaf t), stack) := by
  rcases h with h | h <;> cases h <;> rfl

theorem step_nextKey {t : Token} (h : IsLiteral t) (before : List (Token × Reading))
    (stack : List Frame) : step (.nextKey before) stack t = some (.colon before t, stack) := by
  cases h <;> rfl

theorem step_firstKey {t : Token} (h : IsLiteral t) (stack : List Frame) :
    step .firstKey stack t = some (.colon [] t, stack) := by
  cases h <;> rfl

theorem yields_scalar {cs : List Char} (h : Scalar cs) :
    ∃ t, Yields cs (.leaf t) ∧ (Reading.leaf t).skip = .ok () := by
  obtain ⟨t, ht, hnext⟩ := h.exists_token
  refine ⟨t, fun due before stack rest hd hr => ?_, ?_⟩
  · refine build_scalar hd (hnext rest hr) ?_ (stepValue_scalar ht stack)
    rintro rfl
    rcases ht with ht | ht <;> cases ht
  · rcases ht with ht | ht <;> cases ht <;> rfl

/-- Numbers end before the parts that follow, and before the end of their container. -/
theorem ends_following {c : Char} (h : c.isDigit = false ∧ c ≠ '.' ∧ c ≠ 'e' ∧ c ≠ 'E')
    (parts : List (List Char)) (rest : List Char) : Ends (following parts ++ c :: rest) := by
  cases parts with
  | nil => exact ends_cons h rest
  | cons part parts =>
      rw [following_cons]
      exact ends_cons (by decide) _

/-- A value between white space leads from where it is due to behind it. -/
theorem build_item {i : Item} (hs : i.Spaced) {v : Reading} (h : Yields i.value v) {due : Due}
    {before stack : List Frame} (hd : Awaits due before stack) {rest : List Char} (hr : Ends rest) :
    build due before (i.text ++ rest) = build (.separator v) stack rest := by
  rw [Item.text, List.append_assoc, List.append_assoc, build_append_of_blank hs.before,
    h due before stack _ hd (ends_append_of_blank hs.after hr), build_append_of_blank hs.after]

/-- Behind an item, the items that follow lead to the end of the array. -/
theorem build_following_items {items : List Item} (hs : ∀ i ∈ items, i.Spaced)
    (h : ∀ i ∈ items, Yields i.value (tree i.value)) (done : Reading) (before : List Reading)
    (stack : List Frame) (rest : List Char) :
    build (.separator done) (.items before :: stack)
        (following (items.map Item.text) ++ ']' :: rest)
      = build (.separator (.array ((done :: before).reverse
          ++ items.map fun i => tree i.value) none)) stack rest := by
  induction items generalizing done before with
  | nil =>
      rw [List.map_nil, List.map_nil, List.append_nil]
      exact build_of_step (Token.next_single _ (by decide) rfl) rfl
  | cons i items ih =>
      have htail := ih (fun i hi => hs i (List.mem_cons_of_mem _ hi))
        (fun i hi => h i (List.mem_cons_of_mem _ hi)) (tree i.value) (done :: before)
      have hends := ends_following (c := ']') (by decide) (items.map Item.text) rest
      rw [List.map_cons, List.map_cons, following_cons, List.cons_append, List.append_assoc,
        build_of_step (Token.next_single .comma (by decide) rfl) rfl,
        build_item (hs i List.mem_cons_self) (h i List.mem_cons_self) (awaits_value _) hends, htail,
        List.reverse_cons, List.append_assoc, List.singleton_append]

theorem yields_array {gap : List Char} {items : List Item} (hgap : Blank gap)
    (hs : ∀ i ∈ items, i.Spaced) (h : ∀ i ∈ items, Yields i.value (tree i.value)) :
    Yields (arrayText gap items) (.array (items.map fun i => tree i.value) none) := by
  intro due before stack rest hd hr
  have hopen : Token.next (arrayText gap items ++ rest)
      = some (.openArray, gap ++ (listed (items.map Item.text) ++ ']' :: rest)) := by
    simp only [arrayText, List.cons_append, List.append_assoc, List.nil_append]
    exact Token.next_single .openArray (by decide) rfl
  rw [build_of_step hopen (hd .openArray nofun), build_append_of_blank hgap]
  cases items with
  | nil => exact build_of_step (Token.next_single _ (by decide) rfl) rfl
  | cons i items =>
      have hends := ends_following (c := ']') (by decide) (items.map Item.text) rest
      rw [List.map_cons, listed, List.append_assoc, build_item (hs i List.mem_cons_self)
          (h i List.mem_cons_self) (awaits_firstItem stack) hends,
        build_following_items (fun i hi => hs i (List.mem_cons_of_mem _ hi))
          (fun i hi => h i (List.mem_cons_of_mem _ hi))]
      rfl

/-- The token and the tree of a member. -/
def memberTree (m : Member) : Token × Reading := (keyToken m.key, tree m.item.value)

/-- A member leads from where its key is due to behind its value. -/
theorem build_formed {m : Member} (hm : m.Formed) (h : Yields m.item.value (tree m.item.value))
    {due : Due} {stack : List Frame} {before : List (Token × Reading)}
    (hk : ∀ t, IsLiteral t → step due stack t = some (.colon before t, stack)) {rest : List Char}
    (hr : Ends rest) :
    build due stack (m.text ++ rest) = build (.separator (tree m.item.value))
      (.members before (keyToken m.key) :: stack) rest := by
  simp only [Member.text, List.append_assoc, List.cons_append]
  rw [build_append_of_blank hm.before,
    build_of_step (next_key hm.key _) (hk _ (isLiteral_keyToken hm.key)),
    build_append_of_blank hm.after, build_of_step (Token.next_single .colon (by decide) rfl) rfl,
    build_item hm.item h (awaits_value _) hr]

/-- Behind a member, the members that follow lead to the end of the object. -/
theorem build_following_members {ms : List Member} (hm : ∀ m ∈ ms, m.Formed)
    (h : ∀ m ∈ ms, Yields m.item.value (tree m.item.value)) (key : Token) (done : Reading)
    (before : List (Token × Reading)) (stack : List Frame) (rest : List Char) :
    build (.separator done) (.members before key :: stack)
        (following (ms.map Member.text) ++ '\x7d' :: rest)
      = build (.separator (.object (((key, done) :: before).reverse ++ ms.map memberTree) none))
          stack rest := by
  induction ms generalizing key done before with
  | nil =>
      rw [List.map_nil, List.map_nil, List.append_nil]
      exact build_of_step (Token.next_single _ (by decide) rfl) rfl
  | cons m ms ih =>
      have htail := ih (fun m hm' => hm m (List.mem_cons_of_mem _ hm'))
        (fun m hm => h m (List.mem_cons_of_mem _ hm)) (keyToken m.key) (tree m.item.value)
        ((key, done) :: before)
      have hends := ends_following (c := '\x7d') (by decide) (ms.map Member.text) rest
      rw [List.map_cons, List.map_cons, following_cons, List.cons_append, List.append_assoc,
        build_of_step (Token.next_single .comma (by decide) rfl) rfl,
        build_formed (hm m List.mem_cons_self) (h m List.mem_cons_self)
          (fun t ht => step_nextKey ht _ _) hends, htail,
        List.reverse_cons, List.append_assoc, List.singleton_append, memberTree]

theorem yields_object {gap : List Char} {ms : List Member} (hgap : Blank gap)
    (hm : ∀ m ∈ ms, m.Formed) (h : ∀ m ∈ ms, Yields m.item.value (tree m.item.value)) :
    Yields (objectText gap ms) (.object (ms.map memberTree) none) := by
  intro due before stack rest hd hr
  have hopen : Token.next (objectText gap ms ++ rest)
      = some (.openObject, gap ++ (listed (ms.map Member.text) ++ '\x7d' :: rest)) := by
    simp only [objectText, List.cons_append, List.append_assoc, List.nil_append]
    exact Token.next_single .openObject (by decide) rfl
  rw [build_of_step hopen (hd .openObject nofun), build_append_of_blank hgap]
  cases ms with
  | nil => exact build_of_step (Token.next_single _ (by decide) rfl) rfl
  | cons m ms =>
      have hends := ends_following (c := '\x7d') (by decide) (ms.map Member.text) rest
      rw [List.map_cons, listed, List.append_assoc,
        build_formed (hm m List.mem_cons_self) (h m List.mem_cons_self)
          (fun t ht => step_firstKey ht _) hends,
        build_following_members (fun m hm' => hm m (List.mem_cons_of_mem _ hm'))
          (fun m hm => h m (List.mem_cons_of_mem _ hm))]
      rfl

/-- Every value can be followed to its end, and passed over. -/
theorem yields_value {cs : List Char} (h : Value cs) :
    Yields cs (tree cs) ∧ (tree cs).skip = .ok () := by
  suffices h : ∃ v, Yields cs v ∧ v.skip = .ok () by
    obtain ⟨v, hv, hskip⟩ := h
    exact ⟨hv.yields_tree, hv.tree_eq.symm ▸ hskip⟩
  -- by induction on the value; the parts of a container are followed by the hypothesis
  induction h with
  | scalar h =>
      obtain ⟨t, ht⟩ := yields_scalar h
      exact ⟨.leaf t, ht⟩
  | array hgap hs _ ih =>
      refine ⟨_, yields_array hgap hs fun i hi => ?_, rfl⟩
      obtain ⟨v, hv, -⟩ := ih i hi
      exact hv.yields_tree
  | object hgap hm _ ih =>
      refine ⟨_, yields_object hgap hm fun m hm => ?_, rfl⟩
      obtain ⟨v, hv, -⟩ := ih m hm
      exact hv.yields_tree

theorem tree_arrayText {gap : List Char} {items : List Item} (hgap : Blank gap)
    (h : ∀ i ∈ items, i.Valid) :
    tree (arrayText gap items) = .array (items.map fun i => tree i.value) none :=
  (yields_array hgap (fun i hi => (h i hi).1) fun i hi => (yields_value (h i hi).2).1).tree_eq

theorem tree_objectText {gap : List Char} {ms : List Member} (hgap : Blank gap)
    (h : ∀ m ∈ ms, m.Valid) : tree (objectText gap ms) = .object (ms.map memberTree) none :=
  (yields_object hgap (fun m hm => (h m hm).1) fun m hm => (yields_value (h m hm).2).1).tree_eq

/-- A value between white space is a whole document. -/
theorem ofText_of_wellFormed {text : String} {lead value trail : List Char}
    (htext : text.toList = lead ++ (value ++ trail)) (hlead : Blank lead) (h : Value value)
    (htrail : Blank trail) : ofText text = ⟨tree value, false⟩ := by
  have hends : Ends (trail ++ []) := ends_append_of_blank htrail ends_nil
  have hnext : Token.next trail = none := by
    have := Token.next_append_of_blank htrail []
    rwa [List.append_nil] at this
  rw [List.append_nil] at hends
  rw [ofText, htext, build_append_of_blank hlead,
    (yields_value h).1 .value [] [] trail (awaits_value []) hends, build.eq_def]
  simp only [hnext, Option.isSome_none]

/-! ## What a document has to hold -/

/-- What may come behind a value, up to the end of the document, to close the containers of the
stack. -/
def Closes : List Frame → List Char → Prop
  | [], cs => Blank cs
  | .items _ :: stack, cs => ∃ (gap : List Char) (items : List Item) (rest : List Char),
      cs = gap ++ (following (items.map Item.text) ++ ']' :: rest) ∧ Blank gap ∧
        (∀ i ∈ items, i.Valid) ∧ Closes stack rest
  | .members _ _ :: stack, cs => ∃ (gap : List Char) (ms : List Member) (rest : List Char),
      cs = gap ++ (following (ms.map Member.text) ++ '\x7d' :: rest) ∧ Blank gap ∧
        (∀ m ∈ ms, m.Valid) ∧ Closes stack rest

/-- What has to come, up to the end of the document, where `due` is due in the containers of the
stack. -/
def Demands (due : Due) (stack : List Frame) (cs : List Char) : Prop :=
  match due with
  | .value => ∃ gap value rest, cs = gap ++ (value ++ rest) ∧ Blank gap ∧ Value value ∧
      Closes stack rest
  | .firstItem => ∃ (gap : List Char) (items : List Item) (rest : List Char),
      cs = gap ++ (listed (items.map Item.text) ++ ']' :: rest) ∧ Blank gap ∧
        (∀ i ∈ items, i.Valid) ∧ Closes stack rest
  | .firstKey => ∃ (gap : List Char) (ms : List Member) (rest : List Char),
      cs = gap ++ (listed (ms.map Member.text) ++ '\x7d' :: rest) ∧ Blank gap ∧
        (∀ m ∈ ms, m.Valid) ∧ Closes stack rest
  | .nextKey _ => ∃ (m : Member) (ms : List Member) (rest : List Char),
      cs = m.text ++ (following (ms.map Member.text) ++ '\x7d' :: rest) ∧
        (∀ m' ∈ m :: ms, m'.Valid) ∧ Closes stack rest
  | .colon _ _ => ∃ (gap : List Char) (i : Item) (ms : List Member) (rest : List Char),
      cs = gap ++ ':' :: (i.text ++ (following (ms.map Member.text) ++ '\x7d' :: rest)) ∧
        Blank gap ∧ i.Valid ∧ (∀ m ∈ ms, m.Valid) ∧
        Closes stack rest
  | .separator _ => Closes stack cs

/-- A document whose value can be passed over and that nothing follows. -/
def Done (d : Document) : Prop := d.value.skip = .ok () ∧ d.trailing = false

theorem skip_unwind {f : Fault} {v : Reading} (h : v.skip ≠ .ok ()) (stack : List Frame) :
    (unwind f v stack).skip ≠ .ok () := by
  induction stack generalizing v with
  | nil => exact h
  | cons frame stack ih =>
      cases frame with
      | items before => exact ih nofun
      | members before key => exact ih nofun

theorem skip_unwind_array (f g : Fault) (items : List Reading) (stack : List Frame) :
    (unwind f (.array items (some g)) stack).skip ≠ .ok () :=
  skip_unwind (fun h => by cases h) stack

theorem skip_unwind_object (f g : Fault) (ms : List (Token × Reading)) (stack : List Frame) :
    (unwind f (.object ms (some g)) stack).skip ≠ .ok () :=
  skip_unwind (fun h => by cases h) stack

theorem stepValue_cases {stack stack' : List Frame} {due : Due} {t : Token}
    (h : stepValue stack t = some (due, stack')) :
    stack' = stack ∧ (t = .openArray ∧ due = .firstItem ∨ t = .openObject ∧ due = .firstKey ∨
      IsScalar t ∧ due = .separator (.leaf t)) := by
  unfold stepValue at h
  split at h
  · cases h
    exact ⟨rfl, .inl ⟨rfl, rfl⟩⟩
  · cases h
    exact ⟨rfl, .inr (.inl ⟨rfl, rfl⟩)⟩
  · rename_i harray hobject
    split at h
    · rename_i hskip
      cases h
      refine ⟨rfl, .inr (.inr ⟨?_, rfl⟩)⟩
      cases t with
      | openArray => exact absurd rfl harray
      | openObject => exact absurd rfl hobject
      | null => exact .inl .null
      | bool b => exact .inl (.bool b)
      | natural n => exact .inl (.natural n)
      | number => exact .inl .number
      | text s => exact .inr (.text s)
      | brokenText read skip =>
          obtain rfl : skip = none := Option.isNone_iff_eq_none.mp hskip
          exact .inr (.broken read)
      | brokenScalar read skip =>
          obtain rfl : skip = none := Option.isNone_iff_eq_none.mp hskip
          exact .inl (.beyond read)
      | _ => cases hskip
    · cases h

theorem stepKey_cases {before : List (Token × Reading)} {stack stack' : List Frame} {due : Due}
    {t : Token} (h : stepKey before stack t = some (due, stack')) :
    stack' = stack ∧ IsLiteral t ∧ due = .colon before t := by
  unfold stepKey at h
  split at h
  · cases h
    exact ⟨rfl, .text _, rfl⟩
  · cases h
    exact ⟨rfl, .broken _, rfl⟩
  · cases h

theorem skip_leaf_of_stepValue {stack : List Frame} {t : Token} (h : stepValue stack t = none) :
    (Reading.leaf t).skip ≠ .ok () := by
  unfold stepValue at h
  split at h
  · cases h
  · cases h
  · split at h
    · cases h
    · rename_i hskip
      obtain ⟨f, hf⟩ := Option.ne_none_iff_exists'.mp (mt Option.isNone_iff_eq_none.mpr hskip)
      rw [Reading.skip, hf]
      exact nofun

/-- A document that breaks cannot be passed over. -/
theorem skip_broken {due : Due} {stack : List Frame} {t : Token} (h : step due stack t = none)
    (hopen : ∀ v, due = .separator v → stack ≠ []) : (broken due stack t).skip ≠ .ok () := by
  cases due with
  | value => exact skip_unwind (skip_leaf_of_stepValue h) stack
  | firstItem => exact skip_unwind_array _ _ _ stack
  | firstKey => cases t <;> exact skip_unwind_object _ _ _ stack
  | nextKey before => exact skip_unwind_object _ _ _ stack
  | colon before key => exact skip_unwind_object _ _ _ stack
  | separator v =>
      cases stack with
      | nil => exact absurd rfl (hopen v rfl)
      | cons frame stack =>
          cases frame with
          | items before => exact skip_unwind_array _ _ _ stack
          | members before key => exact skip_unwind_object _ _ _ stack

theorem step_ended (due : Due) (stack : List Frame) : step due stack .ended = none := by
  cases due with
  | separator v =>
      cases stack with
      | nil => rfl
      | cons frame stack => cases frame <;> rfl
  | _ => rfl

/-! ### One step -/

theorem demands_value {stack stack' : List Frame} {due : Due} {t : Token} {cs rest : List Char}
    (hs : stepValue stack t = some (due, stack')) (ht : Token.next cs = some (t, rest))
    (h : Demands due stack' rest) : Demands .value stack cs := by
  obtain ⟨rfl, ⟨rfl, rfl⟩ | ⟨rfl, rfl⟩ | ⟨hscalar, rfl⟩⟩ := stepValue_cases hs
  · obtain ⟨gap, rfl, hgap⟩ := mark_of_next ht rfl
    obtain ⟨gap', items, rest, rfl, hgap', hitems, hclose⟩ := h
    refine ⟨gap, arrayText gap' items, rest, ?_, hgap, value_array hgap' hitems, hclose⟩
    simp only [arrayText, List.cons_append, List.append_assoc, List.nil_append]
  · obtain ⟨gap, rfl, hgap⟩ := mark_of_next ht rfl
    obtain ⟨gap', ms, rest, rfl, hgap', hms, hclose⟩ := h
    refine ⟨gap, objectText gap' ms, rest, ?_, hgap, value_object hgap' hms, hclose⟩
    simp only [objectText, List.cons_append, List.append_assoc, List.nil_append]
  · obtain ⟨gap, scalar, rfl, hgap, hvalue⟩ := scalar_of_next ht hscalar
    exact ⟨gap, scalar, rest, rfl, hgap, .scalar hvalue, h⟩

/-- A value that a comma or an end follows is an item of the array around it. -/
theorem demands_firstItem {stack : List Frame} {cs : List Char}
    (h : Demands .value (.items [] :: stack) cs) : Demands .firstItem stack cs := by
  obtain ⟨gap, value, rest, rfl, hgap, hvalue, gap', items, rest, rfl, hgap', hitems, hclose⟩ := h
  refine ⟨[], ⟨gap, value, gap'⟩ :: items, rest, ?_, nofun, ?_, hclose⟩
  · simp only [List.map_cons, listed, Item.text, List.nil_append, List.append_assoc]
  · exact List.forall_mem_cons.mpr ⟨⟨⟨hgap, hgap'⟩, hvalue⟩, hitems⟩

/-- A key is the key of the member that its colon and value make. -/
theorem demands_nextKey {before : List (Token × Reading)} {stack : List Frame} {t : Token}
    {cs rest : List Char} (ht : Token.next cs = some (t, rest)) (hliteral : IsLiteral t)
    (h : Demands (.colon before t) stack rest) : Demands (.nextKey before) stack cs := by
  obtain ⟨gap, inside, rfl, hgap, hinside⟩ := inside_of_next ht hliteral
  obtain ⟨gap', i, ms, rest, rfl, hgap', ⟨hspaced, hvalue⟩, hms, hclose⟩ := h
  refine ⟨⟨gap, inside, gap', i⟩, ms, rest, ?_, ?_, hclose⟩
  · simp only [Member.text, List.append_assoc, List.cons_append]
  · exact List.forall_mem_cons.mpr ⟨⟨⟨hgap, hinside, hgap', hspaced⟩, hvalue⟩, hms⟩

theorem demands_firstKey {before : List (Token × Reading)} {stack : List Frame} {cs : List Char}
    (h : Demands (.nextKey before) stack cs) : Demands .firstKey stack cs := by
  obtain ⟨m, ms, rest, rfl, hms, hclose⟩ := h
  refine ⟨[], m :: ms, rest, ?_, nofun, hms, hclose⟩
  rw [List.map_cons, listed, List.nil_append, List.append_assoc]

/-- What has to come behind a token makes, with the token, what has to come before it. -/
theorem demands_of_step {due due' : Due} {stack stack' : List Frame} {t : Token}
    {cs rest : List Char} (hs : step due stack t = some (due', stack'))
    (ht : Token.next cs = some (t, rest)) (h : Demands due' stack' rest) :
    Demands due stack cs := by
  unfold step at hs
  -- one case for each equation of `step`: a closing mark leaves no parts to come, a comma one more
  split at hs
  · exact demands_value hs ht h
  · cases hs
    obtain ⟨gap, rfl, hgap⟩ := mark_of_next ht rfl
    exact ⟨gap, [], rest, rfl, hgap, nofun, h⟩
  · exact demands_firstItem (demands_value hs ht h)
  · cases hs
    obtain ⟨gap, rfl, hgap⟩ := mark_of_next ht rfl
    exact ⟨gap, [], rest, rfl, hgap, nofun, h⟩
  · obtain ⟨rfl, hliteral, rfl⟩ := stepKey_cases hs
    exact demands_firstKey (demands_nextKey ht hliteral h)
  · obtain ⟨rfl, hliteral, rfl⟩ := stepKey_cases hs
    exact demands_nextKey ht hliteral h
  · cases hs
    obtain ⟨gap, rfl, hgap⟩ := mark_of_next ht rfl
    obtain ⟨gap', value, rest, rfl, hgap', hvalue, gap'', ms, rest, rfl, hgap'', hms, hclose⟩ := h
    refine ⟨gap, ⟨gap', value, gap''⟩, ms, rest, ?_, hgap, ⟨⟨hgap', hgap''⟩, hvalue⟩, hms,
      hclose⟩
    simp only [Item.text, List.append_assoc]
  · cases hs
    obtain ⟨gap, rfl, hgap⟩ := mark_of_next ht rfl
    obtain ⟨gap', value, rest, rfl, hgap', hvalue, gap'', items, rest, rfl, hgap'', hitems,
      hclose⟩ := h
    refine ⟨gap, ⟨gap', value, gap''⟩ :: items, rest, ?_, hgap, ?_, hclose⟩
    · simp only [List.map_cons, following_cons, Item.text, List.cons_append, List.append_assoc]
    · exact List.forall_mem_cons.mpr ⟨⟨⟨hgap', hgap''⟩, hvalue⟩, hitems⟩
  · cases hs
    obtain ⟨gap, rfl, hgap⟩ := mark_of_next ht rfl
    exact ⟨gap, [], rest, rfl, hgap, nofun, h⟩
  · cases hs
    obtain ⟨gap, rfl, hgap⟩ := mark_of_next ht rfl
    obtain ⟨m, ms, rest, rfl, hms, hclose⟩ := h
    refine ⟨gap, m :: ms, rest, ?_, hgap, hms, hclose⟩
    rw [List.map_cons, following_cons, List.cons_append, List.append_assoc]
  · cases hs
    obtain ⟨gap, rfl, hgap⟩ := mark_of_next ht rfl
    exact ⟨gap, [], rest, rfl, hgap, nofun, h⟩
  · cases hs

/-! ### The whole run -/

/-- A document that breaks nowhere meets the demands of the place it is followed from. -/
theorem demands_of_done {due : Due} {stack : List Frame} {cs : List Char}
    (h : Done (build due stack cs)) : Demands due stack cs := by
  fun_induction build due stack cs with
  | case1 cs v =>
      have hnone := Option.isSome_eq_false_iff.mp h.2
      exact blank_of_next (Option.isNone_iff_eq_none.mp hnone)
  -- a run that breaks, at the end of the text or at a token, leaves a container open
  | case2 cs due stack hopen => exact absurd h.1 (skip_broken (step_ended due stack) hopen)
  | case3 cs due stack hopen t rest _ hstep => exact absurd h.1 (skip_broken hstep hopen)
  | case4 cs due stack _ t rest hnext due' stack' hstep ih =>
      exact demands_of_step hstep hnext (ih h)

theorem wellFormed_of_done {text : String} (h : Done (ofText text)) : WellFormed text := by
  obtain ⟨lead, value, trail, htext, hlead, hvalue, htrail⟩ := demands_of_done h
  exact ⟨lead, value, trail, htext, hlead, hvalue, htrail⟩

/-- A text that holds a document for a reader which leaves no container open is well-formed. -/
theorem wellFormed_of_read {α : Type} {decode : Reading → Except Fault α} {text : String} {a : α}
    (hskip : ∀ {v a}, decode v = .ok a → v.skip = .ok ()) (h : read decode text = .ok a) :
    WellFormed text := by
  rw [read] at h
  split at h
  · cases h
  · rename_i hvalue
    split at h
    · cases h
    · rename_i htrailing
      exact wellFormed_of_done ⟨hskip hvalue, Bool.eq_false_iff.mpr htrailing⟩

/-- A document can be passed over exactly if its text is well-formed. -/
theorem read_skip_iff {text : String} : read Reading.skip text = .ok () ↔ WellFormed text := by
  constructor
  · exact wellFormed_of_read id
  · rintro ⟨lead, value, trail, htext, hlead, hvalue, htrail⟩
    exact read_eq_ok (ofText_of_wellFormed htext hlead hvalue htrail) (yields_value hvalue).2 rfl

end MeshAccess.Json.Document
