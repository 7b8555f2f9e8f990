import MeshAccess.Json.Reading
import MeshAccess.Proofs.Tokens

/-!
# Reading what is written

`reading` is the tree of a written value, and the main statement is that the text of a value has
that tree as its document, whatever white space the layout puts between the parts (`ofText_compact`,
`ofText_pretty`). From there on a text and a value are the same to every reader.

The tree is built over the tokens with the open containers on a stack. Each token is one step
(`build_of_step`), so the text of a value is followed step by step: `build_write` says that it leads
from where a value is due to where a separator is due behind it, in any stack and with any text
following. It is an induction on the value, with one for the items or members of each container.
-/

namespace MeshAccess.Json

open MeshAccess.Text

/-! ## Trees of values -/

mutual

/-- The tree of a written value. -/
def reading : Json → Reading
  | .null => .leaf .null
  | .bool b => .leaf (.bool b)
  | .natural n => .leaf (.natural n)
  | .text s => .leaf (.text s)
  | .array vs => .array (readItems vs) none
  | .object ms => .object (readMembers ms) none

/-- The trees of written items. -/
def readItems : List Json → List Reading
  | [] => []
  | v :: vs => reading v :: readItems vs

/-- The trees of written members. -/
def readMembers : List (String × Json) → List (Token × Reading)
  | [] => []
  | (k, v) :: ms => (.text k, reading v) :: readMembers ms

end

theorem readMembers_eq (ms : List (String × Json)) :
    readMembers ms = ms.map fun (k, v) => (.text k, reading v) := by
  induction ms with
  | nil => rfl
  | cons m ms ih => rw [readMembers, ih, List.map_cons]

theorem readMembers_append (ms ns : List (String × Json)) :
    readMembers (ms ++ ns) = readMembers ms ++ readMembers ns := by
  rw [readMembers_eq, readMembers_eq, readMembers_eq, List.map_append]

/-- A value that can be read back: its naturals fit into 64 bits. -/
inductive Readable : Json → Prop where
  | null : Readable .null
  | bool (b : Bool) : Readable (.bool b)
  | natural {n : Nat} (h : n < Nat.pow 2 64) : Readable (.natural n)
  | text (s : String) : Readable (.text s)
  | array {vs : List Json} (h : ∀ v ∈ vs, Readable v) : Readable (.array vs)
  | object {ms : List (String × Json)} (h : ∀ m ∈ ms, Readable m.2) : Readable (.object ms)

/-- A layout puts nothing but white space between the parts. -/
structure Layout.Blank (l : Layout) : Prop where
  gap : ∀ depth, ∀ c ∈ l.gap depth, Token.isBlank c = true
  behindColon : ∀ c ∈ l.behindColon, Token.isBlank c = true

theorem Layout.blank_compact : Layout.compact.Blank := ⟨nofun, nofun⟩

theorem Layout.blank_indented : Layout.indented.Blank := by
  refine ⟨?_, ?_⟩
  · intro depth c hc
    rcases List.mem_cons.mp hc with rfl | hc
    · rfl
    · rw [List.eq_of_mem_replicate hc]
      rfl
  · intro c hc
    rw [List.mem_singleton.mp hc]
    rfl

namespace Document

/-! ## Steps -/

/-- A token that fits is one step. -/
theorem build_of_step {due due' : Due} {stack stack' : List Frame} {t : Token}
    {cs rest : List Char} (ht : Token.next cs = some (t, rest))
    (hs : step due stack t = some (due', stack')) :
    build due stack cs = build due' stack' rest := by
  rw [build]
  · split
    · rename_i h
      rw [ht] at h
      cases h
    · rename_i t' rest' h
      obtain ⟨rfl, rfl⟩ := Prod.mk.inj (Option.some.inj (ht.symm.trans h))
      rw [hs]
  · -- at the end of a document no token fits
    rintro v rfl rfl
    cases hs

/-- The text counts only by its next token. -/
theorem build_congr {cs cs' : List Char} (h : Token.next cs = Token.next cs') (due : Due)
    (stack : List Frame) : build due stack cs = build due stack cs' := by
  rw [build.eq_def, build.eq_def due stack cs']
  split
  · rw [h]
  · rw [h]

/-- White space where a token is due makes no difference. -/
theorem build_append_of_blank {gap : List Char} (h : ∀ c ∈ gap, Token.isBlank c = true)
    (due : Due) (stack : List Frame) (cs : List Char) :
    build due stack (gap ++ cs) = build due stack cs :=
  build_congr (Token.next_append_of_blank h cs) due stack

/-- A value is due inside the containers of `stack`: as a whole value, or as the first item of an
array, whose end would fit there too. -/
def Awaits (due : Due) (before stack : List Frame) : Prop :=
  ∀ t, t ≠ .closeArray → step due before t = stepValue stack t

theorem awaits_value (stack : List Frame) : Awaits .value stack stack := fun _ _ => rfl

theorem awaits_firstItem (stack : List Frame) :
    Awaits .firstItem stack (.items [] :: stack) := by
  intro t ht
  cases t with
  | closeArray => exact absurd rfl ht
  | _ => rfl

/-- A value that is a single token is read in one step. -/
theorem build_scalar {due : Due} {before stack : List Frame} (hd : Awaits due before stack)
    {t : Token} {cs rest : List Char} (ht : Token.next cs = some (t, rest))
    (hclose : t ≠ .closeArray) (hs : stepValue stack t = some (.separator (.leaf t), stack)) :
    build due before cs = build (.separator (.leaf t)) stack rest :=
  build_of_step ht ((hd t hclose).trans hs)

/-! ## Following a written value -/

variable {l : Layout}

/-- Following the text of `v` at any depth leads behind the value, in any stack. -/
def Followed (l : Layout) (v : Json) : Prop :=
  ∀ (depth : Nat) (due : Due) (before stack : List Frame) (rest : List Char),
    Awaits due before stack → Ends rest →
      build due before (write l depth v ++ rest) = build (.separator v.reading) stack rest

/-- Numbers end before what follows an item. -/
theorem ends_writeItems (hl : l.Blank) (depth : Nat) (vs : List Json) (rest : List Char) :
    Ends (writeItems l depth vs ++ rest) := by
  cases vs with
  | nil =>
      rw [writeItems, List.append_assoc]
      exact ends_append_of_blank (hl.gap depth) (ends_cons (by decide) rest)
  | cons v vs =>
      rw [writeItems]
      exact ends_cons (by decide) _

/-- Numbers end before what follows a member. -/
theorem ends_writeMembers (hl : l.Blank) (depth : Nat) (ms : List (String × Json))
    (rest : List Char) : Ends (writeMembers l depth ms ++ rest) := by
  cases ms with
  | nil =>
      rw [writeMembers, List.append_assoc]
      exact ends_append_of_blank (hl.gap depth) (ends_cons (by decide) rest)
  | cons m ms =>
      rw [writeMembers]
      exact ends_cons (by decide) _

/-- Behind an item, the text of an array leads to the end of the array. -/
theorem build_writeItems (hl : l.Blank) {vs : List Json} (hvs : ∀ v ∈ vs, Followed l v)
    (depth : Nat) (done : Reading) (before : List Reading) (stack : List Frame)
    (rest : List Char) :
    build (.separator done) (.items before :: stack) (writeItems l depth vs ++ rest)
      = build (.separator (.array ((done :: before).reverse ++ readItems vs) none)) stack rest := by
  induction vs generalizing done before with
  | nil =>
      rw [writeItems, List.append_assoc, build_append_of_blank (hl.gap depth),
        List.singleton_append, readItems, List.append_nil]
      exact build_of_step (Token.next_single _ (by decide) rfl) rfl
  | cons v vs ih =>
      have hv : Followed l v := hvs v List.mem_cons_self
      have htail := ih (fun v hv => hvs v (List.mem_cons_of_mem _ hv)) v.reading (done :: before)
      rw [writeItems]
      simp only [List.cons_append, List.append_assoc]
      rw [build_of_step (Token.next_single .comma (by decide) rfl) rfl,
        build_append_of_blank (hl.gap _),
        hv _ _ _ _ _ (awaits_value _) (ends_writeItems hl depth vs rest), htail, readItems,
        List.reverse_cons, List.append_assoc, List.singleton_append]

/-- A member leads from where its key is due to behind its value. -/
theorem build_member (hl : l.Blank) {v : Json} (hv : Followed l v) {due : Due}
    {stack stack' : List Frame} {before : List (Token × Reading)} {k : String}
    (hk : step due stack (.text k) = some (.colon before (.text k), stack')) (depth : Nat)
    {rest : List Char} (hr : Ends rest) :
    build due stack (writeText k ++ ':' :: (l.behindColon ++ (write l depth v ++ rest)))
      = build (.separator v.reading) (.members before (.text k) :: stack') rest := by
  rw [build_of_step (Token.next_writeText k _) hk,
    build_of_step (Token.next_single .colon (by decide) rfl) rfl,
    build_append_of_blank hl.behindColon]
  exact hv depth _ _ _ _ (awaits_value _) hr

/-- Behind a member, the text of an object leads to the end of the object. -/
theorem build_writeMembers (hl : l.Blank) {ms : List (String × Json)}
    (hms : ∀ m ∈ ms, Followed l m.2) (depth : Nat) (k : String) (done : Reading)
    (before : List (Token × Reading)) (stack : List Frame) (rest : List Char) :
    build (.separator done) (.members before (.text k) :: stack) (writeMembers l depth ms ++ rest)
      = build (.separator (.object (((.text k, done) :: before).reverse ++ readMembers ms) none))
          stack rest := by
  induction ms generalizing k done before with
  | nil =>
      rw [writeMembers, List.append_assoc, build_append_of_blank (hl.gap depth),
        List.singleton_append, readMembers, List.append_nil]
      exact build_of_step (Token.next_single _ (by decide) rfl) rfl
  | cons m ms ih =>
      obtain ⟨k', v⟩ := m
      have hv : Followed l v := hms (k', v) List.mem_cons_self
      have htail := ih (fun m hm => hms m (List.mem_cons_of_mem _ hm)) k' v.reading
        ((.text k, done) :: before)
      rw [writeMembers]
      simp only [List.cons_append, List.append_assoc]
      rw [build_of_step (Token.next_single .comma (by decide) rfl) rfl,
        build_append_of_blank (hl.gap _),
        build_member hl hv rfl _ (ends_writeMembers hl depth ms rest), htail, readMembers,
        List.reverse_cons, List.append_assoc, List.singleton_append]

theorem followed_array (hl : l.Blank) {vs : List Json} (hvs : ∀ v ∈ vs, Followed l v) :
    Followed l (.array vs) := by
  intro depth due before stack rest hd hr
  cases vs with
  | nil =>
      rw [write, reading, readItems, List.cons_append,
        build_of_step (Token.next_single .openArray (by decide) rfl) (hd .openArray nofun)]
      exact build_of_step (Token.next_single _ (by decide) rfl) rfl
  | cons v vs =>
      have hv : Followed l v := hvs v List.mem_cons_self
      have hrest : ∀ w ∈ vs, Followed l w := fun w hw => hvs w (List.mem_cons_of_mem _ hw)
      rw [write, reading, readItems]
      simp only [List.cons_append, List.append_assoc]
      rw [build_of_step (Token.next_single .openArray (by decide) rfl) (hd .openArray nofun),
        build_append_of_blank (hl.gap _),
        hv _ _ _ _ _ (awaits_firstItem stack) (ends_writeItems hl depth vs rest),
        build_writeItems hl hrest]
      rfl

theorem followed_object (hl : l.Blank) {ms : List (String × Json)}
    (hms : ∀ m ∈ ms, Followed l m.2) : Followed l (.object ms) := by
  intro depth due before stack rest hd hr
  cases ms with
  | nil =>
      rw [write, reading, readMembers, List.cons_append,
        build_of_step (Token.next_single .openObject (by decide) rfl) (hd .openObject nofun)]
      exact build_of_step (Token.next_single _ (by decide) rfl) rfl
  | cons m ms =>
      obtain ⟨k, v⟩ := m
      have hv : Followed l v := hms (k, v) List.mem_cons_self
      have hrest : ∀ m ∈ ms, Followed l m.2 := fun m hm => hms m (List.mem_cons_of_mem _ hm)
      rw [write, reading, readMembers]
      simp only [List.cons_append, List.append_assoc]
      rw [build_of_step (Token.next_single .openObject (by decide) rfl) (hd .openObject nofun),
        build_append_of_blank (hl.gap _),
        build_member hl hv rfl _ (ends_writeMembers hl depth ms rest),
        build_writeMembers hl hrest]
      rfl

/-- Following the text of a value leads behind it. -/
theorem build_write (hl : l.Blank) {v : Json} (hv : v.Readable) : Followed l v := by
  -- by induction on the value; the items of a container are followed by the hypothesis
  induction hv with
  | null =>
      intro depth due before stack rest hd hr
      exact build_scalar hd (Token.next_cons (by decide) _) nofun rfl
  | bool b =>
      intro depth due before stack rest hd hr
      cases b with
      | true => exact build_scalar hd (Token.next_cons (by decide) _) nofun rfl
      | false => exact build_scalar hd (Token.next_cons (by decide) _) nofun rfl
  | natural h =>
      intro depth due before stack rest hd hr
      exact build_scalar hd (Token.next_writeNatural h hr) nofun rfl
  | text s =>
      intro depth due before stack rest hd hr
      exact build_scalar hd (Token.next_writeText s rest) nofun rfl
  | array _ ih => exact followed_array hl ih
  | object _ ih => exact followed_object hl ih

theorem build_whole (hl : l.Blank) {v : Json} (hv : v.Readable) :
    build .value [] (write l 0 v) = ⟨v.reading, false⟩ := by
  have h := build_write hl hv 0 .value [] [] [] (awaits_value []) ends_nil
  rw [List.append_nil] at h
  rw [h, build]
  rfl

/-- The compact text of a value has the tree of the value as its document. -/
theorem ofText_compact {v : Json} (hv : v.Readable) : ofText v.compact = ⟨v.reading, false⟩ := by
  rw [ofText, compact, String.toList_ofList]
  exact build_whole Layout.blank_compact hv

/-- The indented text of a value has the tree of the value as its document. -/
theorem ofText_pretty {v : Json} (hv : v.Readable) : ofText v.pretty = ⟨v.reading, false⟩ := by
  rw [ofText, pretty, String.toList_ofList]
  exact build_whole Layout.blank_indented hv

/-! ## Reading documents -/

/-- The document of a text is built from its characters. -/
theorem ofText_eq_build {text : String} {cs : List Char} (h : text = String.ofList cs) :
    ofText text = build .value [] cs := by
  rw [h, ofText, String.toList_ofList]

/-- A document is read as its value is, if nothing follows the value. -/
theorem read_eq_ok {α : Type} {decode : Reading → Except Fault α} {text : String} {d : Document}
    {a : α} (hd : ofText text = d) (hv : decode d.value = .ok a) (ht : d.trailing = false) :
    read decode text = .ok a := by
  rw [read]
  simp only [hd, hv, ht, Bool.false_eq_true, if_false]

end Document

/-- A result can be looked at without comparing faults. -/
theorem eq_ok_of_toOption {ε α : Type} {x : Except ε α} {a : α} (h : x.toOption = some a) :
    x = .ok a := by
  cases x with
  | error f => exact nomatch h
  | ok b => exact congrArg Except.ok (Option.some.inj h)

end MeshAccess.Json
