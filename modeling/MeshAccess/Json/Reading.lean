import MeshAccess.Json.Token

/-!
# Documents as they are read

A `Reading` is the tree of a document as far as its text can be followed: where the text breaks,
the tree ends in the token that does not fit, and every container still open there records the
fault that stops it. Reading a value from the tree in document order therefore meets the faults of
the text and those of the value in the order of the text, which is the order they are reported in.

`Document.ofText` builds the tree in one pass over the tokens with the open containers on a stack,
so it follows any depth of nesting. `Reading.skip` passes over a value that nothing is wanted of.
-/

namespace MeshAccess.Json

/-- The tree of a document, as far as its text can be followed. -/
inductive Reading where
  /-- A token where a value is due. -/
  | leaf (token : Token)
  /-- An array: its items, and the fault that keeps it from being closed. -/
  | array (items : List Reading) (stop : Option Fault)
  /-- An object: the tokens that stand in key position with their values, and the fault that keeps
  it from being closed. -/
  | object (members : List (Token × Reading)) (stop : Option Fault)

namespace Reading

/-- The fault of finding this where a value of another kind is wanted. -/
def readFault : Reading → Fault
  | .leaf t => t.readFault
  | .array _ _ | .object _ _ => .mismatch .shape

/-- Passes over a value; a container cannot be passed over if it is never closed. -/
def skip : Reading → Except Fault Unit
  | .leaf t => t.skipFault.elim (.ok ()) .error
  | .array _ stop | .object _ stop => stop.elim (.ok ()) .error

end Reading

/-- A document: its value, and whether anything but white space follows it. -/
structure Document where
  value : Reading
  trailing : Bool

namespace Document

/-! ## Building the tree -/

/-- An open container with what it holds so far, latest first. -/
inductive Frame where
  | items (before : List Reading)
  | members (before : List (Token × Reading)) (key : Token)

/-- What is due at a place of a document. -/
inductive Due where
  | value
  /-- The first item of an array or its end. -/
  | firstItem
  /-- The first key of an object or its end. -/
  | firstKey
  /-- A key behind a comma. -/
  | nextKey (before : List (Token × Reading))
  /-- The colon behind a key. -/
  | colon (before : List (Token × Reading)) (key : Token)
  /-- A comma or an end behind the value `done`. -/
  | separator (done : Reading)

/-- The step over a token where a value is due. -/
def stepValue (stack : List Frame) (t : Token) : Option (Due × List Frame) :=
  match t with
  | .openArray => some (.firstItem, stack)
  | .openObject => some (.firstKey, stack)
  | t => if t.skipFault.isNone then some (.separator (.leaf t), stack) else none

/-- The step over a token where a key is due. -/
def stepKey (before : List (Token × Reading)) (stack : List Frame) (t : Token) :
    Option (Due × List Frame) :=
  match t with
  | .text _ | .brokenText _ none => some (.colon before t, stack)
  | _ => none

/-- What is due behind a token, none if the token does not fit. -/
def step (due : Due) (stack : List Frame) (t : Token) : Option (Due × List Frame) :=
  match due, stack, t with
  | .value, stack, t => stepValue stack t
  | .firstItem, stack, .closeArray => some (.separator (.array [] none), stack)
  | .firstItem, stack, t => stepValue (.items [] :: stack) t
  | .firstKey, stack, .closeObject => some (.separator (.object [] none), stack)
  | .firstKey, stack, t => stepKey [] stack t
  | .nextKey before, stack, t => stepKey before stack t
  | .colon before key, stack, .colon => some (.value, .members before key :: stack)
  | .separator v, .items before :: stack, .comma => some (.value, .items (v :: before) :: stack)
  | .separator v, .items before :: stack, .closeArray =>
    some (.separator (.array (v :: before).reverse none), stack)
  | .separator v, .members before key :: stack, .comma => some (.nextKey ((key, v) :: before), stack)
  | .separator v, .members before key :: stack, .closeObject =>
    some (.separator (.object ((key, v) :: before).reverse none), stack)
  | _, _, _ => none

/-- The tree in which the containers of the stack stay open around `v`. -/
def unwind (f : Fault) (v : Reading) : List Frame → Reading
  | [] => v
  | .items before :: stack => unwind f (.array (v :: before).reverse (some f)) stack
  | .members before key :: stack =>
    unwind f (.object ((key, v) :: before).reverse (some f)) stack

/-- The tree in which an object stays open with a key position that holds `t`. -/
def unwindKey (before : List (Token × Reading)) (stack : List Frame) (t : Token) : Reading :=
  let f :=
    match t with
    | .ended => .cutShort
    | .brokenText _ (some f) => f
    | _ => .malformed
  unwind f (.object ((t, .leaf .stray) :: before).reverse (some f)) stack

/-- The tree of a document that breaks at the token `t`, where it does not fit. -/
def broken (due : Due) (stack : List Frame) (t : Token) : Reading :=
  let f :=
    match t with
    | .ended => Fault.cutShort
    | _ => .malformed
  match due, stack with
  | .value, stack => unwind (t.skipFault.getD .malformed) (.leaf t) stack
  | .firstItem, stack => unwind (t.skipFault.getD .malformed) (.leaf t) (.items [] :: stack)
  | .firstKey, stack =>
    match t with
    | .ended => unwind f (.object [] (some f)) stack
    | t => unwindKey [] stack t
  | .nextKey before, stack => unwindKey before stack t
  | .colon before key, stack =>
    let missing : Token :=
      match t with
      | .ended => .ended
      | _ => .stray
    unwind f (.leaf missing) (.members before key :: stack)
  | .separator v, .items before :: stack =>
    unwind f (.array (v :: before).reverse (some f)) stack
  | .separator v, .members before key :: stack =>
    unwind f (.object ((key, v) :: before).reverse (some f)) stack
  | .separator v, [] => v

/-- The document whose text goes on with `cs` where `due` is due inside the containers of the
stack. -/
def build (due : Due) (stack : List Frame) (cs : List Char) : Document :=
  match due, stack with
  | .separator v, [] => ⟨v, (Token.next cs).isSome⟩
  | due, stack =>
    match _h : Token.next cs with
    | none => ⟨broken due stack .ended, false⟩
    | some (t, rest) =>
      match step due stack t with
      | none => ⟨broken due stack t, false⟩
      | some (due, stack) => build due stack rest
termination_by cs.length
decreasing_by exact Token.length_of_next _h

/-- The document that a text holds. -/
def ofText (text : String) : Document := build .value [] text.toList

/-- Reads a whole document: a fault of the value comes before one of what follows it. -/
def read {α : Type} (value : Reading → Except Fault α) (text : String) : Except Fault α :=
  let d := ofText text
  match value d.value with
  | .error f => .error f
  | .ok a => if d.trailing then .error .malformed else .ok a

end Document

end MeshAccess.Json
