/-!
# TOML tables

The values of a TOML document, and the rules for building up its tables. A table may be written in
several ways: by its own header, on the way to a longer header, by a dotted key, or inline; and
what may be added to it later depends on how it came to be.
-/

namespace MeshAccess.Toml

/-- How a table came to be. -/
inductive Origin where
  /-- Written in braces; nothing can be added. -/
  | inline
  /-- By a dotted key. -/
  | dotted
  /-- On the way to a longer header. -/
  | passed
  /-- By its own header. -/
  | header
  deriving DecidableEq, Repr

/-- A value of a document. Numbers with a fraction or an exponent and times are not told apart
further. -/
inductive Value where
  | text (value : String)
  | integer (value : Int)
  | bool (value : Bool)
  | float
  | time
  | array (items : List Value)
  | table (origin : Origin) (entries : List (String × Value))
  /-- The tables of one header in double brackets, latest first. -/
  | tables (items : List (List (String × Value)))

/-- The entries of a table, in the order in which they were written. -/
abbrev Entries := List (String × Value)

namespace Entries

/-- The entries with another value for a key that has one. -/
def replace (key : String) (v : Value) (es : Entries) : Entries :=
  es.map fun e => if e.1 = key then (key, v) else e

/-- The entries with a value for a key that has none. -/
def add? (key : String) (v : Value) (es : Entries) : Option Entries :=
  match es.lookup key with
  | none => some (es ++ [(key, v)])
  | some _ => none

/-- The entries with a value for a key behind the keys of a path. The tables on the path are made
where they are missing; those that exist have to come from dotted keys, or from the way to a
header if the path goes on below them. -/
def addDotted? (path : List String) (key : String) (v : Value) (es : Entries) : Option Entries :=
  match path with
  | [] => add? key v es
  | k :: path =>
    match es.lookup k with
    | none => (addDotted? path key v []).map fun sub => es ++ [(k, .table .dotted sub)]
    | some (.table .dotted sub) =>
      (addDotted? path key v sub).map fun sub => replace k (.table .dotted sub) es
    | some (.table .passed sub) =>
      if path = [] then none
      else (addDotted? path key v sub).map fun sub => replace k (.table .passed sub) es
    | some (.tables (last :: before)) =>
      if path = [] then none
      else (addDotted? path key v last).map fun last => replace k (.tables (last :: before)) es
    | some _ => none

/-- The entries in which the table that a header path leads to is changed by `change`. Tables on
the path are made where they are missing; of several tables under one header the last counts. -/
def alter? (path : List String) (change : Entries → Option Entries) (es : Entries) :
    Option Entries :=
  match path with
  | [] => change es
  | k :: path =>
    match es.lookup k with
    | none => (alter? path change []).map fun sub => es ++ [(k, .table .passed sub)]
    | some (.table .inline _) => none
    | some (.table origin sub) =>
      (alter? path change sub).map fun sub => replace k (.table origin sub) es
    | some (.tables (last :: before)) =>
      (alter? path change last).map fun last => replace k (.tables (last :: before)) es
    | some _ => none

/-- The entries with a table for a header: a new one, or one that was only passed so far. -/
def open? (key : String) (es : Entries) : Option Entries :=
  match es.lookup key with
  | none => some (es ++ [(key, .table .header [])])
  | some (.table .passed sub) => some (replace key (.table .header sub) es)
  | some _ => none

/-- The entries with one more table for a header in double brackets. -/
def openNext? (key : String) (es : Entries) : Option Entries :=
  match es.lookup key with
  | none => some (es ++ [(key, .tables [[]])])
  | some (.tables items) => some (replace key (.tables ([] :: items)) es)
  | some _ => none

end Entries

end MeshAccess.Toml
