import FlowFacts.Toml.Value

namespace FlowFacts.Toml

/-- A dotted key, which has at least one part, and its value. -/
structure Pair where
  keys : List String
  value : Value

/-- The line that a section starts with. -/
inductive Header where
  /-- Names a table. -/
  | table (keys : List String)
  /-- Adds a table to a list of tables. -/
  | element (keys : List String)

/-- A header and the pairs that follow it. -/
structure Section where
  header : Header
  pairs : List Pair

/-- A document: the pairs before the first header, and the sections. A table has one header at most,
dotted keys add to tables that only dotted keys have made, and a key is given once. -/
structure Document where
  pairs : List Pair
  sections : List Section

namespace Members

/-- Changes the members of the last table of a list. -/
def inLast (f : Members → Option Members) (items : List Value) : Option (List Value) :=
  match items.getLast? with
  | some (.table origin inner) =>
    (f inner).map fun inner => items.dropLast ++ [.table origin inner]
  | _ => none

/-- Changes the members of a table on the way of a dotted key, which is new or made by dotted keys.
On the way to another table it may also be one that has no header yet, or a list of tables. -/
def throughKey (f : Members → Option Members) (last : Bool) (key : String) (ms : Members) :
    Option Members :=
  match ms.get? key with
  | none => (f .empty).map fun inner => ms.insert key (.table .dotted inner)
  | some (.table .dotted inner) => (f inner).map fun inner => ms.insert key (.table .dotted inner)
  | some (.table .implied inner) =>
    if last then none else (f inner).map fun inner => ms.insert key (.table .implied inner)
  | some (.array true items) =>
    if last then none else (inLast f items).map fun items => ms.insert key (.array true items)
  | some _ => none

def addPair (value : Value) : List String → Members → Option Members
  | [], _ => none
  | [key], ms => if (ms.get? key).isSome then none else some (ms.insert key value)
  | key :: rest, ms => throughKey (addPair value rest) (rest.length = 1) key ms

def addPairs (pairs : List Pair) (ms : Members) : Option Members :=
  pairs.foldlM (fun ms pair => addPair pair.value pair.keys ms) ms

/-- Changes the members of a table on the way of a header, or of the last of a list of tables. -/
def throughHeader (f : Members → Option Members) (key : String) (ms : Members) : Option Members :=
  match ms.get? key with
  | none => (f .empty).map fun inner => ms.insert key (.table .implied inner)
  | some (.table .inline _) => none
  | some (.table origin inner) => (f inner).map fun inner => ms.insert key (.table origin inner)
  | some (.array true items) => (inLast f items).map fun items => ms.insert key (.array true items)
  | some _ => none

/-- Opens a table and fills it. One that headers have implied moves to the end. -/
def openTable (fill : Members → Option Members) : List String → Members → Option Members
  | [], _ => none
  | [key], ms =>
    match ms.get? key with
    | none => (fill .empty).map fun inner => ms.insert key (.table .header inner)
    | some (.table .implied inner) =>
      (fill inner).map fun inner => (ms.erase key).insert key (.table .header inner)
    | some _ => none
  | key :: rest, ms => throughHeader (openTable fill rest) key ms

/-- Adds a table to a list of tables and fills it. -/
def openElement (fill : Members → Option Members) : List String → Members → Option Members
  | [], _ => none
  | [key], ms =>
    match ms.get? key with
    | none => (fill .empty).map fun inner => ms.insert key (.array true [.table .header inner])
    | some (.array true items) =>
      (fill .empty).map fun inner => ms.insert key (.array true (items ++ [.table .header inner]))
    | some _ => none
  | key :: rest, ms => throughHeader (openElement fill rest) key ms

def addSection (ms : Members) (s : Section) : Option Members :=
  match s.header with
  | .table keys => openTable (addPairs s.pairs) keys ms
  | .element keys => openElement (addPairs s.pairs) keys ms

end Members

/-- The table that a document describes, unless one of its lines adds where it must not. -/
def Document.members (d : Document) : Option Members :=
  (Members.addPairs d.pairs .empty).bind fun ms => d.sections.foldlM Members.addSection ms

end FlowFacts.Toml
