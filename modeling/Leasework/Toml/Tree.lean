import Leasework.Document

/-!
# `Leasework.Toml.Tree`: a document that is being put together

Statements of a TOML text arrive one by one, so the tables of the finished document
grow while it is read. Whether a table may still grow, and by what, depends on how it
came about:

* a table nobody has named yet, only passed through, is *implicit*;
* a table that came about by a dotted key is *dotted*.

`Tree.reach` goes down a path and creates what is missing on the way. A header or a
key that would define something twice is refused.
-/

set_option autoImplicit false

namespace Leasework.Toml

/-- A table, a value or a series of tables inside a growing document. -/
inductive Tree where
  /-- A finished value. -/
  | leaf (d : Document)
  /-- A table, with its two marks and its entries in order. -/
  | table (implicit dotted : Bool) (entries : List (String × Tree))
  /-- A series of tables, the last one first. -/
  | series (tables : List Tree)
deriving Inhabited

namespace Tree

/-- A table that a header or the document itself stands for. -/
def empty : Tree := .table false false []

/-- Replaces the entry of a name, or adds one at the end. -/
def put (entries : List (String × Tree)) (name : String) (t : Tree) : List (String × Tree) :=
  match entries with
  | [] => [(name, t)]
  | (n, u) :: rest => if n = name then (name, t) :: rest else (n, u) :: put rest name t

/-- Changes the table at the end of a path. A missing table is created as an implicit
one. A dotted key does not go through a table that has been named; a series is
entered at its last table. -/
def reach (dotted : Bool) (change : Tree → Option Tree) : List String → Tree → Option Tree
  | [], t => change t
  | name :: path, .table i d entries =>
    match entries.lookup name with
    | none =>
      (reach dotted change path (.table true dotted [])).map
        fun t => .table i d (put entries name t)
    | some (.leaf _) => none
    | some (.series []) => none
    | some (.series (last :: before)) =>
      (reach dotted change path last).map
        fun t => .table i d (put entries name (.series (t :: before)))
    | some (.table i' d' entries') =>
      if dotted && !i' then none
      else
        (reach dotted change path (.table i' d' entries')).map
          fun t => .table i d (put entries name t)
  | _ :: _, _ => none

/-- Sets a new entry of a table. The entry may not be there yet, and a plain key does
not go into a table made by dotted keys, nor a dotted key into one that was not. -/
def setNew (dottedKey : Bool) (name : String) (value : Tree) : Tree → Option Tree
  | .table i d entries =>
    if d = dottedKey && (entries.lookup name).isNone then
      some (.table i d (entries ++ [(name, value)]))
    else none
  | _ => none

/-- Sets the value of a key, which may be dotted. -/
def setKey (t : Tree) (path : List String) (value : Tree) : Option Tree :=
  match path.getLast? with
  | none => none
  | some name => t.reach true (setNew (path.length ≠ 1) name value) path.dropLast

mutual

/-- The finished document. -/
def toDocument : Tree → Document
  | .leaf d => d
  | .table _ _ entries => .table (entriesToDocument entries)
  | .series tables => .list (seriesToDocument tables [])

/-- The finished entries of a table. -/
def entriesToDocument : List (String × Tree) → List (String × Document)
  | [] => []
  | (name, t) :: rest => (name, t.toDocument) :: entriesToDocument rest

/-- The finished tables of a series, in order. -/
def seriesToDocument : List Tree → List Document → List Document
  | [], acc => acc
  | t :: rest, acc => seriesToDocument rest (t.toDocument :: acc)

end

end Tree

/-- A document that is being read: what is finished, and the table that statements go
into until the next header. -/
structure Draft where
  /-- The finished part. -/
  root : Tree
  /-- The table that is open. -/
  current : Tree
  /-- The header of the open table; empty before the first header. -/
  path : List String
  /-- Whether the open table is one of a series. -/
  inSeries : Bool

namespace Draft

/-- An empty document. -/
def start : Draft := ⟨.empty, .empty, [], false⟩

/-- Enters a finished table under its name. It may take the place of an implicit one. -/
def enterTable (name : String) (t : Tree) : Tree → Option Tree
  | .table i d entries =>
    match entries.lookup name with
    | none => some (.table i d (entries ++ [(name, t)]))
    | some (.table true _ _) => some (.table i d (Tree.put entries name t))
    | some _ => none
  | _ => none

/-- Adds a finished table to the series of a name. -/
def extendSeries (name : String) (t : Tree) : Tree → Option Tree
  | .table i d entries =>
    match entries.lookup name with
    | none => some (.table i d (entries ++ [(name, .series [t])]))
    | some (.series tables) => some (.table i d (Tree.put entries name (.series (t :: tables))))
    | some _ => none
  | _ => none

/-- Closes the open table: it becomes part of the document. -/
def close (b : Draft) : Option Tree :=
  match b.path.getLast? with
  | none => some b.current
  | some name =>
    if b.inSeries then b.root.reach false (extendSeries name b.current) b.path.dropLast
    else b.root.reach false (enterTable name b.current) b.path.dropLast

/-- Makes room for a series under a name. -/
def openSeries (name : String) : Tree → Option Tree
  | .table i d entries =>
    match entries.lookup name with
    | none => some (.table i d (entries ++ [(name, .series [])]))
    | some (.series _) => some (.table i d entries)
    | some _ => none
  | _ => none

/-- Begins one more table of the series that a double-bracket header names. -/
def beginSeries (path : List String) (b : Draft) : Option Draft := do
  let root ← b.close
  let name ← path.getLast?
  let root ← root.reach false (openSeries name) path.dropLast
  some ⟨root, .empty, path, true⟩

/-- The entries that a header takes over: those of an implicit table that no dotted key
made. Any other entry of that name is a second definition. -/
def takenOver (name : String) : Tree → Option (List (String × Tree))
  | .table _ _ entries =>
    match entries.lookup name with
    | none => some []
    | some (.table true false inner) => some inner
    | some _ => none
  | _ => none

/-- The table at the end of a path, where there is one. -/
def find? : List String → Tree → Option Tree
  | [], t => some t
  | name :: path, .table _ _ entries =>
    match entries.lookup name with
    | some (.series (last :: _)) => find? path last
    | some t => find? path t
    | none => none
  | _ :: _, _ => none

/-- Takes an entry out of a table. -/
def withoutEntry (name : String) : Tree → Option Tree
  | .table i d entries => some (.table i d (entries.filter (·.1 ≠ name)))
  | _ => none

/-- Begins the table that a header names. -/
def beginTable (path : List String) (b : Draft) : Option Draft := do
  let root ← b.close
  let name ← path.getLast?
  let root ← root.reach false some path.dropLast
  let parent ← find? path.dropLast root
  let entries ← takenOver name parent
  let root ← root.reach false (withoutEntry name) path.dropLast
  some ⟨root, .table false false entries, path, false⟩

/-- Sets a key of the open table. -/
def setKey (path : List String) (value : Document) (b : Draft) : Option Draft := do
  let current ← b.current.setKey path (.leaf value)
  some { b with current := current }

/-- The finished document. -/
def finish (b : Draft) : Option Document := b.close.map Tree.toDocument

end Draft

end Leasework.Toml
