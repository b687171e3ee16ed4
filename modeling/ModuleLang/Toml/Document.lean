import ModuleLang.Toml

/-!
How the lines of a document build its tables. A header makes a table, or a new
element of a list of tables, and the lines behind it fill that. Tables that are
only passed through on the way to another one are implied, and a header may
define them later, once. Dotted keys make tables of their own kind, which only
dotted keys may extend.
-/

namespace ModuleLang.Toml

/-- Where a table comes from. -/
inductive TableOrigin
  /-- A header or an inline table defined it. -/
  | defined
  /-- Only headers of tables inside it were met. -/
  | implied
  /-- Dotted keys made it. -/
  | dotted
deriving DecidableEq

/-- A value under construction. -/
inductive Node
  | value (value : Toml)
  | table (origin : TableOrigin) (entries : List (String × Node))
  /-- A list of tables, of which the last one can be filled. -/
  | tables (items : List (List (String × Node)))
deriving Inhabited

abbrev Entries := List (String × Node)

namespace Entries

/-- Puts another node in place of that of a key. -/
def replace (key : String) (node : Node) (entries : Entries) : Entries :=
  entries.map fun entry => if entry.1 == key then (key, node) else entry

/-- Changes the last of a list of tables. -/
def inLast (change : Entries → Option Entries) (items : List Entries) : Option (List Entries) := do
  let last ← items.getLast?
  return items.dropLast ++ [← change last]

/-- Changes the entries of the table at a path of keys, as headers name it.
Tables that are missing on the way are implied. -/
def atPath (change : Entries → Option Entries) : (path : List String) → Entries → Option Entries
  | [], entries => change entries
  | key :: path, entries =>
      match entries.lookup key with
      | none => do return entries ++ [(key, .table .implied (← atPath change path []))]
      | some (.table origin inner) => do
          return replace key (.table origin (← atPath change path inner)) entries
      | some (.tables items) => do
          return replace key (.tables (← inLast (atPath change path) items)) entries
      | some (.value _) => none

/-- Adds a value under a dotted key. Tables that dotted keys did not make can be
passed through only if they are implied, and cannot take the value. -/
def assign (key : String) (value : Node) : (path : List String) → Entries → Option Entries
  | [], entries =>
      if (entries.lookup key).isSome then none else some (entries ++ [(key, value)])
  | name :: path, entries =>
      match entries.lookup name with
      | none => do return entries ++ [(name, .table .dotted (← assign key value path []))]
      | some (.table origin inner) =>
          if origin = .defined ∨ (path.isEmpty ∧ origin ≠ .dotted) then none
          else do return replace name (.table origin (← assign key value path inner)) entries
      | some (.tables items) =>
          if path.isEmpty then none
          else do return replace name (.tables (← inLast (assign key value path) items)) entries
      | some (.value _) => none

/-- Defines a table under a key. -/
def defineTable (key : String) (entries : Entries) : Option Entries :=
  match entries.lookup key with
  | none => some (entries ++ [(key, .table .defined [])])
  | some (.table .implied inner) => some (replace key (.table .defined inner) entries)
  | some _ => none

/-- Adds an element to the list of tables under a key. -/
def addElement (key : String) (entries : Entries) : Option Entries :=
  match entries.lookup key with
  | none => some (entries ++ [(key, .tables [[]])])
  | some (.tables items) => some (replace key (.tables (items ++ [[]])) entries)
  | some _ => none

end Entries

mutual

/-- The value that was built. -/
def Node.finish : Node → Toml
  | .value built => built
  | .table _ entries => .table (Node.finishEntries entries)
  | .tables items => .array (Node.finishTables items)

def Node.finishEntries : List (String × Node) → List (String × Toml)
  | [] => []
  | (key, node) :: entries => (key, node.finish) :: Node.finishEntries entries

def Node.finishTables : List (List (String × Node)) → List Toml
  | [] => []
  | entries :: items => .table (Node.finishEntries entries) :: Node.finishTables items

end

/-- One line of a document. The last part of a key stands apart from the path to
it. -/
inductive Line
  | blank
  | table (path : List String) (key : String)
  | element (path : List String) (key : String)
  | assignment (path : List String) (key : String) (value : Toml)

/-- What lines have built, and the path of the table that the next ones fill. -/
structure Document where
  entries : Entries
  current : List String

namespace Document

def empty : Document := ⟨[], []⟩

def add (document : Document) : Line → Option Document
  | .blank => some document
  | .table path key => do
      let entries ← Entries.atPath (Entries.defineTable key) path document.entries
      return ⟨entries, path ++ [key]⟩
  | .element path key => do
      let entries ← Entries.atPath (Entries.addElement key) path document.entries
      return ⟨entries, path ++ [key]⟩
  | .assignment path key value => do
      let entries ←
        Entries.atPath (Entries.assign key (.value value) path) document.current document.entries
      return { document with entries }

/-- The table that lines build. -/
def ofLines? (lines : List Line) : Option Toml := do
  let document ← lines.foldlM add empty
  return .table (Node.finishEntries document.entries)

end Document

/-- The value of an inline table, from its assignments. -/
def inlineTable? (assignments : List (List String × String × Toml)) : Option Toml := do
  let entries ← assignments.foldlM (fun entries (path, key, value) =>
    Entries.assign key (.value value) path entries) ([] : Entries)
  return .table (Node.finishEntries entries)

end ModuleLang.Toml
