import ModuleLang.Diagnostic
import ModuleLang.Tree.InternalError
import Std.Data.TreeMap.Basic

/-!
Spans of nodes, kept beside the arena so that every later stage can report on
any node. A node gets its span once. Actions on the table keep the state that
they had reached when they fail.
-/

namespace ModuleLang

structure SpanTable where
  entries : Std.TreeMap Nat Span

namespace SpanTable

def empty : SpanTable := ⟨∅⟩

instance : Inhabited SpanTable := ⟨empty⟩

def size (table : SpanTable) : Nat := table.entries.size

def contains (table : SpanTable) (node : NodeId) : Bool := table.entries.contains node.index

def span? (table : SpanTable) (node : NodeId) : Option Span := table.entries[node.index]?

def insert (table : SpanTable) (node : NodeId) (span : Span) : SpanTable :=
  ⟨table.entries.insert node.index span⟩

def erase (table : SpanTable) (node : NodeId) : SpanTable := ⟨table.entries.erase node.index⟩

/-- Span of a node that must have one. -/
def span (table : SpanTable) (node : NodeId) : Except InternalError Span :=
  match table.span? node with
  | some span => .ok span
  | none => .error (.missingSpan node)

/-- Smallest span that covers all of some nodes. -/
def range (table : SpanTable) : List NodeId → Except InternalError Span
  | [] => .error .emptyNodeRange
  | first :: rest => do
      rest.foldlM (fun covered node => return covered.union (← table.span node))
        (← table.span first)

/-- A diagnostic at a node. -/
def report (table : SpanTable) (fileName : String) (node : NodeId) (kind : DiagnosticKind) :
    Except InternalError Diagnostic := do
  return ⟨kind, ← table.span node, fileName⟩

/-- A diagnostic that covers several nodes. -/
def reportRange (table : SpanTable) (fileName : String) (nodes : List NodeId)
    (kind : DiagnosticKind) : Except InternalError Diagnostic := do
  return ⟨kind, ← table.range nodes, fileName⟩

/-- An action that may change the table and may fail. -/
abbrev Action := EStateM InternalError SpanTable

/-- Records the span of a node that has none. -/
def add (node : NodeId) (span : Span) : Action Unit := do
  if (← get).contains node then throw (.duplicateSpan node)
  else modify fun table => table.insert node span

/-- Records a span by its ends. Ends out of order are refused before a node that
has a span. -/
def addBetween (node : NodeId) (start stop : Position) : Action Unit :=
  match Span.ofEnds? start stop with
  | some span => add node span
  | none => throw (.reversedSpan node start stop)

/-- Moves the span of `old` to `new`. The old node is forgotten first, also when
the new one then turns out to have a span. -/
def move (old new : NodeId) : Action Unit := do
  match (← get).span? old with
  | none => throw (.missingSpan old)
  | some span =>
      modify fun table => table.erase old
      add new span

/-- Gives `target` the span of `source`, which keeps it. -/
def copy (source target : NodeId) : Action Unit := do
  match (← get).span? source with
  | none => throw (.missingSpan source)
  | some span => add target span

end SpanTable

end ModuleLang
