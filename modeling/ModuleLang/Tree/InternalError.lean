import ModuleLang.Position
import ModuleLang.Tree.Node

/-!
Internal errors: a stage met a state that no earlier stage produces. They stop
the stage, unlike diagnostics, which are about the text.
-/

namespace ModuleLang

inductive InternalError
  | duplicateSpan (node : NodeId)
  | reversedSpan (node : NodeId) (start stop : Position)
  | missingSpan (node : NodeId)
  | emptyNodeRange
  | unexpectedNode (node : NodeId) (expected : String)
  /-- A diagnostic would end before it starts. -/
  | reversedReport (start stop : Position)
  /-- A recursion was deeper than its budget. -/
  | exhausted
deriving DecidableEq

namespace InternalError

def message : InternalError → String
  | duplicateSpan node => "node " ++ node.text ++ " is already present in the symbol table"
  | reversedSpan node start stop =>
      "span of node " ++ node.text ++ " starts at " ++ start.text ++ " but ends at " ++ stop.text
  | missingSpan node => "node " ++ node.text ++ " has no recorded source span"
  | emptyNodeRange => "cannot derive a span from an empty set of nodes"
  | unexpectedNode node expected => "node " ++ node.text ++ " is not a " ++ expected
  | reversedReport start stop =>
      "diagnostic span starts at " ++ start.text ++ " but ends at " ++ stop.text
  | exhausted => "recursion budget exhausted"

end InternalError

namespace Span

/-- Span of a diagnostic. -/
def forReport (start stop : Position) : Except InternalError Span :=
  match ofEnds? start stop with
  | some span => .ok span
  | none => .error (.reversedReport start stop)

end Span

end ModuleLang
