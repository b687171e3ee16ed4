import ModuleLang.Parsing.Module
import ModuleLang.Proofs.Parsing.Progress
import ModuleLang.Proofs.RoundTrip.Reading

/-!
Productions that give a tree back. An operation of the parser that finds what it
looks for leaves fewer tokens to be read, nothing reported, and the nodes that there
were. A production reproduces something if it reads exactly the tokens of it, as
long as what follows cannot belong to it.
-/

namespace ModuleLang

namespace ParserState

/-- A state with a row of tokens left to be read. -/
structure Reads (kinds : List TokenKind) (state : ParserState) : Prop where
  shows' : state.context.cursor.Shows kinds
  recorded : ∀ id, (state.tree.spans.span? id).isSome → id.index < state.tree.arena.size

/-- Reading begins with all tokens in front. -/
theorem reads_of_shown {kinds : List TokenKind} {sequence : TokenSequence}
    (shows' : Cursor.Shows kinds ⟨sequence, 0⟩) (fileName : String) :
    Reads kinds (.initial sequence fileName) :=
  ⟨shows', fun id => by simp [initial, SourceTree.empty, SpanTable.empty, SpanTable.span?]⟩

/-- Nodes of one tree are also nodes of another. -/
def Keeps (before after : ParserState) : Prop :=
  ∀ id kind, before.tree.arena.kind? id = some kind → after.tree.arena.kind? id = some kind

/-- Reading went on from one state to another without a report, with some tokens
left. -/
structure Continues (kinds : List TokenKind) (before after : ParserState) : Prop where
  reads : after.Reads kinds
  cursor : before.context.cursor.Follows after.context.cursor
  diagnostics : after.context.diagnostics = before.context.diagnostics
  keeps : before.Keeps after

theorem Keeps.refl (state : ParserState) : state.Keeps state := fun _ _ => id

theorem Keeps.trans {first second third : ParserState} (left : first.Keeps second)
    (right : second.Keeps third) : first.Keeps third :=
  fun id kind found => right id kind (left id kind found)

namespace Continues

variable {kinds rest : List TokenKind} {first second third : ParserState}

theorem refl {state : ParserState} (reads : state.Reads kinds) : state.Continues kinds state :=
  ⟨reads, .refl reads.shows'.inside, rfl, .refl state⟩

theorem trans (left : first.Continues kinds second) (right : second.Continues rest third) :
    first.Continues rest third where
  reads := right.reads
  cursor := left.cursor.trans right.cursor
  diagnostics := right.diagnostics.trans left.diagnostics
  keeps := left.keeps.trans right.keeps

end Continues

/-- The tree below a node of a state. -/
def HasTree (state : ParserState) (id : NodeId) (tree : SyntaxTree) : Prop :=
  state.tree.arena.HasTree id tree

theorem HasTree.later {before after : ParserState} {id : NodeId} {tree : SyntaxTree}
    (holds : before.HasTree id tree) (keeps : before.Keeps after) : after.HasTree id tree :=
  Arena.HasTree.later keeps holds

end ParserState

namespace Parser

open ParserState TokenKind

variable {kind : TokenKind} {kinds rest : List TokenKind} {start : ParserState} {value : Type}

/-- The current token of a state. -/
theorem kind_of_reads (reads : start.Reads kinds) : start.context.current.kind = next kinds :=
  reads.shows'.current_kind

theorem kind_of_cons (reads : start.Reads (kind :: kinds)) : start.context.current.kind = kind :=
  kind_of_reads reads

theorem length_of_reads (reads : start.Reads kinds) : kinds.length < start.remaining :=
  reads.shows'.length

theorem yields_past {holds : PUnit → ParserState → Prop} (reads : start.Reads (kind :: kinds))
    (met : ∀ final, start.Continues kinds final → holds ⟨⟩ final) :
    Yields advance start holds := by
  unfold advance
  rw [yields_move]
  refine met _ ⟨⟨reads.shows'.rest, reads.recorded⟩, ?_, rfl, .refl _⟩
  exact Cursor.follows_advance_inline reads.shows'.inside

/-- There are no line ends in a row of tokens. -/
theorem skip_lines_stays (reads : start.Reads kinds) : start.context.skipLines = start.context := by
  rw [ParsingContext.skipLines, reads.shows'.skip_lines]

theorem yields_stay (reads : start.Reads kinds) (holds : PUnit → ParserState → Prop) :
    Yields skipLines start holds ↔ holds ⟨⟩ start := by
  unfold skipLines
  rw [yields_move, skip_lines_stays reads]

theorem yields_accepted {mark : Punctuation} {holds : Bool → ParserState → Prop}
    (reads : start.Reads (.punctuation mark :: kinds))
    (met : ∀ final, start.Continues kinds final → holds true final) :
    Yields (accept mark) start holds := by
  have found : start.context.atPunctuation mark = true := by
    rw [ParsingContext.atPunctuation, kind_of_reads reads]
    exact beq_self_eq_true _
  unfold accept
  rw [yields_bind, yields_context, found, if_pos rfl, yields_bind]
  exact yields_past reads met

theorem yields_refused {mark : Punctuation} {holds : Bool → ParserState → Prop}
    (reads : start.Reads kinds) (other : next kinds ≠ .punctuation mark)
    (met : holds false start) : Yields (accept mark) start holds := by
  have absent : start.context.atPunctuation mark = false := by
    rw [ParsingContext.atPunctuation, kind_of_reads reads]
    exact beq_eq_false_iff_ne.mpr other
  unfold accept
  rw [yields_bind, yields_context, absent, if_neg Bool.false_ne_true]
  exact met

theorem yields_expected {mark : Punctuation} {missing : DiagnosticKind}
    {holds : PUnit → ParserState → Prop} (reads : start.Reads (.punctuation mark :: kinds))
    (met : ∀ final, start.Continues kinds final → holds ⟨⟩ final) :
    Yields (expect mark missing) start holds := by
  unfold expect
  rw [yields_bind]
  refine yields_accepted reads fun final continues => ?_
  rw [Bool.not_true, if_neg Bool.false_ne_true]
  exact met final continues

theorem yields_named {name : String} {holds : Option String → ParserState → Prop}
    (reads : start.Reads (.word name :: kinds))
    (met : ∀ final, start.Continues kinds final → holds (some name) final) :
    Yields word? start holds := by
  unfold word?
  rw [yields_bind, yields_current, kind_of_reads reads]
  simp only [next, List.head?_cons, Option.getD_some, TokenKind.word?]
  rw [yields_bind]
  exact yields_past reads met

theorem yields_unnamed {holds : Option String → ParserState → Prop} (reads : start.Reads kinds)
    (other : (next kinds).word? = none) (met : holds none start) : Yields word? start holds := by
  unfold word?
  rw [yields_bind, yields_current, kind_of_reads reads, other]
  exact met

/-- A node is made where reading has got to. -/
theorem yields_created {made : NodeKind NodeId} {span : Span}
    {holds : NodeId → ParserState → Prop} (reads : start.Reads kinds)
    (met : ∀ node final, start.Continues kinds final →
      final.tree.arena.kind? node = some made → holds node final) :
    Yields (onTree (SourceTree.create made span)) start holds := by
  have absent : start.tree.spans.span? ⟨start.tree.arena.size⟩ = none := by
    by_contra recorded
    exact Nat.lt_irrefl _ (reads.recorded _ (Option.ne_none_iff_isSome.mp recorded))
  rw [yields_on_tree]
  refine SourceTree.yields_create_new absent ?_
  refine met _ _ ⟨⟨reads.shows', ?_⟩, .refl reads.shows'.inside, rfl, ?_⟩ ?_
  · intro id recorded
    rw [SourceTree.span_grown] at recorded
    rw [SourceTree.size_grown]
    split at recorded
    · omega
    · exact Nat.lt_succ_of_lt (reads.recorded id recorded)
  · intro id found known
    have old := Arena.kind_bound known
    rw [SourceTree.kind_grown, if_neg (Nat.ne_of_lt old)]
    exact known
  · rw [SourceTree.kind_grown, if_pos rfl]

theorem yields_made {made : NodeKind NodeId} {lower : Position}
    {holds : NodeId → ParserState → Prop} (reads : start.Reads kinds)
    (met : ∀ node final, start.Continues kinds final →
      final.tree.arena.kind? node = some made → holds node final) :
    Yields (finish made lower) start holds := by
  unfold finish
  rw [yields_bind, yields_previous_end]
  exact yields_created reads met

/-- A production that reads some tokens in front of others, without a report, and
returns something that the last state holds. -/
def Reproduces (production : Parser (Option value)) (holds : ParserState → value → Prop)
    (tokens rest : List TokenKind) : Prop :=
  ∀ start : ParserState, start.Reads (tokens ++ rest) →
    Yields production start fun result final =>
      ∃ found, result = some found ∧ holds final found ∧ start.Continues rest final

/-- A production that reads a tree. -/
abbrev Returns (production : Parser (Option NodeId)) (tree : SyntaxTree)
    (tokens rest : List TokenKind) : Prop :=
  Reproduces production (fun final node => final.HasTree node tree) tokens rest

/-- A production that returns nothing. What it reported does not count, as it runs on a
fork. -/
def Fails (production : Parser (Option value)) (kinds : List TokenKind) : Prop :=
  ∀ start : ParserState, start.Reads kinds →
    Yields production start fun result final =>
      result = none ∧ start.Keeps final ∧
        ∀ id, (final.tree.spans.span? id).isSome → id.index < final.tree.arena.size

theorem reads_fork (reads : start.Reads kinds) :
    ParserState.Reads kinds { start with context := start.context.fork } :=
  ⟨reads.shows', reads.recorded⟩

/-- A fork whose production returned something is merged. -/
theorem yields_taken {production : Parser (Option value)} {shown : ParserState → value → Prop}
    {tokens : List TokenKind} {holds : Option value → ParserState → Prop}
    (reproduces : Reproduces production shown tokens rest) (reads : start.Reads (tokens ++ rest))
    (same : ∀ before after found, after.tree = before.tree → shown before found → shown after found)
    (met : ∀ found final, shown final found → start.Continues rest final →
      holds (some found) final) : Yields (attempt production) start holds := by
  unfold attempt
  rw [yields_bind, yields_context, yields_bind, yields_set_context, yields_bind]
  refine (reproduces _ (reads_fork reads)).weaken ?_
  rintro _ final ⟨found, rfl, holds', continues⟩
  rw [yields_bind, yields_move]
  have cursor : (start.context.merge final.context).cursor = final.context.cursor :=
    Cursor.restore_of_follows continues.cursor
  have none : final.context.diagnostics = [] := continues.diagnostics
  refine met found _ (same final _ found rfl holds') ⟨⟨?_, continues.reads.recorded⟩, ?_, ?_,
    continues.keeps⟩
  · change (start.context.merge final.context).cursor.Shows rest
    rw [cursor]
    exact continues.reads.shows'
  · change start.context.cursor.Follows (start.context.merge final.context).cursor
    rw [cursor]
    exact continues.cursor
  · change start.context.diagnostics ++ final.context.diagnostics = _
    rw [none, List.append_nil]

/-- A fork whose production returned nothing is dropped. -/
theorem yields_dropped {production : Parser (Option value)}
    {holds : Option value → ParserState → Prop} (fails : Fails production kinds)
    (reads : start.Reads kinds) (met : ∀ final, start.Continues kinds final → holds none final) :
    Yields (attempt production) start holds := by
  unfold attempt
  rw [yields_bind, yields_context, yields_bind, yields_set_context, yields_bind]
  refine (fails _ (reads_fork reads)).weaken ?_
  rintro _ final ⟨rfl, keeps, recorded⟩
  rw [yields_bind, yields_set_context]
  exact met _ ⟨⟨reads.shows', recorded⟩, .refl reads.shows'.inside, rfl, keeps⟩

end Parser

end ModuleLang
