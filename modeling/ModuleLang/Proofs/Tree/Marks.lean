import ModuleLang.Proofs.RoundTrip.Rendering

/-!
What a tree has of its text. Words, literals, operators and keywords are the marks of a
text; blanks and punctuation are not. A node has some marks itself, and those of the
nodes in its slots stand in between. In a forest the marks that are listed for a node
are exactly its own: no mark is listed for a second node, and none twice.
-/

namespace ModuleLang

/-- Tokens that say something: words, literals, operators and keywords. -/
def TokenKind.isMark : TokenKind → Bool
  | word _ | literal _ | operator _ | keyword _ => true
  | _ => false

namespace TokenKind

@[simp]
theorem is_mark_word (name : String) : (word name).isMark = true := rfl

@[simp]
theorem is_mark_keyword (reserved : Keyword) : (keyword reserved).isMark = true := rfl

@[simp]
theorem is_mark_literal (value : Literal) : (literal value).isMark = true := rfl

@[simp]
theorem is_mark_operator (spelling : Operator) : (operator spelling).isMark = true := rfl

@[simp]
theorem is_mark_punctuation (sign : Punctuation) : (punctuation sign).isMark = false := rfl

@[simp]
theorem is_mark_end_of_statement : endOfStatement.isMark = false := rfl

end TokenKind

/-- A part of what a node has of its text: a mark of its own, or what is in a slot. -/
inductive Piece (slot : Type)
  | own (kind : TokenKind)
  | part (inside : slot)

namespace Piece

variable {slot image : Type}

def map (change : slot → image) : Piece slot → Piece image
  | own kind => own kind
  | part inside => part (change inside)

def ownMarks : Piece slot → List TokenKind
  | own kind => [kind]
  | part _ => []

def slot? : Piece slot → Option slot
  | own _ => none
  | part inside => some inside

/-- The marks of a piece, given those of what is in a slot. -/
def marks : Piece (List TokenKind) → List TokenKind
  | own kind => [kind]
  | part inside => inside

/-- The marks of a piece of a node, each with the node that has it. -/
def placed (node : NodeId) : Piece (List (NodeId × TokenKind)) → List (NodeId × TokenKind)
  | own kind => [(node, kind)]
  | part inside => inside

end Piece

namespace NodeKind

variable {slot image : Type}

/-- The marks and the slots of a node, in the order of the text. Items of a module are
of three sorts and may stand in any order; they are listed sort by sort. -/
def pieces : NodeKind slot → List (Piece slot)
  | root modules imports functions => (modules ++ imports ++ functions).map .part
  | moduleDef path => .own (.keyword .moduleWord) :: path.segments.map fun name => .own (.word name)
  | useDef path => .own (.keyword .useWord) :: path.segments.map fun name => .own (.word name)
  | function result name parameters block =>
      .own (.keyword .fnWord) :: (result.toList.map .part ++
        .own (.word name) :: (parameters.map .part ++ [.part block]))
  | parameter type name => [.part type, .own (.word name)]
  | body statements => statements.map .part
  | condition predicate thenBody elseBody =>
      [.own (.keyword .ifWord), .part predicate, .part thenBody] ++
        match elseBody with
        | some other => [.own (.keyword .elseWord), .part other]
        | none => []
  | loop predicate block => [.own (.keyword .whileWord), .part predicate, .part block]
  | returnFrom value => .own (.keyword .returnWord) :: value.toList.map .part
  | breakLoop => [.own (.keyword .breakWord)]
  | continueLoop => [.own (.keyword .continueWord)]
  | call name arguments => .own (.word name) :: arguments.map .part
  | construct type arguments => .own (.keyword .newWord) :: .part type :: arguments.map .part
  | newArray element length => [.own (.keyword .newWord), .part element, .part length]
  | cast target inner _ => [.part target, .part inner]
  | member name => [.own (.word name)]
  | memberAccess owner name => [.part owner, .own (.word name)]
  | indexAccess target index => [.part target, .part index]
  | definition type name => type.toList.map .part ++ [.own (.word name)]
  | assign operator target value => [.part target, .own (.operator operator.spelt), .part value]
  | binary operator left right => [.part left, .own (.operator operator.spelt), .part right]
  | unary operator operand =>
      if operator.isLeading then [.own (.operator operator.spelt), .part operand]
      else [.part operand, .own (.operator operator.spelt)]
  | literal value => [.own (.literal value)]
  | typeRef name _ => [.own (.word name)]

/-- The marks that a node has itself. -/
def ownMarks (kind : NodeKind slot) : List TokenKind := kind.pieces.flatMap Piece.ownMarks

/-- The marks of a node and of what is below it, given those of its slots. -/
def marks (kind : NodeKind (List TokenKind)) : List TokenKind := kind.pieces.flatMap Piece.marks

@[simp]
theorem marks_of_parts (each : List (List TokenKind)) :
    (each.map Piece.part).flatMap Piece.marks = each.flatten := by
  rw [List.flatMap_map]
  exact List.flatMap_id

@[simp]
theorem marks_of_names (names : List String) :
    (names.map fun name => Piece.own (.word name)).flatMap Piece.marks =
      names.map TokenKind.word := by
  induction names with
  | nil => rfl
  | cons name names ih => rw [List.map_cons, List.flatMap_cons, ih, List.map_cons]; rfl

theorem pieces_map (change : slot → image) (kind : NodeKind slot) :
    (kind.map change).pieces = kind.pieces.map (Piece.map change) := by
  cases kind with
  | function result name parameters block =>
      cases result <;> simp [map, pieces, Piece.map, Function.comp_def]
  | condition predicate thenBody elseBody => cases elseBody <;> rfl
  | returnFrom value => cases value <;> rfl
  | definition type name => cases type <;> rfl
  | unary operator operand => cases operator <;> rfl
  | _ => simp [map, pieces, Piece.map, Function.comp_def]

theorem pieces_unsourced (kind : NodeKind slot) : kind.unsourced.pieces = kind.pieces := by
  cases kind <;> rfl

/-- The slots among the pieces of a node are its children. -/
theorem slots_of_pieces (kind : NodeKind slot) : kind.pieces.filterMap Piece.slot? = kind.children := by
  have parts : ∀ slots : List slot, (slots.map Piece.part).filterMap Piece.slot? = slots := by
    intro slots
    rw [List.filterMap_map]
    exact List.filterMap_some
  cases kind with
  | function result name parameters block =>
      simp [pieces, children, parts, Piece.slot?, List.filterMap_append, List.filterMap_cons]
  | condition predicate thenBody elseBody => cases elseBody <;> rfl
  | unary operator operand => cases operator <;> rfl
  | definition type name => cases type <;> rfl
  | moduleDef path | useDef path =>
      simp [pieces, children, Piece.slot?, List.filterMap_cons, Function.comp_def]
  | _ => simp [pieces, children, parts, Piece.slot?, List.filterMap_cons]

theorem part_mem_pieces {kind : NodeKind slot} {child : slot} :
    .part child ∈ kind.pieces ↔ child ∈ kind.children := by
  rw [← slots_of_pieces, List.mem_filterMap]
  constructor
  · intro member
    exact ⟨_, member, rfl⟩
  · rintro ⟨piece, member, same⟩
    cases piece with
    | own kind => cases same
    | part inside =>
        cases same
        exact member

/-- The piece of a child stands at one place, if no child stands in two slots. -/
theorem pieces_split {kind : NodeKind slot} {child : slot} (distinct : kind.children.Nodup)
    (inside : child ∈ kind.children) : ∃ left right,
      kind.pieces = left ++ .part child :: right ∧ .part child ∉ left ∧ .part child ∉ right := by
  rcases List.append_of_mem (part_mem_pieces.mpr inside) with ⟨left, right, split⟩
  have here : (Piece.part child).slot? = some child := rfl
  rw [← slots_of_pieces, split, List.filterMap_append, List.filterMap_cons_some here,
    List.nodup_middle, List.nodup_cons, ← List.filterMap_append] at distinct
  have absent : Piece.part child ∉ left ++ right := fun member =>
    distinct.1 (List.mem_filterMap.mpr ⟨_, member, rfl⟩)
  rw [List.mem_append, not_or] at absent
  exact ⟨left, right, split, absent⟩

attribute [simp] Piece.marks marks pieces

end NodeKind

namespace Arena

variable {arena : Arena} {node : NodeId}

/-- The marks of a tree in an arena, each with the node that has it, in the order of
the text. -/
def marks? (arena : Arena) (root : NodeId) : Option (List (NodeId × TokenKind)) :=
  arena.fold? (fun node kind _ => kind.pieces.flatMap (Piece.placed node)) root

/-- A node and the nodes below it carry some marks. -/
def Carries (arena : Arena) (node : NodeId) (kinds : List TokenKind) : Prop :=
  arena.Folds (fun _ kind => kind.marks) node kinds

/-- The same marks, with the nodes that carry them. -/
def Places (arena : Arena) (node : NodeId) (marks : List (NodeId × TokenKind)) : Prop :=
  arena.Folds (fun node kind => kind.pieces.flatMap (Piece.placed node)) node marks

theorem Places.found {marks : List (NodeId × TokenKind)} (places : arena.Places node marks) :
    arena.marks? node = some marks :=
  Folds.found places

theorem carries_node {kind : NodeKind NodeId} {form : NodeKind (List TokenKind)}
    (found : arena.kind? node = some kind)
    (alike : kind.Alike (fun _ child kinds => arena.Carries child kinds) form) :
    arena.Carries node form.marks := by
  rcases Folds.node found alike with ⟨values, same, held⟩
  have pieces : form.pieces = (kind.map values).pieces := by
    rw [← NodeKind.pieces_unsourced form, same, NodeKind.pieces_unsourced]
  have marks : form.marks = (kind.map values).marks := by
    rw [NodeKind.marks, pieces, NodeKind.marks]
  rw [marks]
  exact held

theorem Carries.later {after : Arena} {kinds : List TokenKind} (carries : arena.Carries node kinds)
    (keeps : ∀ id kind, arena.kind? id = some kind → after.kind? id = some kind) :
    after.Carries node kinds :=
  Folds.later keeps carries

/-- Some nodes carry marks one after the other. -/
def CarryAll (arena : Arena) (nodes : List NodeId) (kinds : List TokenKind) : Prop :=
  ∃ each, List.Forall₂ arena.Carries nodes each ∧ each.flatten = kinds

namespace CarryAll

variable {nodes : List NodeId} {kinds more : List TokenKind}

theorem nil (arena : Arena) : arena.CarryAll [] [] := ⟨[], .nil, rfl⟩

theorem concat (all : arena.CarryAll nodes kinds) (last : arena.Carries node more) :
    arena.CarryAll (nodes ++ [node]) (kinds ++ more) := by
  rcases all with ⟨each, held, rfl⟩
  refine ⟨each ++ [more], List.rel_append held (.cons last .nil), ?_⟩
  rw [List.flatten_append, List.flatten_singleton]

theorem append {others : List NodeId} (left : arena.CarryAll nodes kinds)
    (right : arena.CarryAll others more) : arena.CarryAll (nodes ++ others) (kinds ++ more) := by
  rcases left with ⟨first, held, rfl⟩
  rcases right with ⟨second, rest, rfl⟩
  exact ⟨first ++ second, List.rel_append held rest, List.flatten_append⟩

theorem later {after : Arena} (all : arena.CarryAll nodes kinds)
    (keeps : ∀ id kind, arena.kind? id = some kind → after.kind? id = some kind) :
    after.CarryAll nodes kinds := by
  rcases all with ⟨each, held, same⟩
  exact ⟨each, held.imp fun _ _ carries => carries.later keeps, same⟩

end CarryAll

/-- Whatever is carried is carried by nodes. -/
theorem places_of_carries {kinds : List TokenKind} (carries : arena.Carries node kinds) :
    ∃ marks, arena.Places node marks ∧ marks.map Prod.snd = kinds := by
  rcases carries with ⟨depth, same⟩
  induction depth generalizing node kinds with
  | zero => cases same
  | succ depth ih =>
      rcases Folds.parts same with ⟨kind, values, found, rfl, held⟩
      have each : ∀ child, child ∈ kind.children → ∃ marks, arena.Places child marks ∧
          marks.map Prod.snd = values child := fun child inside => ih (held child inside)
      choose! marks places same using each
      refine ⟨_, Folds.of_children found places, ?_⟩
      change ((kind.map marks).pieces.flatMap (Piece.placed node)).map Prod.snd =
        (kind.map values).pieces.flatMap Piece.marks
      rw [NodeKind.pieces_map, NodeKind.pieces_map, List.flatMap_map,
        List.flatMap_map, List.map_flatMap]
      apply List.flatMap_congr
      intro piece member
      cases piece with
      | own kind => rfl
      | part child => exact same child (NodeKind.part_mem_pieces.mp member)

section Owners

variable {marks : List (NodeId × TokenKind)}

/-- What is placed at a node: its own marks, and in between those placed at the nodes in
its slots. -/
theorem Places.cases (places : arena.Places node marks) :
    ∃ kind values, arena.kind? node = some kind ∧
      (∀ child ∈ kind.children, arena.Places child (values child)) ∧
      marks = kind.pieces.flatMap fun piece => (piece.map values).placed node := by
  rcases places with ⟨depth, same⟩
  cases depth with
  | zero => cases same
  | succ depth =>
      rcases Folds.parts same with ⟨kind, values, found, rfl, held⟩
      refine ⟨kind, values, found, fun child inside => ⟨depth, held child inside⟩, ?_⟩
      rw [NodeKind.pieces_map, List.flatMap_map]

/-- Marks are placed only at nodes below. -/
theorem Places.reachable (places : arena.Places node marks) :
    ∀ mark ∈ marks, arena.Reachable node mark.1 := by
  rcases places with ⟨depth, same⟩
  induction depth generalizing node marks with
  | zero => cases same
  | succ depth ih =>
      rcases Folds.parts same with ⟨kind, values, found, rfl, held⟩
      intro mark member
      rw [NodeKind.pieces_map, List.flatMap_map] at member
      rcases List.mem_flatMap.mp member with ⟨piece, inside, member⟩
      cases piece with
      | own kind =>
          rw [List.mem_singleton.mp member]
          exact Relation.ReflTransGen.refl
      | part child =>
          have below := NodeKind.part_mem_pieces.mp inside
          have reachable := ih (held child below) mark member
          apply Reachable.below_child _ reachable
          exact child_of_kind found below

/-- No mark is placed at a node that is not below. -/
theorem Places.absent {child : NodeId} (places : arena.Places child marks)
    (apart : ¬ arena.Reachable child node) : marks.filter (fun mark => mark.1 = node) = [] := by
  apply List.filter_eq_nil_iff.mpr
  intro mark member here
  apply apart
  rw [← of_decide_eq_true here]
  exact places.reachable mark member

/-- In a forest, the marks that are placed at a node are its own. -/
theorem Places.own {root : NodeId} {kind : NodeKind NodeId} (forest : arena.Forest)
    (places : arena.Places root marks) (below : arena.Reachable root node)
    (found : arena.kind? node = some kind) :
    (marks.filter fun mark => mark.1 = node).map Prod.snd = kind.ownMarks := by
  induction below using Relation.ReflTransGen.head_induction_on generalizing marks with
  | refl =>
      rcases places.cases with ⟨own, values, known, each, rfl⟩
      rw [found] at known
      cases known
      rw [NodeKind.ownMarks, List.filter_flatMap, List.map_flatMap]
      apply List.flatMap_congr
      intro piece inside
      cases piece with
      | own kind => simp [Piece.map, Piece.placed, Piece.ownMarks]
      | part child =>
          have inside := NodeKind.part_mem_pieces.mp inside
          have above := forest.parent_not_below ((children_of_kind found).symm ▸ inside)
          change ((values child).filter _).map Prod.snd = []
          rw [(each child inside).absent above]
          rfl
  | @head parent child step path ih =>
      rcases places.cases with ⟨own, values, known, each, rfl⟩
      have children := children_of_kind known
      have inside : child ∈ own.children := children ▸ step
      have distinct : own.children.Nodup := children ▸ forest.distinct parent
      have elsewhere : ∀ piece ∈ own.pieces, piece ≠ .part child →
          ((piece.map values).placed parent).filter (fun mark => mark.1 = node) = [] := by
        intro piece member other
        cases piece with
        | own kind =>
            have different : parent ≠ node := by
              intro same
              apply forest.parent_not_below step
              rw [same]
              exact path
            simp [Piece.map, Piece.placed, different]
        | part sibling =>
            have member := NodeKind.part_mem_pieces.mp member
            apply (each sibling member).absent
            intro also
            apply other
            rw [forest.siblings_disjoint (children.symm ▸ member) step also path]
      rcases NodeKind.pieces_split distinct inside with ⟨left, right, split, before, behind⟩
      rw [split] at elsewhere
      rw [split, List.filter_flatMap, List.flatMap_append, List.flatMap_cons,
        List.flatMap_eq_nil_iff.mpr, List.flatMap_eq_nil_iff.mpr, List.append_nil, List.nil_append]
      · exact ih (each child inside)
      · intro piece member
        apply elsewhere piece (by simp [member])
        intro same
        exact behind (same ▸ member)
      · intro piece member
        apply elsewhere piece (by simp [member])
        intro same
        exact before (same ▸ member)

end Owners

end Arena

end ModuleLang
