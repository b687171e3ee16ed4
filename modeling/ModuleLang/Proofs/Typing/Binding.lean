import ModuleLang.Proofs.Typing.Moments

/-!
Definitions bind their names. Once a definition with a written type or a plain assignment
was checked, its name is visible behind it, in the body and in the bodies inside it, and is
never reported as missing there. A definition with a written type does so unless the name is
not visible and a body inside has declared it before: such a definition is a duplicate and
declares nothing, while an assignment in its place declares the name again.
-/

namespace ModuleLang

namespace Arena

/-- A statement that defines a name with a written type, with or without a value. -/
inductive TypedDefinition (arena : Arena) (name : String) (statement : NodeId) : Prop
  | bare {written} (found : arena.kind? statement = some (.definition (some written) name))
  | assigned {operator target value written}
      (found : arena.kind? statement = some (.assign operator target value))
      (defines : arena.kind? target = some (.definition (some written) name))

/-- A statement `name := value`. -/
inductive PlainAssignment (arena : Arena) (name : String) (statement : NodeId) : Prop
  | intro {target value} (found : arena.kind? statement = some (.assign .assign target value))
      (named : arena.kind? target = some (.member name))

end Arena

namespace Inference

variable {limit : Position} {origin : SourceTree} {environment : Environment} {name : String}
  {statement target value now : NodeId} {before after start final : InferenceState}

/-- A name that is not visible is visible behind a definition, unless it is known from a
body inside. -/
theorem visible_of_define {definition : NodeId} {type : Option Ty} {result : Unit}
    (unseen : start.scopes.lookup name = none) (unknown : start.scopes.nested name = none)
    (ran : Ran (define environment definition name type) start result final) :
    (final.scopes.lookup name).isSome = true := by
  rcases ran_bind.mp ran with ⟨_, _, got, ran⟩
  cases got
  rw [unseen, unknown] at ran
  cases ran
  exact Option.isSome_of_eq_some (Scopes.lookup_declare_self name _ _)

theorem visible_of_name_assignment {type : Option Ty} {result : Unit}
    (unseen : start.scopes.lookup name = none)
    (ran : Ran (nameAssignment environment statement .assign target name value type) start result
      final) : (final.scopes.lookup name).isSome = true := by
  rcases ran_bind.mp ran with ⟨_, _, got, ran⟩
  cases got
  rw [unseen] at ran
  dsimp only at ran
  rw [if_neg (not_not.mpr rfl)] at ran
  split at ran
  · rcases ran_bind.mp ran with ⟨_, _, _, ran⟩
    rcases ran_bind.mp ran with ⟨_, _, _, ran⟩
    cases ran
    exact Option.isSome_of_eq_some (Scopes.lookup_declare_self name _ _)
  · rcases ran_bind.mp ran with ⟨written, _, _, ran⟩
    rcases ran_bind.mp ran with ⟨definition, _, _, ran⟩
    rcases ran_bind.mp ran with ⟨_, _, _, ran⟩
    rcases ran_bind.mp ran with ⟨_, _, _, ran⟩
    rcases ran_bind.mp ran with ⟨_, _, _, ran⟩
    cases ran
    exact Option.isSome_of_eq_some (Scopes.lookup_declare_self name _ _)

theorem visible_of_plain_assignment (constructed : origin.Constructed limit)
    (assigns : origin.arena.PlainAssignment name statement)
    (ready : Ready limit origin statement before) (unseen : before.scopes.lookup name = none)
    {check : NodeId → Inference NodeId}
    (ran : Ran (anyStatement environment check statement) before now after) :
    (after.scopes.lookup name).isSome = true := by
  rcases assigns with ⟨found, named⟩
  rcases ran_bind.mp ran with ⟨_, _, got, ran⟩
  cases got
  rw [show before.tree.arena.kind? statement = _ from ready.kind.trans found] at ran
  rcases ran_bind.mp ran with ⟨_, _, assigned, ran⟩
  cases ran
  rcases ran_bind.mp assigned with ⟨type, valued, inferred, ran⟩
  rcases ran_bind.mp ran with ⟨_, _, got, ran⟩
  cases got
  have targetReady := (visits_of_assigned_type constructed found ready inferred).next_ready
  rw [show valued.tree.arena.kind? _ = _ from targetReady.kind.trans named] at ran
  have same := undeclared_frame.keeps_assigned_type environment _ _ _ _ inferred
  exact visible_of_name_assignment (by rw [same.scopes, unseen]) ran

/-- A definition with a written type, after what changes neither the names nor the
duplicates. -/
theorem visible_of_declared {written definition : NodeId} {type : Option Ty} {result stored : Unit}
    {middle resolved typed : InferenceState} (unseen : before.scopes.lookup name = none)
    (unknown : before.scopes.nested name = none) (same : Undeclared before middle)
    (resolving : Ran (resolveType environment written) middle type resolved)
    (storing : Ran (setType definition type) resolved stored typed)
    (defining : Ran (define environment definition name type) typed result after) :
    (after.scopes.lookup name).isSome = true := by
  have same := undeclared_frame.trans same (undeclared_frame.trans
    (undeclared_frame.keeps_resolve_type environment _ _ _ _ resolving)
    (undeclared_frame.keeps_set_type _ _ _ _ _ storing))
  exact visible_of_define (by rw [same.scopes, unseen]) (by rw [same.scopes, unknown]) defining

theorem visible_of_typed_definition (constructed : origin.Constructed limit)
    (defines : origin.arena.TypedDefinition name statement)
    (ready : Ready limit origin statement before) (unseen : before.scopes.lookup name = none)
    (unknown : before.scopes.nested name = none) {check : NodeId → Inference NodeId}
    (ran : Ran (anyStatement environment check statement) before now after) :
    (after.scopes.lookup name).isSome = true := by
  rcases ran_bind.mp ran with ⟨_, _, got, ran⟩
  cases got
  cases defines with
  | bare found =>
      rw [show before.tree.arena.kind? statement = _ from ready.kind.trans found] at ran
      rcases ran_bind.mp ran with ⟨declared, _, resolving, ran⟩
      rcases ran_bind.mp ran with ⟨_, _, storing, ran⟩
      rcases ran_bind.mp ran with ⟨_, _, defining, ran⟩
      have visible := visible_of_declared unseen unknown (undeclared_frame.refl _) resolving storing
        defining
      cases declared with
      | none =>
          cases ran
          exact visible
      | some declared =>
          rcases ran_bind.mp ran with ⟨default, _, defaulted, adding⟩
          have same := undeclared_frame.trans
            (undeclared_frame.keeps_add_default _ _ _ _ _ defaulted)
            (undeclared_frame.keeps_add _ _ _ _ _ adding)
          rw [same.scopes]
          exact visible
  | assigned found named =>
      rw [show before.tree.arena.kind? statement = _ from ready.kind.trans found] at ran
      rcases ran_bind.mp ran with ⟨_, _, assigned, ran⟩
      cases ran
      rcases ran_bind.mp assigned with ⟨type, valued, inferred, ran⟩
      rcases ran_bind.mp ran with ⟨_, _, got, ran⟩
      cases got
      have targetReady := (visits_of_assigned_type constructed found ready inferred).next_ready
      rw [show valued.tree.arena.kind? _ = _ from targetReady.kind.trans named] at ran
      rcases ran_bind.mp ran with ⟨declared, _, resolving, ran⟩
      rcases ran_bind.mp ran with ⟨_, _, storing, ran⟩
      rcases ran_bind.mp ran with ⟨_, _, defining, stored⟩
      have same := undeclared_frame.keeps_store environment _ _ _ _ _ _ _ _ stored
      rw [same.scopes]
      exact visible_of_declared unseen unknown
        (undeclared_frame.keeps_assigned_type environment _ _ _ _ inferred) resolving storing defining

/-- A statement that defines a name. Where a definition with a written type is a duplicate of
one in a body inside, it has to be visible already. -/
theorem Upcoming.binds (constructed : origin.Constructed limit) {budget : Nat} {rest : List NodeId}
    (upcoming : Upcoming limit origin ⟨budget, statement :: rest, before⟩)
    (binds : origin.arena.PlainAssignment name statement ∨
      (origin.arena.TypedDefinition name statement ∧
        ((before.scopes.lookup name).isSome = true ∨ before.scopes.nested name = none)))
    (ran : Ran (statementWithin environment budget statement) before now after) :
    (after.scopes.lookup name).isSome = true := by
  have impact := (upcoming.next constructed ran).2
  by_cases seen : (before.scopes.lookup name).isSome = true
  · exact Scopes.lookup_of_suffix impact.visible seen
  · have unseen : before.scopes.lookup name = none := by simpa using seen
    cases budget with
    | zero => cases ran
    | succ budget =>
        rcases binds with assigns | ⟨defines, visible | unknown⟩
        · exact visible_of_plain_assignment constructed assigns upcoming.ready unseen ran
        · exact absurd visible seen
        · exact visible_of_typed_definition constructed defines upcoming.ready unseen unknown ran

end Inference

namespace ParsedModule

open Inference

/-- Behind a definition its name is visible to every statement of its body and of the bodies
inside it, and what such a statement reports to be missing with that name is a member of some
value. -/
theorem definition_binds {text fileName : String} {parsed : ParsedModule}
    (wasParsed : ofText text fileName = .ok parsed) {host : Host} {environment : Environment}
    {start : Moment} (begins : Begins parsed.fileName host parsed.root parsed.tree environment start)
    {budget : Nat} {statement now : NodeId} {rest : List NodeId} {before after : InferenceState}
    (arrives : Arrives environment start ⟨budget, statement :: rest, before⟩) {name : String}
    (binds : parsed.tree.arena.PlainAssignment name statement ∨
      (parsed.tree.arena.TypedDefinition name statement ∧
        ((before.scopes.lookup name).isSome = true ∨ before.scopes.nested name = none)))
    (ran : Ran (statementWithin environment budget statement) before now after)
    {moment : Moment} (later : Arrives environment ⟨budget, rest, after⟩ moment) :
    (moment.state.scopes.lookup name).isSome = true ∧
      ∀ next left place final, moment.left = next :: left →
        Ran (statementWithin environment moment.budget next) moment.state place final →
        ∃ said, final.diagnostics = moment.state.diagnostics ++ said ∧
          ∀ found ∈ said, OfMember parsed.tree name found := by
  rcases of_text_proper text fileName with ⟨again, parsedAgain, proper, -⟩
  cases wasParsed.symm.trans parsedAgain
  have constructed := proper.constructed
  rcases arrives.upcoming constructed (begins.upcoming constructed) with ⟨upcoming, -, -⟩
  have bound := upcoming.binds constructed binds ran
  rcases later.upcoming constructed (upcoming.next constructed ran).1 with ⟨there, visible, -⟩
  refine ⟨visible name bound, fun next left place final here ranNext => ?_⟩
  rcases moment with ⟨deeper, nodes, state⟩
  cases here
  rcases (there.next constructed ranNext).2.reported with ⟨said, added, about⟩
  exact ⟨said, added, about name (visible name bound)⟩

/-- A name that a statement assigns plainly. -/
def assigned? (parsed : ParsedModule) (statement : NodeId) : Option String :=
  match parsed.tree.arena.kind? statement with
  | some (.assign .assign target _) =>
      match parsed.tree.arena.kind? target with
      | some (.member name) => some name
      | _ => none
  | _ => none

theorem plain_assignment_of_assigned {parsed : ParsedModule} {statement : NodeId} {name : String}
    (assigned : parsed.assigned? statement = some name) :
    parsed.tree.arena.PlainAssignment name statement := by
  unfold assigned? at assigned
  split at assigned
  · rename_i target value found
    split at assigned
    · rename_i other named
      cases assigned
      exact .intro found named
    · cases assigned
  · cases assigned

/-- A name that is used in a body inside, behind its assignment. -/
def assigningText : String := "module m; fn f() { a := 1; { b := a; } }"

theorem definition_binds_inside : ∃ parsed environment start budget statement rest before now after,
    ofText assigningText "m.plp" = .ok parsed ∧
    Begins parsed.fileName .empty parsed.root parsed.tree environment start ∧
    Arrives environment start ⟨budget, statement :: rest, before⟩ ∧
    parsed.tree.arena.PlainAssignment "a" statement ∧
    Ran (statementWithin environment budget statement) before now after ∧
    Arrives environment ⟨budget, rest, after⟩ ⟨budget, rest, after⟩ ∧
    (after.scopes.lookup "a").isSome = true ∧
    ∀ next left place final, rest = next :: left →
      Ran (statementWithin environment budget next) after place final →
      ∃ said, final.diagnostics = after.diagnostics ++ said ∧
        ∀ found ∈ said, OfMember parsed.tree "a" found := by
  rcases of_text_proper assigningText "m.plp" with ⟨parsed, wasParsed, -, -⟩
  have facts : (ofText assigningText "m.plp").toOption.any (fun parsed =>
      (around? .empty parsed 0).any fun found =>
        found.2.1.left.head?.any fun statement => parsed.assigned? statement = some "a") = true := by
    decide +kernel
  rw [wasParsed, Except.toOption, Option.any_some] at facts
  rcases (Option.any_eq_true _ _).mp facts with ⟨⟨environment, moment, later⟩, around, facts⟩
  rcases (Option.any_eq_true _ _).mp facts with ⟨first, head, assigned⟩
  rcases moments_of_around around with
    ⟨⟨start, begins, arrives⟩, statement, rest, now, same, -, ran⟩
  rw [same] at head arrives
  cases head
  have assigns := plain_assignment_of_assigned (of_decide_eq_true assigned)
  have binds := definition_binds wasParsed begins arrives (Or.inl assigns) ran .here
  exact ⟨parsed, environment, start, moment.budget, first, rest, moment.state, now, later.state,
    wasParsed, begins, arrives, assigns, ran, .here, binds.1, binds.2⟩

/-- A name that a statement defines with a written type and without a value. -/
def defined? (parsed : ParsedModule) (statement : NodeId) : Option String :=
  match parsed.tree.arena.kind? statement with
  | some (.definition (some _) name) => some name
  | _ => none

theorem typed_definition_of_defined {parsed : ParsedModule} {statement : NodeId} {name : String}
    (defined : parsed.defined? statement = some name) :
    parsed.tree.arena.TypedDefinition name statement := by
  unfold defined? at defined
  split at defined
  · rename_i written other found
    cases defined
    exact .bare found
  · cases defined

/-- A name that is used behind its definition, which is a duplicate of one in a body inside. -/
def redefiningText : String := "module m; fn f() { { int a; } int a; b := a; }"

/-- The second definition does not declare the name, which is reported missing in the
statement behind it. -/
theorem redefinition_unbound :
    ∃ parsed environment start budget statement rest before now after,
    ofText redefiningText "m.plp" = .ok parsed ∧
    Begins parsed.fileName .empty parsed.root parsed.tree environment start ∧
    Arrives environment start ⟨budget, statement :: rest, before⟩ ∧
    parsed.tree.arena.TypedDefinition "a" statement ∧
    Ran (statementWithin environment budget statement) before now after ∧
    after.scopes.lookup "a" = none ∧
    ∃ last, Arrives environment ⟨budget, rest, after⟩ last ∧
      last.state.diagnostics.map Diagnostic.kind = [.duplicateVariable "a", .duplicateVariable "a",
        .cannotFindMember "a"] := by
  rcases of_text_proper redefiningText "m.plp" with ⟨parsed, wasParsed, -, -⟩
  have facts : (ofText redefiningText "m.plp").toOption.any (fun parsed =>
      (around? .empty parsed 1).any fun found =>
        (found.2.1.left.head?.any fun statement => parsed.defined? statement = some "a") &&
        (found.2.2.state.scopes.lookup "a").isNone &&
        (behind? found.1 1 found.2.2).any fun last => last.state.diagnostics.map Diagnostic.kind =
          [.duplicateVariable "a", .duplicateVariable "a", .cannotFindMember "a"]) = true := by
    decide +kernel
  rw [wasParsed, Except.toOption, Option.any_some] at facts
  rcases (Option.any_eq_true _ _).mp facts with ⟨⟨environment, moment, later⟩, around, facts⟩
  simp only [Bool.and_eq_true, Option.isNone_iff_eq_none] at facts
  rcases facts with ⟨⟨facts, unseen⟩, missing⟩
  rcases (Option.any_eq_true _ _).mp facts with ⟨first, head, defined⟩
  rcases (Option.any_eq_true _ _).mp missing with ⟨last, passed, said⟩
  rcases moments_of_around around with
    ⟨⟨start, begins, arrives⟩, statement, rest, now, same, same', ran⟩
  rw [same] at head arrives
  rw [same'] at passed
  cases head
  exact ⟨parsed, environment, start, moment.budget, first, rest, moment.state, now, later.state,
    wasParsed, begins, arrives, typed_definition_of_defined (of_decide_eq_true defined), ran, unseen,
    last, arrives_of_behind passed, of_decide_eq_true said⟩

end ParsedModule

end ModuleLang
