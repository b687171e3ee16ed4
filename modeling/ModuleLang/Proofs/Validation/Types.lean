import ModuleLang.Proofs.Typing.Accounting
import ModuleLang.Proofs.Typing.Heredity
import ModuleLang.Proofs.Validation.Ends

/-!
Types in checked modules. The returns that complete a module have no types and are no
operands, so that in a module without errors calls go to the functions that inference found
for them, and in a module without any report a type is unknown only because of a variable
that was introduced by `null`.
-/

namespace ModuleLang

namespace Arena

variable {first second : Arena} {id function node : NodeId}

section Prolonged

variable (prolongs : first.Prolongs second) (types : second.type? = first.type?)

include prolongs types

theorem IndexesDimensions.prolonged (indexes : first.IndexesDimensions node) :
    second.IndexesDimensions node := by
  rcases indexes with ⟨id, target, index, element, rank, path, found, typed, several⟩
  refine ⟨id, target, index, element, rank, prolongs.reachable path, prolongs.other found nofun, ?_,
    several⟩
  rw [types]
  exact typed

theorem Dispatches.prolonged {candidates : List Signature} {arguments : List NodeId}
    (dispatches : first.Dispatches candidates id arguments) :
    second.Dispatches candidates id arguments := by
  unfold Dispatches at dispatches ⊢
  rw [types]
  split at dispatches
  · exact dispatches
  · rcases dispatches with ⟨untyped, argument, member, indexes⟩
    exact ⟨untyped, argument, member, indexes.prolonged prolongs types⟩

theorem Untold.prolonged (untold : first.Untold function id) : second.Untold function id := by
  induction untold with
  | null above assigns defines empty untyped =>
      exact .null (prolongs.reachable above) (prolongs.other assigns nofun)
        (prolongs.other defines nofun) (types ▸ empty) (types ▸ untyped)
  | value above assigns defines _ untyped cause =>
      exact .value (prolongs.reachable above) (prolongs.other assigns nofun)
        (prolongs.other defines nofun) cause (types ▸ untyped)
  | member found defines _ untyped cause =>
      exact .member (prolongs.other found nofun) (prolongs.other defines nofun) cause
        (types ▸ untyped)
  | operand found computes inside _ untyped cause =>
      refine .operand (prolongs.other found ?_) computes inside cause (types ▸ untyped)
      rintro statements rfl
      cases computes

theorem signature_prolonged {result : Option NodeId} {name : String} {parameters : List NodeId}
    {block : NodeId} (found : first.kind? function = some (.function result name parameters block)) :
    second.signature? function = first.signature? function :=
  signature_of_same found ((prolongs.other found nofun).trans found.symm) fun _ _ =>
    congrFun types _

end Prolonged

end Arena

namespace CheckedModule

/-- What a checked module has from inference: the tree that inference left, which it
accepted unless it reported an error, and to which only returns were added. -/
structure Settled (checked : CheckedModule) (host : Host) (modules imports functions : List NodeId)
    (limit : Position) (origin inferred : SourceTree) (reports : List Diagnostic) : Prop where
  found : checked.tree.arena.kind? checked.root = some (.root modules imports functions)
  leaves : ∀ node ∈ modules ++ imports, (∃ path, checked.tree.arena.kind? node =
    some (.moduleDef path)) ∨ ∃ path, checked.tree.arena.kind? node = some (.useDef path)
  each : ∀ function ∈ functions, ∃ result name parameters block,
    inferred.arena.kind? function = some (.function result name parameters block)
  above : ∀ function ∈ functions, inferred.arena.Reachable checked.root function
  engrafted : SourceTree.Engrafted limit origin inferred checked.root
  completing : inferred.Completing checked.tree
  reported : reports ⊆ checked.diagnostics
  endorsed : Diagnostic.hasErrors reports = false → Inference.EndorsedAll
    ⟨checked.fileName, host, functions.filterMap inferred.arena.signature?⟩ inferred functions
    reports

theorem of_text_settled (text fileName : String) (host : Host) :
    ∃ checked modules imports functions limit origin inferred reports,
      ofText text fileName host = .ok checked ∧
      checked.Settled host modules imports functions limit origin inferred reports := by
  rcases ParsedModule.of_text_proper text fileName with ⟨parsed, wasParsed, proper, -⟩
  rcases proper.root with ⟨modules, imports, functions, root⟩
  rcases yields_iff.mp (yields_stages proper host root) with
    ⟨reported, final, ran, signatures, signed, inferred, findings, parts, course, -, -, inside, -, -, -,
      completing, -, _, woven⟩
  refine ⟨⟨final, parsed.root, parsed.diagnostics ++ reported, parsed.fileName⟩, modules, imports,
    functions, Position.ending text.toList, parsed.tree, inferred.tree, inferred.diagnostics, ?_, ?_⟩
  · unfold ofText
    rw [wasParsed]
    change ofParsed parsed host = _
    unfold ofParsed
    rw [ran]
  · have rooted : inferred.tree.arena.kind? parsed.root = some (.root modules imports functions) :=
      (course.inferred.above parsed.root (Or.inl rfl)).1.trans root
    refine ⟨woven.found, fun node member => ?_, fun function member => ?_, fun function member => ?_,
      course.engrafted, completing, fun one member => ?_, fun clean => ?_⟩
    · exact (List.mem_append.mp member).imp (woven.moduleKinds node) (woven.importKinds node)
    · rcases Inference.function_kind proper.constructed root member with
        ⟨result, name, parameters, block, known⟩
      exact ⟨result, name, parameters, block, (course.function_same member).1.trans known⟩
    · refine .of_child ?_
      exact Arena.child_of_kind rooted (List.mem_append_right _ member)
    · exact List.mem_append_right _ (inside one (List.mem_append_left _ member))
    · rcases course.endorsed clean with ⟨same, endorsed⟩
      rw [same] at endorsed
      exact endorsed

namespace Settled

variable {checked : CheckedModule} {host : Host} {modules imports functions : List NodeId}
  {limit : Position} {origin inferred : SourceTree} {reports : List Diagnostic}

/-- Below the root are only headings and what is inside of functions. -/
theorem below_root {id : NodeId} {kind : NodeKind NodeId}
    (settled : checked.Settled host modules imports functions limit origin inferred reports)
    (path : checked.tree.arena.Reachable checked.root id)
    (found : checked.tree.arena.kind? id = some kind) :
    kind = .root modules imports functions ∨ (kind.children = [] ∧ kind.isTyped = false) ∨
      ∃ function ∈ functions, checked.tree.arena.Reachable function id := by
  rcases Arena.reachable_cases path with rfl | ⟨child, slot, path⟩
  · exact Or.inl (Option.some.inj (found.symm.trans settled.found))
  · rw [Arena.children_of_kind settled.found] at slot
    rcases List.mem_append.mp slot with leaf | member
    · -- Headings of a module hold no nodes.
      refine Or.inr (Or.inl ?_)
      have alone : ∀ {held}, checked.tree.arena.kind? child = some held → held.children = [] →
          id = child := by
        intro held known childless
        rcases Arena.reachable_cases path with same | ⟨_, slot, -⟩
        · exact same
        · rw [Arena.children_of_kind known, childless] at slot
          cases slot
      rcases settled.leaves child leaf with ⟨_, known⟩ | ⟨_, known⟩
      all_goals
        cases alone known rfl
        cases known.symm.trans found
        exact ⟨rfl, rfl⟩
    · exact Or.inr (Or.inr ⟨child, member, path⟩)

/-- What is in a function was there when types were inferred, but for returns. -/
theorem origin_of_function {function id : NodeId} {kind : NodeKind NodeId}
    (settled : checked.Settled host modules imports functions limit origin inferred reports)
    (member : function ∈ functions) (path : checked.tree.arena.Reachable function id)
    (found : checked.tree.arena.kind? id = some kind) (lasting : kind ≠ .returnFrom none)
    (solid : ∀ statements, kind ≠ .body statements) :
    inferred.arena.Reachable function id ∧ inferred.arena.kind? id = some kind := by
  refine settled.completing.prolongs.origin (fun other low => ?_) path found lasting solid
  rcases settled.engrafted.each other ((settled.above function member).trans low) with
    ⟨held, known, -⟩
  exact ⟨held, known⟩

/-- A node with a type stands in a function, and was there when types were inferred. -/
theorem of_typed {id : NodeId} {kind : NodeKind NodeId}
    (settled : checked.Settled host modules imports functions limit origin inferred reports)
    (path : checked.tree.arena.Reachable checked.root id)
    (found : checked.tree.arena.kind? id = some kind) (typed : kind.isTyped = true) :
    ∃ function ∈ functions, inferred.arena.Reachable function id ∧
      inferred.arena.kind? id = some kind := by
  rcases settled.below_root path found with rfl | ⟨-, untyped⟩ | ⟨function, member, below⟩
  · cases typed
  · rw [untyped] at typed
    cases typed
  · refine ⟨function, member, settled.origin_of_function member below found ?_ ?_⟩
    · rintro rfl
      cases typed
    · rintro statements rfl
      cases typed

theorem signatures
    (settled : checked.Settled host modules imports functions limit origin inferred reports) :
    functions.filterMap checked.tree.arena.signature? =
      functions.filterMap inferred.arena.signature? := by
  apply List.filterMap_congr
  intro function member
  rcases settled.each function member with ⟨result, name, parameters, block, found⟩
  exact Arena.signature_prolonged settled.completing.prolongs settled.completing.types found

end Settled

/-- Where no error is reported, a call whose arguments all have types goes to the first
candidate that accepts them, unless an element of an array of several dimensions is asked
for below an argument. -/
theorem of_text_calls (text fileName : String) (host : Host) :
    ∃ checked modules imports functions, ofText text fileName host = .ok checked ∧
      checked.tree.arena.kind? checked.root = some (.root modules imports functions) ∧
      (checked.hasErrors = false → ∀ id name arguments,
        checked.tree.arena.Reachable checked.root id →
        checked.tree.arena.kind? id = some (.call name arguments) →
        (∀ argument ∈ arguments, (checked.tree.arena.type? argument).isSome = true) →
        checked.tree.arena.Dispatches (Inference.candidates
          ⟨checked.fileName, host, functions.filterMap checked.tree.arena.signature?⟩ name) id
          arguments) := by
  rcases of_text_settled text fileName host with
    ⟨checked, modules, imports, functions, limit, origin, inferred, reports, ran, settled⟩
  refine ⟨checked, modules, imports, functions, ran, settled.found, ?_⟩
  intro clean id name arguments path found typed
  have quiet : Diagnostic.hasErrors reports = false := by
    refine List.any_eq_false.mpr fun one member => ?_
    exact List.any_eq_false.mp clean one (settled.reported member)
  rw [settled.completing.types] at typed
  rw [settled.signatures]
  rcases settled.of_typed path found rfl with ⟨function, member, below, known⟩
  exact ((settled.endorsed quiet).dispatches settled.engrafted settled.above member below known
    typed).prolonged settled.completing.prolongs settled.completing.types

/-- Calls in a checked module whose arguments all have types, with what they may mean. -/
def typedCalls (checked : CheckedModule) (host : Host) : List (NodeId × List NodeId × List Signature) :=
  match checked.tree.arena.kind? checked.root with
  | some (.root _ _ functions) =>
      (checked.tree.arena.descendants checked.root).filterMap fun id =>
        match checked.tree.arena.kind? id with
        | some (.call name arguments) =>
            if arguments.all fun argument => (checked.tree.arena.type? argument).isSome then
              some (id, arguments, Inference.candidates
                ⟨checked.fileName, host, functions.filterMap checked.tree.arena.signature?⟩ name)
            else none
        | _ => none
  | _ => []

theorem call_of_typed_calls {checked : CheckedModule} {host : Host}
    {modules imports functions : List NodeId}
    (root : checked.tree.arena.kind? checked.root = some (.root modules imports functions))
    {call : NodeId × List NodeId × List Signature} (member : call ∈ checked.typedCalls host) :
    checked.tree.arena.Reachable checked.root call.1 ∧ ∃ name,
      checked.tree.arena.kind? call.1 = some (.call name call.2.1) ∧
      (∀ argument ∈ call.2.1, (checked.tree.arena.type? argument).isSome = true) ∧
      call.2.2 = Inference.candidates
        ⟨checked.fileName, host, functions.filterMap checked.tree.arena.signature?⟩ name := by
  unfold typedCalls at member
  rw [root] at member
  rcases List.mem_filterMap.mp member with ⟨id, below, same⟩
  split at same
  · rename_i name arguments found
    split at same
    · rename_i typed
      cases same
      exact ⟨Arena.reachable_of_descendant below, name, found, List.all_eq_true.mp typed, rfl⟩
    · cases same
  · cases same

/-- A call of a function of the module with what it asks for. -/
def servedText : String := "module m; fn int g(int a) { return a; } fn f() { x := g(1); }"

theorem of_text_calls_served :
    ∃ checked modules imports functions id name arguments,
      ofText servedText "m.plp" .empty = .ok checked ∧
      checked.tree.arena.kind? checked.root = some (.root modules imports functions) ∧
      checked.hasErrors = false ∧ checked.tree.arena.Reachable checked.root id ∧
      checked.tree.arena.kind? id = some (.call name arguments) ∧
      (∀ argument ∈ arguments, (checked.tree.arena.type? argument).isSome = true) ∧
      checked.tree.arena.Dispatches (Inference.candidates
        ⟨checked.fileName, .empty, functions.filterMap checked.tree.arena.signature?⟩ name) id
        arguments := by
  rcases of_text_calls servedText "m.plp" .empty with
    ⟨checked, modules, imports, functions, ran, found, dispatches⟩
  have facts : (ofText servedText "m.plp" .empty).toOption.any (fun checked =>
      !checked.hasErrors && !(checked.typedCalls .empty).isEmpty) = true := by
    decide +kernel
  rw [ran] at facts
  simp only [Except.toOption, Option.any_some, Bool.and_eq_true, Bool.not_eq_true',
    List.isEmpty_eq_false_iff_exists_mem] at facts
  rcases facts with ⟨clean, ⟨id, arguments, offered⟩, member⟩
  rcases call_of_typed_calls found member with ⟨below, name, known, typed, -⟩
  exact ⟨checked, modules, imports, functions, id, name, arguments, ran, found, clean, below, known,
    typed, dispatches clean id name arguments below known typed⟩

/-- An argument of another type than the function asks for, which is cast from an element
of an array of two dimensions. -/
def misfitText : String :=
  "module m; fn g(int a) {} fn f(int[,] grid) { g((string) grid[0]); }"

/-- A warning about an argument hides that no function takes it, although the types of
all arguments are known. -/
theorem misfit_accepted :
    ∃ checked modules imports functions id name arguments,
      ofText misfitText "m.plp" .empty = .ok checked ∧ checked.hasErrors = false ∧
      checked.tree.arena.kind? checked.root = some (.root modules imports functions) ∧
      checked.tree.arena.Reachable checked.root id ∧
      checked.tree.arena.kind? id = some (.call name arguments) ∧
      (∀ argument ∈ arguments, (checked.tree.arena.type? argument).isSome = true) ∧
      ∀ signature ∈ Inference.candidates
        ⟨checked.fileName, .empty, functions.filterMap checked.tree.arena.signature?⟩ name,
        signature.accepts (arguments.map checked.tree.arena.type?) = false := by
  rcases of_text_settled misfitText "m.plp" .empty with
    ⟨checked, modules, imports, functions, _, _, _, _, ran, settled⟩
  have facts : (ofText misfitText "m.plp" .empty).toOption.any (fun checked =>
      !checked.hasErrors && (checked.typedCalls .empty).any fun call => call.2.2.all fun signature =>
        !signature.accepts (call.2.1.map checked.tree.arena.type?)) = true := by
    decide +kernel
  rw [ran] at facts
  simp only [Except.toOption, Option.any_some, Bool.and_eq_true, Bool.not_eq_true',
    List.any_eq_true, List.all_eq_true] at facts
  rcases facts with ⟨clean, ⟨id, arguments, offered⟩, member, refused⟩
  rcases call_of_typed_calls settled.found member with ⟨below, name, known, typed, rfl⟩
  exact ⟨checked, modules, imports, functions, id, name, arguments, ran, clean, settled.found, below,
    known, typed, refused⟩

/-- Where nothing is reported, every expression and every variable has a type, which is
written down for a variable, or its type is untold. -/
theorem of_text_typed (text fileName : String) {host : Host} (described : host.Described) :
    ∃ checked modules imports functions, ofText text fileName host = .ok checked ∧
      checked.tree.arena.kind? checked.root = some (.root modules imports functions) ∧
      (checked.diagnostics = [] → ∀ id kind, checked.tree.arena.Reachable checked.root id →
        checked.tree.arena.kind? id = some kind → kind.isTyped = true →
        ((checked.tree.arena.type? id).isSome = true ∧ ∀ name, kind ≠ .definition none name) ∨
        ∃ function ∈ functions, checked.tree.arena.Reachable function id ∧
          checked.tree.arena.Untold function id) := by
  rcases of_text_settled text fileName host with
    ⟨checked, modules, imports, functions, limit, origin, inferred, reports, ran, settled⟩
  refine ⟨checked, modules, imports, functions, ran, settled.found, ?_⟩
  intro silent id kind path found typed
  have quiet : reports = [] := List.subset_nil.mp (silent ▸ settled.reported)
  subst quiet
  have endorsed := settled.endorsed rfl
  rcases settled.of_typed path found typed with ⟨function, member, below, known⟩
  have above := settled.above function member
  have results := endorsed.results settled.engrafted settled.above (hereditary_known described)
  rcases endorsed with ⟨each, matched, silence⟩
  rcases partner_of_member matched.flip member with ⟨said, inside, own⟩
  cases List.flatten_eq_nil_iff.mp silence.symm said inside
  rcases own.explained described results settled.engrafted above below known typed with
    ⟨explained, written⟩
  have lift : inferred.arena.Untold function id → ∃ function ∈ functions,
      checked.tree.arena.Reachable function id ∧ checked.tree.arena.Untold function id :=
    fun untold => ⟨function, member, settled.completing.prolongs.reachable below,
      untold.prolonged settled.completing.prolongs settled.completing.types⟩
  rcases explained with some | untold
  · by_cases unwritten : ∃ name, kind = .definition none name
    · rcases unwritten with ⟨name, same⟩
      exact Or.inr (lift (written name same))
    · refine Or.inl ⟨?_, fun name same => unwritten ⟨name, same⟩⟩
      rw [settled.completing.types]
      exact some
  · exact Or.inr (lift untold)

/-- A module of which nothing is reported, with a variable that is introduced by `null`. -/
def nullText : String := "module m; fn f(int a) { x := a; y := null; }"

theorem of_text_typed_null :
    ∃ checked modules imports functions, ofText nullText "m.plp" .empty = .ok checked ∧
      checked.tree.arena.kind? checked.root = some (.root modules imports functions) ∧
      checked.diagnostics = [] ∧ ∀ id kind, checked.tree.arena.Reachable checked.root id →
        checked.tree.arena.kind? id = some kind → kind.isTyped = true →
        ((checked.tree.arena.type? id).isSome = true ∧ ∀ name, kind ≠ .definition none name) ∨
        ∃ function ∈ functions, checked.tree.arena.Reachable function id ∧
          checked.tree.arena.Untold function id := by
  rcases of_text_typed nullText "m.plp" Host.described_empty with
    ⟨checked, modules, imports, functions, ran, found, typed⟩
  have silent : (ofText nullText "m.plp" .empty).toOption.any
      (fun checked => checked.diagnostics.isEmpty) = true := by
    decide +kernel
  rw [ran] at silent
  have none : checked.diagnostics = [] := List.isEmpty_iff.mp silent
  exact ⟨checked, modules, imports, functions, ran, found, none, typed none⟩

/-- Whether a node is a variable without a written type and of unknown type. -/
def introducesUntyped (checked : CheckedModule) (id : NodeId) : Bool :=
  match checked.tree.arena.kind? id with
  | some (.definition none _) => (checked.tree.arena.type? id).isNone
  | _ => false

/-- Nothing is reported about a variable that is introduced by `null` and has no type. -/
theorem null_untyped :
    ∃ checked id name, ofText nullText "m.plp" .empty = .ok checked ∧ checked.diagnostics = [] ∧
      checked.tree.arena.Reachable checked.root id ∧
      checked.tree.arena.kind? id = some (.definition none name) ∧
      checked.tree.arena.type? id = none := by
  rcases of_text_settled nullText "m.plp" .empty with ⟨checked, _, _, _, _, _, _, _, ran, -⟩
  have facts : (ofText nullText "m.plp" .empty).toOption.any (fun checked =>
      checked.diagnostics.isEmpty &&
        (checked.tree.arena.descendants checked.root).any checked.introducesUntyped) = true := by
    decide +kernel
  rw [ran] at facts
  simp only [Except.toOption, Option.any_some, Bool.and_eq_true, List.isEmpty_iff,
    List.any_eq_true] at facts
  rcases facts with ⟨silent, id, member, untyped⟩
  unfold introducesUntyped at untyped
  split at untyped
  · rename_i name found
    exact ⟨checked, id, name, ran, silent, Arena.reachable_of_descendant member, found,
      Option.isNone_iff_eq_none.mp untyped⟩
  · cases untyped

end CheckedModule

end ModuleLang
