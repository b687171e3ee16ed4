import ModuleLang.Proofs.Typing.Contraction
import ModuleLang.Proofs.Typing.Visibility
import ModuleLang.Proofs.Validation.Ends

/-!
Names in functions. A function starts with its parameters as the only visible
names, so where no name is given twice and no error is reported, the scopes of its
body are those of the completed tree.
-/

namespace ModuleLang

/-- A body whose names are resolved among the parameters of its function and the
variables that it defines. -/
def Arena.LexicalBody (arena : Arena) (parameters : List NodeId) (block : NodeId) : Prop :=
  ∃ visible last, visible.map Prod.snd = parameters.reverse ∧ arena.Distinct visible ∧
    arena.Scoped visible [block] last

/-- A function whose names are resolved; its result and its parameters use none. -/
structure Arena.Lexical (arena : Arena) (result : Option NodeId) (parameters : List NodeId)
    (block : NodeId) : Prop where
  heads : ∀ head ∈ result.toList ++ parameters, arena.Resolves [] head
  body : arena.LexicalBody parameters block

namespace Inference

variable {limit : Position} {origin tree : SourceTree} {environment : Environment}

section Parameters

variable {parameter : NodeId} {parameters : List NodeId} {start middle final : InferenceState}

/-- Parameters that were declared. -/
structure Entered (tree : SourceTree) (parameters : List NodeId) (before after : InferenceState) :
    Prop where
  unchanged : after.tree = before.tree
  duplicates : after.duplicates = before.duplicates
  binders : after.scopes.binders.map Prod.snd =
    parameters.reverse ++ before.scopes.binders.map Prod.snd
  distinct : tree.arena.Distinct after.scopes.binders
  backed : Backed tree after.scopes

/-- Names of parameters that can be declared one after the other. -/
structure Fresh (tree : SourceTree) (parameters : List NodeId) (state : InferenceState) :
    Prop where
  same : ∀ parameter ∈ parameters, tree.arena.node? parameter = state.tree.arena.node? parameter
  apart : (parameters.map tree.arena.name?).Nodup
  unseen : ∀ parameter ∈ parameters, ∀ name, tree.arena.name? parameter = some name →
    state.scopes.lookup name = none
  distinct : tree.arena.Distinct state.scopes.binders
  backed : Backed tree state.scopes

theorem entered_one {result : Unit} (fresh : Fresh tree (parameter :: parameters) start)
    (ran : Ran (declareParameter parameter) start result middle) :
    Entered tree [parameter] start middle ∧ Fresh tree parameters middle := by
  obtain ⟨same, apart, unseen, distinct, backed⟩ := fresh
  rw [List.map_cons, List.nodup_cons] at apart
  have still := same parameter List.mem_cons_self
  obtain ⟨_, _, got, ran⟩ := ran_bind.mp ran
  cases got
  split at ran
  · rename_i written name known
    have own : tree.arena.name? parameter = some name := by
      have kind : tree.arena.kind? parameter = some (.parameter written name) :=
        (Arena.kind_of_node still).trans known
      simp [Arena.name?, kind, NodeKind.name?]
    have new := unseen parameter List.mem_cons_self name own
    obtain ⟨_, _, got, ran⟩ := ran_bind.mp ran
    cases got
    rw [if_pos (by rw [new]; rfl)] at ran
    obtain ⟨_, _, got, ran⟩ := ran_bind.mp ran
    cases got
    cases ran
    have free : start.scopes.binders.lookup name = none := by
      rw [Scopes.lookup_binders, new]
      rfl
    have distinct : tree.arena.Distinct ((name, parameter) :: start.scopes.binders) :=
      distinct.cons free own
    have backed : Backed tree (start.scopes.declare name
        ⟨start.tree.arena.type? parameter, parameter, .parameter⟩) :=
      backed_declare backed (Arena.type_of_node still)
    refine ⟨⟨rfl, rfl, rfl, distinct, backed⟩, fun other member =>
      same other (List.mem_cons_of_mem _ member), apart.2, fun other member found named => ?_,
      distinct, backed⟩
    have differ : (found == name) = false := by
      refine beq_eq_false_iff_ne.mpr ?_
      rintro rfl
      exact apart.1 (List.mem_map.mpr ⟨other, member, named.trans own.symm⟩)
    change List.lookup found ((name, _) :: _) = none
    rw [List.lookup_cons, differ]
    exact unseen other (List.mem_cons_of_mem _ member) found named
  · cases ran

theorem entered_all {result : Unit} (fresh : Fresh tree parameters start)
    (ran : Ran (parameters.forM declareParameter) start result final) :
    Entered tree parameters start final := by
  induction parameters generalizing start with
  | nil =>
      cases ran
      exact ⟨rfl, rfl, rfl, fresh.distinct, fresh.backed⟩
  | cons parameter parameters ih =>
      obtain ⟨_, middle, first, rest⟩ := ran_bind.mp ran
      obtain ⟨one, fresh⟩ := entered_one fresh first
      have more := ih fresh rest
      refine ⟨more.unchanged.trans one.unchanged, more.duplicates.trans one.duplicates, ?_, more.distinct,
        more.backed⟩
      rw [more.binders, one.binders]
      simp

end Parameters

section Modules

variable {functions : List NodeId} {signed before final : InferenceState}
  {fileName : String} {host : Host} {root : NodeId} {modules imports : List NodeId}
  {signatures : List Signature}

theorem Rounds.grows {left : List NodeId}
    (rounds : Rounds limit origin environment functions signed left before final) :
    before.diagnostics <+: final.diagnostics :=
  rounds.leaves.diagnostics

/-- The bodies of functions that are left, once their turn has come. -/
theorem Course.rounds_lexical {last : InferenceState} {left : List NodeId}
    (course : Course limit origin fileName host root modules imports functions signatures signed
      last)
    (rounds : Rounds limit origin ⟨fileName, host, signatures⟩ functions signed left before final)
    (completed : Completed limit origin final.tree) (fresh : before.duplicates = [])
    (clean : final.Clean)
    (apart : ∀ function ∈ left, ∀ {result name parameters block},
      origin.arena.kind? function = some (.function result name parameters block) →
      (parameters.map final.tree.arena.name?).Nodup) :
    ∀ function ∈ left, ∀ {result name parameters block},
      origin.arena.kind? function = some (.function result name parameters block) →
      final.tree.arena.LexicalBody parameters block := by
  have constructed := completed.constructed
  induction rounds with
  | nil => exact List.forall_mem_nil _
  | @next function result _ parameters block passed rest before declared after last known advanced
      entry noted ready walk work later ih =>
      have subset : ∀ other ∈ function :: rest, other ∈ functions := by
        intro other member
        rw [← advanced.whole]
        exact List.mem_append_right _ member
      have rounds : Rounds limit origin ⟨fileName, host, signatures⟩ functions signed
          (function :: rest) before last :=
        .next known advanced entry noted ready walk work later
      have same : ∀ parameter ∈ parameters,
          last.tree.arena.node? parameter = before.tree.arena.node? parameter := by
        intro parameter member
        have head : Below origin (allHeads origin functions) parameter := by
          refine ⟨parameter, List.mem_flatMap.mpr ⟨function, subset _ List.mem_cons_self, ?_⟩, .refl⟩
          simp [Arena.heads, known, member]
        refine rounds.nodes.2 parameter ?_ (course.prepared.heads_apart subset head)
        have admitted := constructed.admitted known (.parameter, parameter)
          (by simp [NodeKind.slots, member])
        obtain ⟨kind, found, -⟩ := admitted
        exact Nat.lt_of_lt_of_le (Arena.kind_bound found) advanced.sound.size
      have start : Fresh last.tree parameters (entered before result) :=
        ⟨same, apart function List.mem_cons_self known, fun _ _ _ _ => rfl,
          ⟨List.nodup_nil, List.forall_mem_nil _⟩, fun _ _ seen => by cases seen⟩
      have opened := entered_all start entry
      have isBlock : origin.arena.blocks function = [block] := by simp [Arena.blocks, known]
      have retains : Retains origin last.tree [block] declared after := by
        rintro id covered
        have bound : id.index < after.size := by
          obtain inside | made := covered
          · have old := below_bounded constructed (fun child member => by
              rw [List.mem_singleton] at member
              subst member
              obtain ⟨kind, found, -⟩ := constructed.admitted known (.body, child)
                (by simp [NodeKind.slots])
              exact Arena.kind_bound found) inside
            exact Nat.lt_of_lt_of_le old (Nat.le_trans ready.sound.size work.leaves.size)
          · exact made.2
        refine later.nodes.2 id bound ?_
        obtain inside | ⟨new, -⟩ := covered
        · exact course.blocks_apart advanced.whole isBlock inside
        · intro inside
          exact Nat.not_lt.mpr (Nat.le_trans ready.sound.size new)
            (blocks_bounded constructed inside)
      have cleanly : after.Clean := clean_of_grown later.grows clean
      have ruled := walk.ruled completed (siblings_of_kind known (by simp [NodeKind.children]))
        retains (opened.duplicates.trans fresh) opened.backed cleanly
      intro other member
      obtain rfl | member := List.mem_cons.mp member
      · intro result' name' parameters' block' known'
        cases known.symm.trans known'
        refine ⟨_, _, ?_, opened.distinct, ruled.ruled⟩
        rw [opened.binders]
        simp [entered, Scopes.binders, Scopes.empty, Frame.empty]
      · exact ih completed ruled.fresh clean
          (fun other member => apart other (List.mem_cons_of_mem _ member)) other member

/-- There is no name in a written type. -/
theorem Completed.resolves_type (completed : Completed limit origin tree) {written place : NodeId}
    (admitted : origin.arena.Admitted .type written)
    (stands : SourceTree.Stands origin tree .type written place) :
    tree.arena.Resolves [] place := by
  refine SourceTree.resolves_operand completed.constructed completed.traced completed.grown rfl
    admitted stands fun id name below known => ?_
  have nameless : Named origin .empty [written] (.initial origin) := named_of_type _ admitted
  obtain ⟨binding, seen, -⟩ := nameless id name (below_singleton.mpr below) known
  cases seen

/-- Where no error is reported and no parameter is named twice, names are resolved
in every function. -/
theorem Course.lexical
    (course : Course limit origin fileName host root modules imports functions signatures signed
      final) (clean : final.Clean)
    (apart : ∀ function ∈ functions, ∀ {result name parameters block},
      origin.arena.kind? function = some (.function result name parameters block) →
      (parameters.map final.tree.arena.name?).Nodup) :
    ∀ function ∈ functions, ∀ {result name parameters block},
      origin.arena.kind? function = some (.function result name parameters block) →
      final.tree.arena.Lexical result parameters block := by
  have constructed := course.prepared.constructed
  have completed : Completed limit origin final.tree :=
    ⟨constructed, fun found => course.inferred.traced constructed found, course.inferred.sound.size⟩
  have start : Undeclared (.initial origin) signed :=
    undeclared_frame.keeps_mapM (undeclared_frame.keeps_signature _) _ _ _ _ course.ran
  intro function member result name parameters block known
  refine ⟨fun head inside => ?_, course.rounds_lexical course.rounds completed start.duplicates
    clean apart function member known⟩
  obtain inside | inside := List.mem_append.mp inside
  · exact completed.resolves_type (constructed.admitted known (.type, head)
      (by simpa [NodeKind.slots] using inside)) (Or.inl rfl)
  · obtain ⟨kind, found, admits⟩ := constructed.admitted known (.parameter, head)
      (by simp [NodeKind.slots, inside])
    cases kind with
    | parameter written name =>
        obtain ⟨image, held, alike⟩ :=
          SourceTree.image_of_parsed completed.traced completed.grown found
        cases alike with
        | parameter only =>
            refine Arena.resolves_of_children held rfl (by simp) fun child slot => ?_
            rw [NodeKind.children, List.mem_singleton] at slot
            subst slot
            exact completed.resolves_type
              (constructed.admitted found (.type, written) (by simp [NodeKind.slots])) only
    | _ => cases admits

end Modules

end Inference

/-!
Names in checked modules. The returns that complete a module use no names, so its
functions resolve theirs as inference did: where no error is reported, a name
means the only binder of that name that can be seen from its place.
-/

namespace Arena

section Prolonged

variable {first second : Arena} {visible after : Visible} {nodes : List NodeId} {node : NodeId}

theorem Prolongs.name {name : String} (prolongs : first.Prolongs second)
    (named : first.name? node = some name) : second.name? node = some name := by
  unfold name? at *
  obtain ⟨kind, found, named⟩ := Option.bind_eq_some_iff.mp named
  rw [prolongs.other found ?_]
  · exact named
  · rintro statements rfl
    cases named

variable (prolongs : first.Prolongs second) (types : second.type? = first.type?)

include prolongs types

/-- Nodes without a body among them are not changed. -/
theorem Resolves.prolonged (resolves : first.Resolves visible node) :
    second.Resolves visible node := by
  have kept : ∀ {id}, first.Reachable node id → ∀ {kind}, first.kind? id = some kind →
      second.kind? id = some kind := by
    intro id below kind found
    refine prolongs.other found ?_
    rintro statements rfl
    cases resolves.quiet below found
  have back : ∀ {id}, second.Reachable node id → first.Reachable node id := by
    intro id below
    induction below with
    | refl => exact .refl
    | tail _ slot ih =>
        obtain ⟨kind, found, -⟩ := resolves _ ih
        refine Relation.ReflTransGen.tail ih ?_
        rw [children_of_kind (kept ih found)] at slot
        exact child_of_kind found slot
  intro id below
  obtain ⟨kind, found, quiet, named⟩ := resolves id (back below)
  refine ⟨kind, kept (back below) found, quiet, ?_⟩
  rw [types]
  exact named

omit prolongs types in
/-- Statements that declare nothing may follow. -/
theorem Scoped.append {more : List NodeId} (ruled : second.Scoped visible nodes after)
    (plain : ∀ node ∈ more, ∀ visible, second.Resolves visible node) :
    second.Scoped visible (nodes ++ more) after := by
  induction ruled with
  | nil =>
      induction more with
      | nil => exact .nil
      | cons head tail ih =>
          exact .plain (plain head List.mem_cons_self _)
            (ih fun node member => plain node (List.mem_cons_of_mem _ member))
  | plain resolves _ ih => exact .plain resolves ih
  | define found definition fresh spelled resolves _ ih =>
      exact .define found definition fresh spelled resolves ih
  | body found inside _ _ ih => exact .body found inside ih
  | condition found decides taken other _ _ _ ih => exact .condition found decides taken other ih
  | loop found decides inside _ _ ih => exact .loop found decides inside ih

theorem Scoped.prolonged (ruled : first.Scoped visible nodes after) :
    second.Scoped visible nodes after := by
  induction ruled with
  | nil => exact .nil
  | plain resolves _ ih => exact .plain (resolves.prolonged prolongs types) ih
  | define found definition fresh spelled resolves _ ih =>
      exact .define (prolongs.other found nofun) (prolongs.other definition nofun) fresh
        (fun id member => (spelled id member).prolonged prolongs types)
        (resolves.prolonged prolongs types) ih
  | body found _ _ inside ih =>
      obtain ⟨more, longer, returns⟩ := prolongs.body found
      refine .body longer (inside.append fun node member visible => ?_) ih
      exact resolves_of_children (returns node member) rfl nofun nofun
  | condition found decides _ _ _ taken other ih =>
      exact .condition (prolongs.other found nofun) (decides.prolonged prolongs types) taken other ih
  | loop found decides _ _ inside ih =>
      exact .loop (prolongs.other found nofun) (decides.prolonged prolongs types) inside ih

theorem Lexical.prolonged {result : Option NodeId} {parameters : List NodeId} {block : NodeId}
    (lexical : first.Lexical result parameters block) :
    second.Lexical result parameters block := by
  obtain ⟨heads, visible, last, same, distinct, ruled⟩ := lexical
  refine ⟨fun head member => (heads head member).prolonged prolongs types, visible, last, same,
    ⟨distinct.nodup, fun entry member => ?_⟩, ruled.prolonged prolongs types⟩
  exact prolongs.name (distinct.named entry member)

end Prolonged

/-- A function in which names are resolved: whichever way leads to a name, exactly
one of the parameters and of the variables that are defined before it on the way
has that name, and has its type; and every variable is defined by an assignment. -/
structure ResolvesNames (arena : Arena) (function : NodeId) (parameters : List NodeId) :
    Prop where
  seen : ∀ id, arena.Reachable function id → ∃ binders, arena.Sees function id binders
  means : ∀ id name binders, arena.kind? id = some (.member name) →
    arena.Sees function id binders → arena.Means (parameters ++ binders) id name
  assigned : ∀ id written name, arena.Reachable function id →
    arena.kind? id = some (.definition written name) →
    ∃ statement value, arena.Reachable function statement ∧
      arena.kind? statement = some (.assign .assign id value)

theorem Lexical.resolves_names {arena : Arena} {function block : NodeId} {result : Option NodeId}
    {name : String} {parameters : List NodeId}
    (found : arena.kind? function = some (.function result name parameters block))
    (lexical : arena.Lexical result parameters block) : arena.ResolvesNames function parameters := by
  obtain ⟨heads, visible, last, same, distinct, ruled⟩ := lexical
  have children : ∀ child, child ∈ arena.children function ↔
      child ∈ result.toList ++ parameters ∨ child = block := by
    intro child
    rw [children_of_kind found, NodeKind.children, List.mem_append, List.mem_singleton]
  refine ⟨fun id below => sees_of_reachable below, fun id name binders known sees => ?_,
    fun id written name below known => ?_⟩
  · cases sees with
    | here => cases found.symm.trans known
    | inBody held => cases found.symm.trans held
    | inside slot _ below =>
        obtain head | rfl := (children _).mp slot
        · obtain ⟨_, held, -, resolved⟩ := heads _ head id below.reachable
          cases known.symm.trans held
          obtain ⟨_, seen, -⟩ := resolved name rfl
          cases seen
        · refine (ruled.means distinct (List.nil_append _).symm below known).perm ?_
          rw [same]
          exact (List.reverse_perm parameters).append_right _
  · obtain rfl | ⟨child, slot, below⟩ := reachable_cases below
    · cases found.symm.trans known
    · obtain head | rfl := (children _).mp slot
      · cases (heads _ head).quiet below known
      · obtain ⟨statement, value, above, assigns⟩ :=
          ruled.assigned List.mem_cons_self below known
        exact ⟨statement, value, .below_child slot above, assigns⟩

end Arena

/-- Names are resolved in every function of a module, and every variable in it is
defined by an assignment. -/
structure NamesChecked (checked : CheckedModule) (functions : List NodeId) : Prop where
  functions : ∀ function ∈ functions, ∃ result name parameters block,
    checked.tree.arena.kind? function = some (.function result name parameters block) ∧
    checked.tree.arena.ResolvesNames function parameters
  assigned : ∀ id written name, checked.tree.arena.Reachable checked.root id →
    checked.tree.arena.kind? id = some (.definition written name) →
    ∃ statement value, checked.tree.arena.Reachable checked.root statement ∧
      checked.tree.arena.kind? statement = some (.assign .assign id value)

namespace CheckedModule

variable {modules imports functions : List NodeId}

theorem names_checked {checked : CheckedModule}
    (root : checked.tree.arena.kind? checked.root = some (.root modules imports functions))
    (leaves : ∀ node ∈ modules ++ imports, checked.tree.arena.Resolves [] node)
    (each : ∀ function ∈ functions, ∃ result name parameters block,
      checked.tree.arena.kind? function = some (.function result name parameters block) ∧
      checked.tree.arena.Lexical result parameters block) : NamesChecked checked functions := by
  have resolved : ∀ function ∈ functions, ∃ result name parameters block,
      checked.tree.arena.kind? function = some (.function result name parameters block) ∧
      checked.tree.arena.ResolvesNames function parameters := by
    intro function member
    obtain ⟨result, name, parameters, block, found, lexical⟩ := each function member
    exact ⟨result, name, parameters, block, found, lexical.resolves_names found⟩
  refine ⟨resolved, fun id written name below known => ?_⟩
  obtain rfl | ⟨child, slot, below⟩ := Arena.reachable_cases below
  · cases root.symm.trans known
  · have inside := slot
    rw [Arena.children_of_kind root, NodeKind.children] at inside
    obtain leaf | member := List.mem_append.mp inside
    · cases (leaves child leaf).quiet below known
    · obtain ⟨_, _, _, _, -, names⟩ := resolved child member
      obtain ⟨statement, value, above, assigns⟩ := names.assigned id written name below known
      exact ⟨statement, value, .below_child slot above, assigns⟩

/-- Where no error is reported, every name in a function means the only parameter
or variable of that name that can be seen from its place, and has its type, and
every variable is defined by an assignment. -/
theorem of_text_names (text fileName : String) (host : Host) :
    ∃ checked modules imports functions, ofText text fileName host = .ok checked ∧
      checked.tree.arena.kind? checked.root = some (.root modules imports functions) ∧
      (checked.hasErrors = false → NamesChecked checked functions) := by
  obtain ⟨parsed, wasParsed, proper, -⟩ := ParsedModule.of_text_proper text fileName
  obtain ⟨modules, imports, functions, root⟩ := proper.root
  obtain ⟨reported, final, ran, signatures, signed, inferred, findings, parts, course, -, -, inside,
    -, -, ⟨shared, given, apart⟩, completing, -, _, woven⟩ :=
    yields_iff.mp (yields_stages proper host root)
  refine ⟨⟨final, parsed.root, parsed.diagnostics ++ reported, parsed.fileName⟩, modules, imports,
    functions, ?_, woven.found, fun clean => names_checked woven.found ?_ ?_⟩
  · unfold ofText
    rw [wasParsed]
    change ofParsed parsed host = _
    unfold ofParsed
    rw [ran]
  · intro node member
    obtain member | member := List.mem_append.mp member
    · obtain ⟨path, found⟩ := woven.moduleKinds node member
      exact Arena.resolves_of_children found rfl nofun nofun
    · obtain ⟨path, found⟩ := woven.importKinds node member
      exact Arena.resolves_of_children found rfl nofun nofun
  · have silent : ∀ one ∈ reported, one.isError = false := by
      intro one member
      simpa using List.any_eq_false.mp clean one (List.mem_append_right _ member)
    have cleanly : inferred.Clean := by
      refine List.any_eq_false.mpr fun one member => ?_
      simpa using silent one (inside one (List.mem_append_left _ member))
    have partners : List.Forall₂ (flip (ModuleRoot.Apart inferred.tree)) shared functions :=
      List.Forall₂.flip apart
    have lexical := course.lexical cleanly (by
      intro function member result name parameters block known
      obtain ⟨reports, held, names⟩ := partner_of_member partners member
      refine names (fun one inside => ?_) ((course.function_same member).1.trans known)
      exact silent one (given one (List.mem_flatten.mpr ⟨reports, held, inside⟩)))
    intro function member
    obtain ⟨result, name, parameters, block, known⟩ :=
      Inference.function_kind proper.constructed root member
    refine ⟨result, name, parameters, block, ?_, (lexical function member known).prolonged
      completing.prolongs completing.types⟩
    exact completing.prolongs.other ((course.function_same member).1.trans known) (by simp)

/-- A module without errors: two bodies beside each other define a variable of one
name. -/
def siblingText : String :=
  "module m; fn f(int a) { if (a < 1) { x := a; a := x; } else { int x; a := x; } }"

/-- The module has no error and one function. -/
def declaresOne (checked : CheckedModule) : Bool :=
  !checked.hasErrors && match checked.tree.arena.kind? checked.root with
    | some (.root _ _ functions) => functions.length == 1
    | _ => false

theorem of_text_names_siblings :
    ∃ checked functions, ofText siblingText "m.plp" Host.empty = .ok checked ∧
      checked.hasErrors = false ∧ functions.length = 1 ∧ NamesChecked checked functions := by
  obtain ⟨checked, modules, imports, functions, ran, found, names⟩ :=
    of_text_names siblingText "m.plp" Host.empty
  have clean : (ofText siblingText "m.plp" Host.empty).toOption.any declaresOne = true := by
    decide +kernel
  rw [ran] at clean
  simp only [Except.toOption, Option.any_some, declaresOne, found, Bool.and_eq_true,
    Bool.not_eq_true', beq_iff_eq] at clean
  exact ⟨checked, functions, ran, clean.1, clean.2, names clean.1⟩

end CheckedModule

end ModuleLang
