import ModuleLang.Parsing.Module
import ModuleLang.Proofs.RoundTrip.Block

/-!
Items of a module and the module around them. A function's header is tried with a
result type first, which fails where the name stands alone in front of the parameters.
-/

namespace ModuleLang

namespace Parser

open ParserState TokenKind

variable {kinds rest : List TokenKind} {start : ParserState} {more : Nat}

section Path

theorem of_path_cons (first second : String) (others : List String) :
    ofPath ⟨first :: second :: others⟩ =
      .word first :: .punctuation .dot :: ofPath ⟨second :: others⟩ :=
  intercalate_cons _ [.word first] _ _

theorem length_of_path (segments : List String) :
    segments.length ≤ (ofPath ⟨segments⟩).length + 1 := by
  have short := length_intercalate (.punctuation .dot)
    (segments.map fun segment => [TokenKind.word segment])
  rwa [List.length_map] at short

/-- A path is read up to where no dot follows. -/
theorem yields_path_read {first : String} {segments before : List String}
    (reads : start.Reads (ofPath ⟨first :: segments⟩ ++ rest))
    (ends : next rest ≠ .punctuation .dot) (enough : segments.length < more) :
    Yields (pathFrom more before) start fun result final =>
      result = some ⟨before ++ first :: segments⟩ ∧ start.Continues rest final := by
  induction segments generalizing first before start more with
  | nil =>
      obtain ⟨more, rfl⟩ : ∃ less, more = less + 1 := ⟨more - 1, by omega⟩
      unfold pathFrom
      rw [yields_bind]
      apply yields_named reads
      intro named behind
      simp only
      rw [yields_bind]
      apply yields_refused behind.reads ends
      exact ⟨rfl, behind⟩
  | cons second segments ih =>
      obtain ⟨more, rfl⟩ : ∃ less, more = less + 1 := ⟨more - 1, by omega⟩
      rw [of_path_cons, List.cons_append, List.cons_append] at reads
      unfold pathFrom
      rw [yields_bind]
      apply yields_named reads
      intro named behind
      simp only
      rw [yields_bind]
      apply yields_accepted behind.reads
      intro passed dot
      rw [if_pos rfl]
      rw [List.length_cons] at enough
      apply (ih dot.reads (by omega)).weaken
      rintro _ final ⟨rfl, last⟩
      refine ⟨by rw [List.append_assoc, List.singleton_append], (behind.trans dot).trans last⟩

/-- A keyword, a path and a semicolon. -/
theorem returns_path_item {word : Keyword} {path : ModulePath}
    {kind : ModulePath → NodeKind NodeId} {form : NodeKind SyntaxTree}
    (written : path.isWritable = true)
    (alike : ∀ arena : Arena, (kind path).Alike (fun _ child tree => arena.HasTree child tree) form)
    (plain : (kind path).unsourced = kind path) (plain' : form.unsourced = form) :
    Returns (pathItem kind) (.node form)
      (.keyword word :: ofPath path ++ [.endOfStatement]) rest := by
  intro start reads
  rcases path with ⟨segments⟩
  cases segments with
  | nil => cases written
  | cons first segments =>
      rw [List.cons_append, List.cons_append, List.append_assoc, List.singleton_append] at reads
      unfold pathItem
      rw [yields_bind, yields_current, yields_bind]
      apply yields_past reads
      intro behind keyword
      rw [yields_bind, yields_remaining, yields_bind]
      have long := length_of_reads keyword.reads
      have short := length_of_path (first :: segments)
      rw [List.length_append] at long
      rw [List.length_cons] at short
      apply (yields_path_read keyword.reads (by simp [next]) (by omega)).weaken
      rintro _ read ⟨rfl, second⟩
      simp only [List.nil_append]
      rw [yields_bind]
      apply yields_made second.reads
      intro node made third found
      exact returns_ended (Arena.has_tree_node found (alike _) plain plain')
        ((keyword.trans second).trans third)

end Path

section Function

variable {tree : SyntaxTree} {trees before : List SyntaxTree} {found : List NodeId}

theorem returns_parameter (formed : tree.IsParameter) :
    Returns parameter tree tree.tokens rest := by
  rcases formed with ⟨typed, -⟩
  intro start reads
  rw [SyntaxTree.tokens, List.append_assoc, List.singleton_append] at reads
  unfold parameter
  rw [yields_bind, yields_current, yields_bind]
  apply (returns_type typed (ends_type_of_ne (by simp [next])) start reads).weaken
  rintro _ read ⟨written, rfl, held, first⟩
  simp only
  rw [yields_bind]
  apply yields_named first.reads
  intro behind second
  simp only
  rw [yields_bind]
  apply yields_made second.reads
  intro node final third found
  refine ⟨node, rfl, ?_, (first.trans second).trans third⟩
  have there := held.later (second.trans third).keeps
  exact Arena.has_tree_node found (.parameter there) rfl rfl

theorem begins_parameter (formed : tree.IsParameter) : BeginsExpression tree.tokens := by
  rcases formed with ⟨typed, -⟩
  rw [SyntaxTree.tokens]
  exact (begins_type typed).append _

theorem yields_parameters_from (formed : ∀ item ∈ tree :: trees, item.IsParameter)
    (held : HaveTrees start found before)
    (reads : start.Reads (separated ((tree :: trees).map SyntaxTree.tokens) ++
      .punctuation .closeParen :: rest))
    (enough : trees.length < more) :
    Yields (parametersFrom more found) start fun result final =>
      ∃ nodes, result = some nodes ∧ HaveTrees final nodes (before ++ tree :: trees) ∧
        start.Continues rest final := by
  induction trees generalizing tree more found before start with
  | nil =>
      obtain ⟨more, rfl⟩ : ∃ less, more = less + 1 := ⟨more - 1, by omega⟩
      have own : separated ([tree].map SyntaxTree.tokens) = tree.tokens := by simp [separated]
      rw [own] at reads
      unfold parametersFrom
      rw [yields_bind]
      apply yields_taken (returns_parameter (formed tree List.mem_cons_self)) reads
        fun _ _ _ => has_tree_same_tree
      intro node read has first
      simp only
      rw [yields_bind, yields_stay first.reads, yields_bind]
      apply yields_refused first.reads (by simp [next])
      rw [if_neg Bool.false_ne_true, yields_bind]
      apply yields_expected first.reads
      intro final second
      refine ⟨_, rfl, ?_, first.trans second⟩
      exact List.rel_append (held.later (first.trans second).keeps)
        (.cons (has.later second.keeps) .nil)
  | cons second trees ih =>
      obtain ⟨more, rfl⟩ : ∃ less, more = less + 1 := ⟨more - 1, by omega⟩
      rw [List.map_cons, List.map_cons, separated_cons, ← List.map_cons, List.append_assoc,
        List.cons_append] at reads
      unfold parametersFrom
      rw [yields_bind]
      apply yields_taken (returns_parameter (formed tree List.mem_cons_self)) reads
        fun _ _ _ => has_tree_same_tree
      intro node read has first
      simp only
      rw [yields_bind, yields_stay first.reads, yields_bind]
      apply yields_accepted first.reads
      intro behind comma
      rw [if_pos rfl, yields_bind, yields_stay comma.reads]
      have passed := first.trans comma
      have joined : HaveTrees behind (found ++ [node]) (before ++ [tree]) :=
        List.rel_append (held.later passed.keeps) (.cons (has.later comma.keeps) .nil)
      have later : ∀ item ∈ second :: trees, item.IsParameter :=
        fun item member => formed item (List.mem_cons_of_mem _ member)
      rw [List.length_cons] at enough
      apply (ih later joined comma.reads (by omega)).weaken
      rintro _ final ⟨nodes, rfl, all, last⟩
      refine ⟨nodes, rfl, ?_, passed.trans last⟩
      rwa [List.append_assoc, List.singleton_append] at all

theorem reproduces_parameters (formed : ∀ item ∈ trees, item.IsParameter) :
    Reproduces parameters (fun final nodes => HaveTrees final nodes trees)
      (inParentheses (separated (trees.map SyntaxTree.tokens))) rest := by
  intro start reads
  rw [inParentheses, List.append_assoc, List.cons_append, List.singleton_append] at reads
  unfold parameters
  rw [yields_bind]
  apply yields_accepted reads
  intro opened first
  rw [Bool.not_true, if_neg Bool.false_ne_true, yields_bind, yields_stay first.reads, yields_bind]
  cases trees with
  | nil =>
      apply yields_accepted first.reads
      intro final second
      exact ⟨[], rfl, .nil, first.trans second⟩
  | cons tree trees =>
      have begins : BeginsExpression (separated ((tree :: trees).map SyntaxTree.tokens)) :=
        begins_separated fun item member => begins_parameter (formed item member)
      apply yields_refused first.reads (not_closed_of_begins begins _)
      rw [if_neg Bool.false_ne_true, yields_bind, yields_remaining]
      have long := length_of_reads first.reads
      have commas := length_separated ((tree :: trees).map SyntaxTree.tokens)
      rw [List.length_append] at long
      rw [List.length_map, List.length_cons] at commas
      apply (yields_parameters_from formed .nil first.reads (by omega)).weaken
      rintro _ final ⟨nodes, rfl, held, last⟩
      exact ⟨nodes, rfl, held, first.trans last⟩

/-- A name behind a type is the name of a function. -/
theorem returns_typed_header {type : SyntaxTree} {name : String} (typed : type.IsType)
    (follows : next rest = .punctuation .openParen) :
    Reproduces typedHeader
      (fun final found => final.HasTree found.1 type ∧ found.2 = name)
      (type.tokens ++ [.word name]) rest := by
  intro start reads
  rw [List.append_assoc, List.singleton_append] at reads
  unfold typedHeader
  rw [yields_bind]
  apply (returns_type typed (ends_type_of_ne (by simp [next])) start reads).weaken
  rintro _ read ⟨written, rfl, held, first⟩
  simp only
  rw [yields_bind]
  apply yields_named first.reads
  intro final second
  have opens : final.context.atPunctuation .openParen = true := by
    rw [ParsingContext.atPunctuation, kind_of_reads second.reads, follows]
    rfl
  simp only
  rw [yields_bind, yields_context, opens, if_pos rfl]
  exact ⟨_, rfl, ⟨held.later second.keeps, rfl⟩, first.trans second⟩

/-- A name alone is no type and no name of a function behind it. -/
theorem fails_typed_header {name : String} (follows : next kinds = .punctuation .openParen) :
    Fails typedHeader (.word name :: kinds) := by
  intro start reads
  have ends : EndsType kinds := ends_type_of_ne (by simp [follows])
  have reads' : start.Reads ((.word name :: suffixTokens []) ++ kinds) := reads
  unfold typedHeader
  rw [yields_bind]
  apply (returns_type_ref (List.forall_mem_nil _) ends start reads').weaken
  rintro _ typed ⟨node, rfl, -, first⟩
  simp only
  rw [yields_bind]
  apply yields_unnamed first.reads (by rw [follows]; rfl)
  exact ⟨rfl, first.keeps, first.reads.recorded⟩

/-- The header of a function: a result type, if any, and a name. -/
theorem yields_header {result : Option SyntaxTree} {name : String}
    {holds : Option (Option NodeId × String) → ParserState → Prop}
    (typed : ∀ type ∈ result, type.IsType) (apart : result = none → Ty.builtin? name = none)
    (follows : next rest = .punctuation .openParen)
    (reads : start.Reads (result.elim [] SyntaxTree.tokens ++ .word name :: rest))
    (met : ∀ written final, Option.Rel final.HasTree written result →
      start.Continues rest final → holds (some (written, name)) final) :
    Yields header start holds := by
  unfold header
  rw [yields_bind]
  cases result with
  | some type =>
      have reads' : start.Reads ((type.tokens ++ [.word name]) ++ rest) := by simpa using reads
      apply yields_taken (returns_typed_header (typed type rfl) follows) reads'
      · rintro before after found same ⟨held, named⟩
        exact ⟨has_tree_same_tree same held, named⟩
      · rintro ⟨written, _⟩ final ⟨held, rfl⟩ continues
        exact met (some written) final (.some held) continues
  | none =>
      apply yields_dropped (fails_typed_header follows) reads
      intro dropped first
      simp only
      unfold plainHeader
      rw [yields_bind, yields_bind, yields_current, kind_of_cons first.reads]
      simp only [TokenKind.word?]
      rw [apart rfl, Option.isNone_none, if_pos rfl, yields_bind]
      apply yields_past first.reads
      intro final second
      exact met none final .none (first.trans second)

theorem tokens_of_function (result : Option SyntaxTree) (name : String)
    (parameters : List SyntaxTree) (block : SyntaxTree) :
    (SyntaxTree.node (.function result name parameters block)).tokens =
      .keyword .fnWord :: (result.elim [] SyntaxTree.tokens ++ .word name ::
        (inParentheses (separated (parameters.map SyntaxTree.tokens)) ++ block.tokens)) := by
  cases result <;> simp [SyntaxTree.tokens]

/-- A function is read back, whatever follows its body. -/
theorem returns_function (formed : tree.IsFunction) : Returns function tree tree.tokens rest := by
  rcases formed with @⟨result, name, parameters, statements, typed, -, apart, each, formed⟩
  intro start reads
  rw [tokens_of_function, List.cons_append, List.append_assoc, List.cons_append,
    List.append_assoc] at reads
  unfold function
  rw [yields_bind, yields_current, yields_bind]
  apply yields_past reads
  intro behind keyword
  rw [yields_bind]
  apply yields_header typed apart (next_parenthesized _ _) keyword.reads
  intro written headed writtenHeld first
  simp only
  rw [yields_bind]
  apply (reproduces_parameters each headed first.reads).weaken
  rintro _ read ⟨nodes, rfl, held, second⟩
  simp only
  rw [yields_bind]
  have restated : ∀ item ∈ statements, ∀ limit, Rereads statement limit item :=
    fun item member => (restated_of_statement (formed item member)).anywhere
  apply (returns_body formed (fun item member => restated item member _) (Nat.le_succ _) read
    second.reads).weaken
  rintro _ closed ⟨block, rfl, blockHeld, third⟩
  simp only
  rw [yields_bind]
  apply yields_made third.reads
  intro node final last found
  have behindHeader := ((second.trans third).trans last).keeps
  refine ⟨node, rfl, ?_, (((keyword.trans first).trans second).trans third).trans last⟩
  have resultHeld : Option.Rel final.HasTree written result := by
    cases writtenHeld with
    | none => exact .none
    | some typeHeld => exact .some (typeHeld.later behindHeader)
  exact Arena.has_tree_node found (.function resultHeld (held.later (third.trans last).keeps)
    (blockHeld.later last.keeps)) rfl rfl

end Function

section Items

variable {tree : SyntaxTree} {trees : List SyntaxTree} {items : Items}
  {holds : Items → ParserState → Prop}

def addModules (items : Items) (found : List NodeId) : Items :=
  { items with modules := items.modules ++ found }

def addImports (items : Items) (found : List NodeId) : Items :=
  { items with imports := items.imports ++ found }

def addFunctions (items : Items) (found : List NodeId) : Items :=
  { items with functions := items.functions ++ found }

/-- An item of a module: what begins it, and what is done with it. -/
structure IsItem (add : Items → List NodeId → Items) (tree : SyntaxTree) : Prop where
  begins : 0 < tree.tokens.length
  reads : ∀ {start : ParserState} {rest : List TokenKind} {items : Items} {more : Nat}
    {holds : Items → ParserState → Prop}, start.Reads (tree.tokens ++ rest) →
    (∀ node final, final.HasTree node tree → start.Continues rest final →
      Yields (itemsFrom more (add items [node])) final holds) →
    Yields (itemsFrom (more + 1) items) start holds

/-- An item that succeeds is kept. -/
theorem yields_item_kept {production : Parser (Option NodeId)} {tokens : List TokenKind}
    {next : List NodeId → Parser Items} (returns : Returns production tree tokens rest)
    (reads : start.Reads (tokens ++ rest))
    (met : ∀ node final, final.HasTree node tree → start.Continues rest final →
      Yields (next [node]) final holds) : Yields (item production >>= next) start holds := by
  unfold item
  rw [yields_bind, yields_bind, yields_context, yields_bind]
  apply (returns start reads).weaken
  rintro _ final ⟨node, rfl, held, continues⟩
  exact met node final held continues

theorem is_item_function (formed : tree.IsFunction) :
    IsItem addFunctions tree := by
  have opens : ∃ more, tree.tokens = .keyword .fnWord :: more := by
    rcases formed with ⟨-, -, -, -, -⟩
    exact ⟨_, tokens_of_function _ _ _ _⟩
  rcases opens with ⟨others, opens⟩
  refine ⟨by simp [opens], ?_⟩
  intro start rest items more holds reads met
  have own : start.context.current.kind = .keyword .fnWord := by
    rw [kind_of_reads reads, opens]
    rfl
  unfold itemsFrom
  rw [yields_bind, yields_stay reads, yields_bind, yields_current, own]
  exact yields_item_kept (returns_function formed) reads met

theorem is_item_module {path : ModulePath} (written : path.isWritable = true) :
    IsItem addModules (.node (.moduleDef path)) := by
  refine ⟨by simp [SyntaxTree.tokens], ?_⟩
  intro start rest items more holds reads met
  rw [SyntaxTree.tokens] at reads
  unfold itemsFrom
  rw [yields_bind, yields_stay reads, yields_bind, yields_current, kind_of_cons reads]
  exact yields_item_kept (returns_path_item written (fun _ => .moduleDef path) rfl rfl) reads met

theorem is_item_use {path : ModulePath} (written : path.isWritable = true) :
    IsItem addImports (.node (.useDef path)) := by
  refine ⟨by simp [SyntaxTree.tokens], ?_⟩
  intro start rest items more holds reads met
  rw [SyntaxTree.tokens] at reads
  unfold itemsFrom
  rw [yields_bind, yields_stay reads, yields_bind, yields_current, kind_of_cons reads]
  exact yields_item_kept (returns_path_item written (fun _ => .useDef path) rfl rfl) reads met

/-- A run of items of one sort. -/
theorem yields_items {add : Items → List NodeId → Items}
    (joins : ∀ items first second, add (add items first) second = add items (first ++ second))
    (keeps : ∀ items, add items [] = items) (each : ∀ item ∈ trees, IsItem add item)
    (reads : start.Reads (trees.flatMap SyntaxTree.tokens ++ rest))
    (enough : (trees.flatMap SyntaxTree.tokens ++ rest).length < more)
    (met : ∀ nodes final more, HaveTrees final nodes trees → start.Continues rest final →
      rest.length < more → Yields (itemsFrom more (add items nodes)) final holds) :
    Yields (itemsFrom more items) start holds := by
  induction trees generalizing start items more with
  | nil =>
      have done := met [] start more .nil (.refl reads) enough
      rwa [keeps] at done
  | cons first trees ih =>
      obtain ⟨more, rfl⟩ : ∃ less, more = less + 1 := ⟨more - 1, by omega⟩
      have own := each first List.mem_cons_self
      have positive := own.begins
      rw [List.flatMap_cons, List.append_assoc] at reads enough
      rw [List.length_append] at enough
      apply own.reads reads
      intro node middle held first
      apply ih (fun item member => each item (List.mem_cons_of_mem _ member)) first.reads (by omega)
      intro nodes final more all last room
      rw [joins]
      exact met _ final more (.cons (held.later last.keeps) all) (first.trans last) room

theorem yields_items_done (reads : start.Reads []) (enough : 0 < more) (met : holds items start) :
    Yields (itemsFrom more items) start holds := by
  obtain ⟨more, rfl⟩ : ∃ less, more = less + 1 := ⟨more - 1, by omega⟩
  have own : start.context.current.kind = .endOfFile := kind_of_reads reads
  unfold itemsFrom
  rw [yields_bind, yields_stay reads, yields_bind, yields_current, own]
  exact met

/-- All items of a module, one sort after the other. -/
theorem yields_root_read (formed : tree.IsModule) (reads : start.Reads tree.tokens) :
    Yields root start fun node final => final.HasTree node tree ∧ start.Continues [] final := by
  rcases formed with @⟨modules, imports, functions, named, used, formed⟩
  have eachModule : ∀ item ∈ modules, IsItem addModules item := by
    intro item member
    rcases named item member with ⟨path, written, rfl⟩
    exact is_item_module written
  have eachImport : ∀ item ∈ imports, IsItem addImports item := by
    intro item member
    rcases used item member with ⟨path, written, rfl⟩
    exact is_item_use written
  have tokens : (SyntaxTree.node (.root modules imports functions)).tokens =
      modules.flatMap SyntaxTree.tokens ++ (imports.flatMap SyntaxTree.tokens ++
        (functions.flatMap SyntaxTree.tokens ++ [])) := by
    simp [SyntaxTree.tokens]
  rw [tokens] at reads
  unfold root
  rw [yields_bind, yields_remaining, yields_bind]
  apply yields_items (by simp [addModules]) (by simp [addModules]) eachModule reads (length_of_reads reads)
  intro moduleNodes second more moduleHeld first room
  apply yields_items (by simp [addImports]) (by simp [addImports]) eachImport first.reads room
  intro importNodes third more importHeld second' room
  apply yields_items (by simp [addFunctions]) (by simp [addFunctions])
    (fun item member => is_item_function (formed item member)) second'.reads room
  intro functionNodes fourth more functionHeld third' room
  apply yields_items_done third'.reads (by omega)
  rw [yields_bind, yields_current]
  apply yields_created third'.reads
  intro node final last found
  refine ⟨?_, ((first.trans second').trans third').trans last⟩
  have modulesThere := moduleHeld.later ((second'.trans third').trans last).keeps
  have importsThere := importHeld.later (third'.trans last).keeps
  exact Arena.has_tree_node found
    (.root modulesThere importsThere (functionHeld.later last.keeps)) rfl rfl

end Items

end Parser

end ModuleLang
