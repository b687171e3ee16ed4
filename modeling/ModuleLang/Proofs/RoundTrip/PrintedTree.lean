import ModuleLang.Proofs.RoundTrip.Printed
import ModuleLang.Proofs.Tree.Construction

/-!
Printed trees. What is printed for a node tells the node, once it is known what kind of
slot the node stands in: a single word is a type, a statement or a name. So two trees that
may stand in the same place are the same if they are printed alike.
-/

namespace ModuleLang

namespace NodeKind

variable {slot image : Type}

def isDefinition : NodeKind slot → Bool
  | definition .. => true
  | _ => false

/-- Whether a node may stand in a slot of a category, or be the root of a module. The type
of a definition may be missing. -/
def fits (kind : NodeKind slot) : (place : Option Category) → Bool
  | none => kind.isRoot
  | some category =>
      category.admits kind || (kind.isDefinition && [.statement, .target].contains category)

/-- Whether the names of a node are words, its ranks are positive, and its number is an
integer. -/
def isReadable : NodeKind slot → Bool
  | moduleDef path | useDef path => path.isWritable
  | function _ name _ _ | parameter _ name | call name _ | member name | memberAccess _ name
  | definition _ name => isName name
  | typeRef name ranks => isName name && ranks.all (1 ≤ ·)
  | literal (.float _) | literal (.double _) => false
  | _ => true

/-!
What stands in the slots decides none of this, and neither does what a cast has noted.
-/

section Slots

variable (kind : NodeKind slot) (change : slot → image)

theorem unsourced_admitted (category : Category) :
    category.admits (kind.map change).unsourced = category.admits kind := by
  cases kind with
  | definition type _ => cases type <;> cases category <;> rfl
  | _ => cases category <;> rfl

theorem unsourced_fits (place : Option Category) :
    (kind.map change).unsourced.fits place = kind.fits place := by
  cases place with
  | none => cases kind <;> rfl
  | some category =>
      rw [fits, fits, unsourced_admitted]
      cases kind <;> rfl

theorem unsourced_readable : (kind.map change).unsourced.isReadable = kind.isReadable := by
  cases kind with
  | literal value => cases value <;> rfl
  | _ => rfl

theorem unsourced_slots : (kind.map change).unsourced.slots =
    kind.slots.map fun child => (child.1, change child.2) := by
  have options : ∀ child : Option slot, (child.map change).toList = child.toList.map change := by
    intro child
    cases child <;> rfl
  cases kind <;> simp [map, unsourced, slots, options, Function.comp_def]

end Slots

end NodeKind

/-- Trees as they are parsed, for a slot of a category or for a module. -/
inductive SyntaxTree.IsShaped : (place : Option Category) → SyntaxTree → Prop
  | node {place : Option Category} {kind : NodeKind SyntaxTree} (fits : kind.fits place = true)
      (readable : kind.isReadable = true)
      (each : ∀ child ∈ kind.slots, IsShaped (some child.1) child.2) : IsShaped place (.node kind)

namespace Printed

open ModuleLang.Text ModuleLang.Decimal

/-- A node that is printed as a label with something in parentheses. -/
inductive Form
  | condition
  | loop
  | returnFrom
  | call
  | construct
  | newArray
  | cast
  | memberAccess
  | indexAccess
  | definition
  | assign (operator : AssignOperator)
  | binary (operator : BinaryOperator)
  | unary (operator : UnaryOperator)
deriving DecidableEq

namespace Form

def label : Form → String
  | condition => "If"
  | loop => "While"
  | returnFrom => "Return"
  | call => "Call"
  | construct => "New"
  | newArray => "ArrayInit"
  | cast => "Cast"
  | memberAccess => "MemberAccess"
  | indexAccess => "Index"
  | definition => "Def"
  | assign .assign => "Assign"
  | assign operator => operator.name ++ "Assign"
  | binary operator => operator.name
  | unary operator => operator.name

def all : List Form :=
  [condition, loop, returnFrom, call, construct, newArray, cast, memberAccess, indexAccess,
    definition] ++ AssignOperator.all.map assign ++ BinaryOperator.all.map binary ++
    UnaryOperator.all.map unary

def ofLabel? (label : String) : Option Form := all.find? fun form => form.label == label

theorem mem_all (form : Form) : form ∈ all := by
  cases form with
  | assign operator => cases operator <;> decide
  | binary operator => cases operator <;> decide
  | unary operator => cases operator <;> decide
  | _ => decide

/-- No two forms have the same label. -/
theorem of_label (form : Form) : ofLabel? form.label = some form := by
  have each : ∀ form ∈ all, ofLabel? form.label = some form := by decide +kernel
  exact each form (mem_all form)

theorem label_word (form : Form) : form.label.toList.head?.any Lexeme.isWordStart = true ∧
    form.label.toList.all Lexeme.isWordPart = true := by
  have each : ∀ form ∈ all, form.label.toList.head?.any Lexeme.isWordStart = true ∧
      form.label.toList.all Lexeme.isWordPart = true := by decide +kernel
  exact each form (mem_all form)

end Form

section Layers

-- How nodes are read that stand in a slot of a category.
variable (read : Category → Reader SyntaxTree)

/-- What stands between the parentheses of a form. -/
def operands : Form → Reader (NodeKind SyntaxTree)
  | .condition => do
      let predicate ← read .expression
      expect [',', ' ']
      let thenBody ← read .body
      if ← accept [',', ' '] then return .condition predicate thenBody (some (← read .body))
      else return .condition predicate thenBody none
  | .loop => do
      let predicate ← read .expression
      expect [',', ' ']
      return .loop predicate (← read .body)
  | .returnFrom => return .returnFrom (some (← read .expression))
  | .call => do
      let name ← word
      return .call name (← following [',', ' '] (read .expression))
  | .construct => do
      let type ← typeRef
      return .construct type (← following [',', ' '] (read .expression))
  | .newArray => do
      let element ← typeRef
      expect [',', ' ']
      return .newArray element (← read .expression)
  | .cast => do
      let target ← typeRef
      expect [',', ' ']
      return .cast target (← read .expression) none
  | .memberAccess => do
      let owner ← read .expression
      expect [',', ' ']
      return .memberAccess owner (← word)
  | .indexAccess => do
      let target ← read .expression
      expect [',', ' ']
      return .indexAccess target (← read .expression)
  | .definition => do
      let found ← typedName
      return .definition found.1 found.2
  | .assign operator => do
      let target ← read operator.side
      expect [',', ' ']
      return .assign operator target (← read .expression)
  | .binary operator => do
      let left ← read .expression
      expect [',', ' ']
      return .binary operator left (← read .expression)
  | .unary operator => return .unary operator (← read .expression)

/-- A statement that is printed as a single word. -/
def jump? : (word : String) → Option SyntaxTree
  | "Return" => some (.node (.returnFrom none))
  | "Break" => some (.node .breakLoop)
  | "Continue" => some (.node .continueLoop)
  | _ => none

/-- A node that is printed as a single word. -/
def atom? (category : Category) (word : String) : Option SyntaxTree :=
  if category = .statement then jump? word
  else
    match Lexeme.wordMeaning word with
    | .literal value => some (.node (.literal value))
    | _ => some (.node (.member word))

/-- A form or a single word. -/
def named (category : Category) : Reader SyntaxTree := do
  let label ← word
  if ← accept ['('] then
    match Form.ofLabel? label with
    | some form =>
        let kind ← operands read form
        expect [')']
        return .node kind
    | none => failure
  else
    match atom? category label with
    | some tree => return tree
    | none => failure

def block : Reader SyntaxTree := do
  expect ['\x7b']
  if ← accept ['\x7d'] then return .node (.body [])
  else
    expect [' ']
    let first ← read .statement
    let rest ← following [';', ' '] (read .statement)
    expect [' ', '\x7d']
    return .node (.body (first :: rest))

/-- A statement or an expression. -/
def phrase (category : Category) : Reader SyntaxTree := do
  let first ← peek
  if first = '\x7b' then block read
  else if first = stringQuote then
    expect [stringQuote]
    return .node (.literal (.string (String.ofList (← quoted stringQuote .plain))))
  else if first = charQuote then
    expect [charQuote]
    match ← quoted charQuote .plain with
    | [character] => return .node (.literal (.char character))
    | _ => failure
  else if first = '-' ∨ isAsciiDigit first = true then return .node (.literal (← number))
  else named read category

/-- A part of a module, which its first letter tells. -/
def part : Reader (Category × SyntaxTree) := do
  let first ← peek
  let category : Category :=
    if first = 'M' then .moduleDef else if first = 'U' then .useDef else .function
  return (category, ← read category)

def layer : (place : Option Category) → Reader SyntaxTree
  | none => do
      expect "Root[".toList
      let parts ← separated [';', ' '] [']'] (part read)
      let those (category : Category) : List SyntaxTree :=
        (parts.filter fun part => part.1 = category).map Prod.snd
      return .node (.root (those .moduleDef) (those .useDef) (those .function))
  | some .moduleDef => do
      expect "Module(".toList
      let path ← path
      expect [')']
      return .node (.moduleDef path)
  | some .useDef => do
      expect "Use(".toList
      let path ← path
      expect [')']
      return .node (.useDef path)
  | some .function => do
      expect "Fn(".toList
      let found ← typedName
      expect ['(']
      let parameters ← separated [',', ' '] [')'] (read .parameter)
      expect [' ']
      let block ← read .body
      expect [')']
      return .node (.function found.1 found.2 parameters block)
  | some .parameter => do
      let type ← typeRef
      expect [' ']
      return .node (.parameter type (← word))
  | some .type => typeRef
  | some .body => block read
  | some category => phrase read category

end Layers

/-- Reads a tree of at most some depth. -/
def tree : (depth : Nat) → (place : Option Category) → Reader SyntaxTree
  | 0, _ => failure
  | depth + 1, place => layer (fun category => tree depth (some category)) place

/-!
Nodes. What is printed for a node is read if what is printed for its children is.
-/

/-- What may stand behind what is printed in a place. -/
def follows : (place : Option Category) → Char → Bool
  | some .type => endsType
  | _ => isEnd

/-- What begins what is printed in a place, where a list depends on it. -/
def opens : (place : Option Category) → Option (Char → Bool)
  | some .moduleDef => some (· == 'M')
  | some .useDef => some (· == 'U')
  | some .function => some (· == 'F')
  | some .parameter | some .type => some Lexeme.isWordStart
  | _ => none

/-- A text that is printed for a tree in a place. -/
structure Prints (depth : Nat) (place : Option Category) (text : List Char) (result : SyntaxTree) :
    Prop where
  begins : ∀ starts ∈ opens place, text.head?.any starts = true
  reads : Reads (follows place) (tree depth place) text result

theorem begins_apart {text : List Char} {stop : Char} {begins : Char → Bool}
    (starts : text.head?.any begins = true)
    (apart : ∀ character, begins character = true → character ≠ stop) :
    text.head?.any (· != stop) = true := by
  cases text with
  | nil => cases starts
  | cons first text => exact bne_iff_ne.mpr (apart first starts)

theorem Prints.type {depth : Nat} {text : List Char} {result : SyntaxTree}
    (prints : Prints depth (some .type) text result) : Reads endsType typeRef text result := by
  cases depth with
  | zero =>
      have read := prints.reads [] rfl
      cases read
  | succ depth => exact prints.reads

/-- Where no list depends on how the text begins, it is enough to read it. -/
theorem Prints.of_reads {depth : Nat} {place : Option Category} {text : List Char}
    {result : SyntaxTree} (unopened : opens place = none)
    (reads : Reads (follows place) (tree depth place) text result) :
    Prints depth place text result := by
  refine ⟨fun starts opened => ?_, reads⟩
  rw [unopened] at opened
  cases opened

section Nodes

variable {slot : Type} {texts : slot → String} {trees : slot → SyntaxTree} {depth : Nat}
  {kind : NodeKind slot}

/-- The form that a node is printed in, if it is none of a few others. -/
def form? : NodeKind slot → Option Form
  | .condition .. => some .condition
  | .loop .. => some .loop
  | .returnFrom (some _) => some .returnFrom
  | .call .. => some .call
  | .construct .. => some .construct
  | .newArray .. => some .newArray
  | .cast .. => some .cast
  | .memberAccess .. => some .memberAccess
  | .indexAccess .. => some .indexAccess
  | .definition .. => some .definition
  | .assign operator .. => some (.assign operator)
  | .binary operator .. => some (.binary operator)
  | .unary operator _ => some (.unary operator)
  | _ => none

theorem labelled_list (label first : String) (rest : List slot) :
    (Printer.labelled label (first :: rest.map texts)).toList = label.toList ++ ['('] ++
      (first.toList ++ rest.flatMap fun child => [',', ' '] ++ (texts child).toList) ++ [')'] := by
  simp only [Printer.labelled, String.toList_append, String.toList_intercalate, List.map_cons,
    intercalate_cons, List.flatMap_map]
  rfl

theorem labelled_pair (label first second : String) :
    (Printer.labelled label [first, second]).toList = label.toList ++ ['('] ++
      (first.toList ++ ([',', ' '] ++ second.toList)) ++ [')'] := by
  have text := @labelled_list String id label first [second]
  rwa [List.flatMap_singleton] at text

theorem labelled_single (label operand : String) :
    (Printer.labelled label [operand]).toList =
      label.toList ++ ['('] ++ operand.toList ++ [')'] := by
  have text := @labelled_list String id label operand []
  rwa [List.flatMap_nil, List.append_nil] at text

section Operands

variable {value other image : Type} {stops stops' : Char → Bool} {first : Reader value}
  {text text' : List Char} {found : value} {found' : other}

/-- The last operand stands in front of the closing parenthesis. -/
theorem reads_single (only : Reads stops first text found) (closes : stops ')' = true)
    (make : value → image) :
    Reads (before ')') (do return make (← first)) text (make found) :=
  (only.map make).weaken (of_before closes)

theorem reads_pair {second : Reader other} (one : Reads stops first text found)
    (goes : stops ',' = true) (two : Reads stops' second text' found') (closes : stops' ')' = true)
    (make : value → other → image) :
    Reads (before ')') (do
      let found ← first
      expect [',', ' ']
      return make found (← second)) (text ++ ([',', ' '] ++ text')) (make found found') :=
  one.bind (.expect (reads_single two closes (make found))) fun _ _ => goes

/-- A first operand, and any number of others. -/
theorem reads_list {item : Reader SyntaxTree} {items : List slot}
    (one : Reads stops first text found) (goes : stops ',' = true) (closes : stops ')' = true)
    (each : ∀ child ∈ items, Reads isEnd item (texts child).toList (trees child))
    (make : value → List SyntaxTree → image) :
    Reads (before ')') (do
      let found ← first
      return make found (← following [',', ' '] item))
      (text ++ items.flatMap fun child => [',', ' '] ++ (texts child).toList)
      (make found (items.map trees)) := by
  have closing : ∀ character, before ')' character = true →
      isEnd character = true ∧ character ≠ ',' := of_before (by decide)
  have others : Reads (before ')') (following [',', ' '] item)
      (items.flatMap fun child => [',', ' '] ++ (texts child).toList) (items.map trees) :=
    .following rfl (by decide) closing each
  exact one.bind (others.map (make found)) fun rest follows =>
    Reads.goes_on rfl goes (of_before closes) follows

end Operands

/-- What stands between the parentheses of a form is read. -/
theorem reads_operands {form : Form} (formed : form? kind = some form)
    (readable : kind.isReadable = true)
    (each : ∀ child ∈ kind.slots,
      Prints depth (some child.1) (texts child.2).toList (trees child.2)) :
    ∃ text, (Printer.plainText (kind.map texts)).toList =
        form.label.toList ++ ['('] ++ text ++ [')'] ∧
      Reads (before ')')
        (operands (fun category => tree depth (some category)) form) text
        (kind.map trees).unsourced := by
  have typed : ∀ {child}, (Category.type, child) ∈ kind.slots →
      Reads endsType typeRef (texts child).toList (trees child) :=
    fun member => (each _ member).type
  have expressed : ∀ {child}, (Category.expression, child) ∈ kind.slots →
      Reads isEnd (tree depth (some .expression)) (texts child).toList (trees child) :=
    fun member => (each _ member).reads
  have blocked : ∀ {child}, (Category.body, child) ∈ kind.slots →
      Reads isEnd (tree depth (some .body)) (texts child).toList (trees child) :=
    fun member => (each _ member).reads
  cases kind with
  | condition predicate thenBody elseBody =>
      cases formed
      have one := expressed (show (Category.expression, predicate) ∈ _ by simp [NodeKind.slots])
      have two := blocked (show (Category.body, thenBody) ∈ _ by simp [NodeKind.slots])
      cases elseBody with
      | none =>
          -- Without an else branch the reader has to see that no comma follows.
          have only : Reads (before ')') (do
              if ← accept [',', ' '] then
                return NodeKind.condition (trees predicate) (trees thenBody)
                  (some (← tree depth (some .body)))
              else return .condition (trees predicate) (trees thenBody) none) []
              (.condition (trees predicate) (trees thenBody) none) := by
            refine .refuse rfl (fun rest closes same => ?_) .done
            rw [List.nil_append] at same
            rw [same] at closes
            cases closes
          exact ⟨_, labelled_pair _ _ _,
            one.bind (.expect (two.alone only (of_before rfl))) fun _ _ => rfl⟩
      | some elseBody =>
          have three := blocked (show (Category.body, elseBody) ∈ _ by simp [NodeKind.slots])
          have text : (Printer.labelled "If" [texts predicate, texts thenBody, texts elseBody]).toList =
              "If".toList ++ ['('] ++ ((texts predicate).toList ++ ([',', ' '] ++
                ((texts thenBody).toList ++ ([',', ' '] ++ (texts elseBody).toList)))) ++ [')'] := by
            have text := @labelled_list String id "If" (texts predicate)
              [texts thenBody, texts elseBody]
            simpa using text
          have last := reads_single three rfl fun block =>
            NodeKind.condition (trees predicate) (trees thenBody) (some block)
          exact ⟨_, text, one.bind (.expect (two.bind (.accept last) fun _ _ => rfl)) fun _ _ => rfl⟩
  | loop predicate block =>
      cases formed
      exact ⟨_, labelled_pair _ _ _, reads_pair (expressed (by simp [NodeKind.slots])) rfl
        (blocked (by simp [NodeKind.slots])) rfl NodeKind.loop⟩
  | returnFrom value =>
      cases value with
      | none => cases formed
      | some value =>
          cases formed
          exact ⟨_, labelled_single _ _, reads_single (expressed (by simp [NodeKind.slots])) rfl
            fun value => NodeKind.returnFrom (some value)⟩
  | call name arguments =>
      cases formed
      exact ⟨_, labelled_list _ _ _, reads_list (reads_name readable) (by decide) (by decide)
        (fun child member => expressed (by simp [NodeKind.slots, member])) NodeKind.call⟩
  | construct type arguments =>
      cases formed
      exact ⟨_, labelled_list _ _ _, reads_list (typed (by simp [NodeKind.slots])) (by decide)
        (by decide) (fun child member => expressed (by simp [NodeKind.slots, member]))
        NodeKind.construct⟩
  | newArray element length =>
      cases formed
      exact ⟨_, labelled_pair _ _ _, reads_pair (typed (by simp [NodeKind.slots])) (by decide)
        (expressed (by simp [NodeKind.slots])) rfl NodeKind.newArray⟩
  | cast target inner source =>
      cases formed
      exact ⟨_, labelled_pair _ _ _, reads_pair (typed (by simp [NodeKind.slots])) (by decide)
        (expressed (by simp [NodeKind.slots])) rfl fun target inner => NodeKind.cast target inner none⟩
  | memberAccess owner name =>
      cases formed
      exact ⟨_, labelled_pair _ _ _, reads_pair (expressed (by simp [NodeKind.slots])) rfl
        (reads_name readable) (by decide) NodeKind.memberAccess⟩
  | indexAccess target index =>
      cases formed
      exact ⟨_, labelled_pair _ _ _, reads_pair (expressed (by simp [NodeKind.slots])) rfl
        (expressed (by simp [NodeKind.slots])) rfl NodeKind.indexAccess⟩
  | definition type name =>
      cases formed
      have named := reads_typed_name (fun child (member : child ∈ type) =>
        typed (by simpa [NodeKind.slots] using member)) readable
      have text : (Printer.plainText ((NodeKind.definition type name).map texts)).toList =
          "Def".toList ++ ['('] ++ ((Printer.ahead (type.map texts)).toList ++ name.toList) ++
            [')'] := by
        simp [NodeKind.map, Printer.plainText]
      exact ⟨_, text, reads_single named rfl fun found => NodeKind.definition found.1 found.2⟩
  | assign operator target value =>
      cases formed
      have text : Printer.plainText ((NodeKind.assign operator target value).map texts) =
          Printer.labelled (Form.assign operator).label [texts target, texts value] := by
        cases operator <;> rfl
      have left : Reads isEnd (tree depth (some operator.side)) (texts target).toList
          (trees target) := by
        have read := (each (operator.side, target) (by simp [NodeKind.slots])).reads
        cases operator <;> exact read
      rw [text]
      exact ⟨_, labelled_pair _ _ _, reads_pair left rfl (expressed (by simp [NodeKind.slots])) rfl
        (NodeKind.assign operator)⟩
  | binary operator left right =>
      cases formed
      exact ⟨_, labelled_pair _ _ _, reads_pair (expressed (by simp [NodeKind.slots])) rfl
        (expressed (by simp [NodeKind.slots])) rfl (NodeKind.binary operator)⟩
  | unary operator operand =>
      cases formed
      exact ⟨_, labelled_single _ _, reads_single (expressed (by simp [NodeKind.slots])) rfl
        (NodeKind.unary operator)⟩
  | _ => cases formed

section Phrases

variable {read : Category → Reader SyntaxTree} {category : Category} {stops : Char → Bool}
  {text : List Char} {result : SyntaxTree}

/-- What begins as a word does is a form or a single word. -/
theorem reads_named (starts : text.head?.any Lexeme.isWordStart = true)
    (named : Reads stops (named read category) text result) :
    Reads stops (phrase read category) text result := by
  cases head : text.head? with
  | none =>
      rw [head] at starts
      cases starts
  | some first =>
      rw [head, Option.any_some] at starts
      have apart : ∀ {character}, Lexeme.isWordStart character = false → first ≠ character := by
        rintro character other rfl
        rw [starts] at other
        cases other
      have letter : ¬ (first = '-' ∨ isAsciiDigit first = true) := by
        rintro (rfl | digit)
        · exact apart (by decide) rfl
        · rw [show Lexeme.isWordStart first = false from of_digit digit (by decide)] at starts
          cases starts
      unfold phrase
      refine .peek head ?_
      rw [if_neg (apart (by decide)), if_neg (apart (by decide)), if_neg (apart (by decide)),
        if_neg letter]
      exact named

theorem reads_form {form : Form} {operand : List Char} {kind : NodeKind SyntaxTree}
    (inside : Reads (before ')') (operands read form) operand kind) :
    Reads stops (phrase read category) (form.label.toList ++ ['('] ++ operand ++ [')'])
      (.node kind) := by
  rcases form.label_word with ⟨starts, parts⟩
  have begins : (form.label.toList ++ ['('] ++ operand ++ [')']).head?.any Lexeme.isWordStart =
      true := by
    cases label : form.label.toList with
    | nil =>
        rw [label] at starts
        cases starts
    | cons first body =>
        rw [label] at starts
        exact starts
  refine reads_named begins ?_
  rw [List.append_assoc, List.append_assoc]
  have goes : endsWord '(' = true := by decide
  refine (Reads.word parts).bind (.accept ?_) fun _ _ => goes
  rw [if_pos rfl, form.of_label]
  exact inside.bind .expected fun _ _ => rfl

/-- A single word. -/
theorem reads_atom {word : String} (starts : word.toList.head?.any Lexeme.isWordStart = true)
    (parts : word.toList.all Lexeme.isWordPart = true) (found : atom? category word = some result) :
    Reads isEnd (phrase read category) word.toList result := by
  -- No parenthesis follows, so the word is not a label.
  refine reads_named starts ((Reads.word parts).alone ?_ fun _ => end_not_part)
  refine .refuse rfl (fun rest ends same => ?_) ?_
  · rw [List.nil_append] at same
    rw [same] at ends
    cases ends
  · rw [if_neg Bool.false_ne_true, found]
    exact .done

/-- The literals that are printed exactly. -/
theorem reads_literal {value : Literal} (other : category ≠ .statement)
    (readable : (NodeKind.literal value : NodeKind SyntaxTree).isReadable = true) :
    Reads isEnd (phrase read category) value.text.toList (.node (.literal value)) := by
  have numbers : ∀ {value : Literal} {number : Int} {suffix : String},
      value.text = toString number ++ suffix → suffix.toList.all isAsciiLetter = true →
      suffix.toList.head?.isSome = true → suffixed? number suffix = some value →
      Reads isEnd (phrase read category) value.text.toList (.node (.literal value)) := by
    intro value number suffix text letters some' means
    rcases number_begins number with ⟨first, body, begins, sign⟩
    have apart : first ≠ '\x7b' ∧ first ≠ stringQuote ∧ first ≠ charQuote := by
      rcases sign with rfl | digit
      · decide
      · refine ⟨?_, ?_, ?_⟩ <;> rintro rfl <;> cases digit
    have head : value.text.toList.head? = some first := by
      rw [text, String.toList_append, begins]
      rfl
    have read := reads_number letters some' means
    rw [← text] at read
    refine .peek head ?_
    rw [if_neg apart.1, if_neg apart.2.1, if_neg apart.2.2, if_pos sign]
    exact (read.map _).weaken fun _ => end_not_part
  have words : ∀ {value : Literal}, value.text.toList.head?.any Lexeme.isWordStart = true →
      value.text.toList.all Lexeme.isWordPart = true →
      Lexeme.wordMeaning value.text = .literal value →
      Reads isEnd (phrase read category) value.text.toList (.node (.literal value)) := by
    intro value starts parts means
    refine reads_atom starts parts ?_
    rw [atom?, if_neg other, means]
  cases value with
  | int value => exact numbers rfl (by decide) rfl (by simp [suffixed?])
  | uint value => exact @numbers _ value.toNat _ rfl (by decide) rfl (by simp [suffixed?])
  | long value => exact numbers rfl (by decide) rfl (by simp [suffixed?])
  | ulong value => exact @numbers _ value.toNat _ rfl (by decide) rfl (by simp [suffixed?])
  | byte value => exact @numbers _ value.toNat _ rfl (by decide) rfl (by simp [suffixed?])
  | bool value => cases value <;> exact words (by decide) (by decide) rfl
  | null => exact words (by decide) (by decide) rfl
  | string value =>
      have text : (Literal.string value).text.toList = [stringQuote] ++
          (value.toList.flatMap (encodeChar stringQuote) ++ [stringQuote]) := by
        rw [Literal.text, quotedString, String.toList_ofList]
        rfl
      have inside := (reads_quoted (.inl rfl) value.toList).map fun characters =>
        SyntaxTree.node (.literal (.string (String.ofList characters)))
      rw [String.ofList_toList] at inside
      rw [text]
      exact .peek rfl (.expect inside.closed)
  | char value =>
      have text : (Literal.char value).text.toList = [charQuote] ++
          ([value].flatMap (encodeChar charQuote) ++ [charQuote]) := by
        rw [Literal.text, quotedChar, String.toList_ofList]
        rfl
      rw [text]
      exact .peek rfl (.expect (Reads.closed ((reads_quoted (.inr rfl) [value]).last rfl)))
  | float bits => cases readable
  | double bits => cases readable

theorem reads_block {statements : List slot}
    (each : ∀ child ∈ statements, Reads isEnd (read .statement) (texts child).toList (trees child)) :
    Reads anywhere (block read) (Printer.bodyText (statements.map texts)).toList
      (.node (.body (statements.map trees))) := by
  cases statements with
  | nil =>
      have empty : Reads anywhere (block read) (['\x7b'] ++ (['\x7d'] ++ [])) (.node (.body [])) :=
        .expect (.accept .done)
      have text : (Printer.bodyText (([] : List slot).map texts)).toList =
          ['\x7b'] ++ (['\x7d'] ++ []) := by
        simp [Printer.bodyText]
      rw [text]
      exact empty
  | cons first rest =>
      have text : (Printer.bodyText ((first :: rest).map texts)).toList = ['\x7b'] ++ ([' '] ++
          ((texts first).toList ++ ((rest.flatMap fun child => [';', ' '] ++ (texts child).toList) ++
            [' ', '\x7d']))) := by
        simp only [Printer.bodyText, List.map_cons, List.isEmpty_cons, Bool.false_eq_true, if_false,
          String.toList_append, String.toList_intercalate, intercalate_cons, List.flatMap_map,
          List.map_map, List.append_assoc]
        rfl
      have closing : ∀ character, before ' ' character = true →
          isEnd character = true ∧ character ≠ ';' := of_before (by decide)
      have others : Reads (before ' ') (following [';', ' '] (read .statement))
          (rest.flatMap fun child => [';', ' '] ++ (texts child).toList) (rest.map trees) :=
        .following rfl (by decide) closing fun child member =>
          each child (List.mem_cons_of_mem _ member)
      rw [text]
      refine .expect (.refuse rfl (fun _ _ => by simp) (.expect ?_))
      refine (each first List.mem_cons_self).bind (others.bind .expected fun _ _ => rfl)
        fun behind _ => ?_
      rw [List.append_assoc]
      exact Reads.goes_on rfl (by decide) (fun next closed => (closing next closed).1) rfl

/-- A part of a module is read, whatever it is. -/
theorem reads_part {category : Category} {text : List Char}
    (listed : category ∈ [Category.moduleDef, .useDef, .function])
    (prints : Prints depth (some category) text result) :
    Reads isEnd (part fun category => tree depth (some category)) text (category, result) := by
  obtain ⟨letter, opened, chosen, ends⟩ : ∃ letter, opens (some category) = some (· == letter) ∧
      (if letter = 'M' then Category.moduleDef else if letter = 'U' then .useDef else .function) =
        category ∧ follows (some category) = isEnd := by
    simp only [List.mem_cons, List.not_mem_nil, or_false] at listed
    rcases listed with rfl | rfl | rfl
    · exact ⟨'M', rfl, rfl, rfl⟩
    · exact ⟨'U', rfl, rfl, rfl⟩
    · exact ⟨'F', rfl, rfl, rfl⟩
  have begins := prints.begins _ opened
  have head : text.head? = some letter := by
    cases text with
    | nil => cases begins
    | cons first text => rw [beq_iff_eq.mp begins, List.head?_cons]
  have reads := prints.reads
  rw [ends] at reads
  refine .peek head ?_
  rw [chosen]
  exact reads.map _

end Phrases

theorem reads_function {result : Option slot} {name : String} {parameters : List slot} {body : slot}
    (named : isName name = true)
    (typed : ∀ child ∈ result, Reads endsType typeRef (texts child).toList (trees child))
    (each : ∀ child ∈ parameters,
      Prints depth (some .parameter) (texts child).toList (trees child))
    (blocked : Reads isEnd (tree depth (some .body)) (texts body).toList (trees body)) :
    Reads anywhere (tree (depth + 1) (some .function))
      (Printer.plainText ((NodeKind.function result name parameters body).map texts)).toList
      (.node ((NodeKind.function result name parameters body).map trees)) := by
  have text : (Printer.plainText
      ((NodeKind.function result name parameters body).map texts)).toList =
      "Fn(".toList ++ (((Printer.ahead (result.map texts)).toList ++ name.toList) ++ (['('] ++
        (([',', ' '].intercalate (parameters.map fun child => (texts child).toList) ++ [')']) ++
          ([' '] ++ ((texts body).toList ++ [')']))))) := by
    simp [NodeKind.map, Printer.plainText, Printer.labelled, String.toList_intercalate,
      Function.comp_def]
  have begins : ∀ child ∈ parameters, (texts child).toList.head?.any (· != ')') = true := by
    intro child member
    apply begins_apart ((each child member).begins _ rfl)
    rintro _ starts rfl
    cases starts
  have list : Reads anywhere (separated [',', ' '] [')'] (tree depth (some .parameter)))
      ([',', ' '].intercalate (parameters.map fun child => (texts child).toList) ++ [')'])
      (parameters.map trees) :=
    .separated rfl rfl (by decide) rfl rfl (fun child member => (each child member).reads) begins
  rw [text]
  refine .expect ((reads_typed_name typed named).bind (.expect (list.bind (.expect
    (blocked.bind .expected fun _ _ => rfl)) fun _ _ => rfl)) fun _ _ => rfl)

theorem reads_root {modules imports functions : List slot}
    (each : ∀ child ∈ (NodeKind.root modules imports functions).slots,
      Prints depth (some child.1) (texts child.2).toList (trees child.2)) :
    Reads anywhere (tree (depth + 1) none)
      (Printer.plainText ((NodeKind.root modules imports functions).map texts)).toList
      (.node ((NodeKind.root modules imports functions).map trees)) := by
  have text : (Printer.plainText ((NodeKind.root modules imports functions).map texts)).toList =
      "Root[".toList ++ ([';', ' '].intercalate ((NodeKind.root modules imports functions).slots.map
        fun child => (texts child.2).toList) ++ [']']) := by
    simp [NodeKind.map, NodeKind.slots, Printer.plainText, String.toList_intercalate,
      Function.comp_def]
  have listed : ∀ child ∈ (NodeKind.root modules imports functions).slots,
      child.1 ∈ [Category.moduleDef, .useDef, .function] := by
    simp only [NodeKind.slots, List.mem_append, List.mem_map]
    rintro _ ((⟨_, -, rfl⟩ | ⟨_, -, rfl⟩) | ⟨_, -, rfl⟩) <;> simp
  have begins : ∀ child ∈ (NodeKind.root modules imports functions).slots,
      (texts child.2).toList.head?.any (· != ']') = true := by
    intro child member
    have known := listed child member
    simp only [List.mem_cons, List.not_mem_nil, or_false] at known
    obtain ⟨starts, opened, apart⟩ : ∃ starts, opens (some child.1) = some starts ∧
        starts ']' = false := by
      rcases known with same | same | same <;> rw [same] <;> exact ⟨_, rfl, rfl⟩
    apply begins_apart ((each child member).begins _ opened)
    rintro _ begun rfl
    rw [apart] at begun
    cases begun
  have list : Reads anywhere
      (separated [';', ' '] [']'] (part fun category => tree depth (some category)))
      ([';', ' '].intercalate ((NodeKind.root modules imports functions).slots.map
        fun child => (texts child.2).toList) ++ [']'])
      ((NodeKind.root modules imports functions).slots.map fun child => (child.1, trees child.2)) :=
    .separated rfl rfl (by decide) rfl rfl
      (fun child member => reads_part (listed child member) (each child member)) begins
  rw [text]
  refine .expect (list.last ?_)
  simp [NodeKind.slots, NodeKind.map, List.filter_map, Function.comp_def]

/-- The places in which a node may stand. -/
def homes : NodeKind slot → List (Option Category)
  | .root .. => [none]
  | .moduleDef _ => [some .moduleDef]
  | .useDef _ => [some .useDef]
  | .function .. => [some .function]
  | .parameter .. => [some .parameter]
  | .typeRef .. => [some .type]
  | .body _ => [some .body, some .statement]
  | .returnFrom none | .breakLoop | .continueLoop => [some .statement]
  | .literal _ => [some .expression]
  | .member _ => [some .target, some .place, some .expression]
  | _ => [some .statement, some .target, some .place, some .expression]

theorem home_of_fits {place : Option Category} (fits : kind.fits place = true) :
    place ∈ homes kind := by
  cases place with
  | none => cases kind <;> first | cases fits; done | exact List.mem_singleton_self _
  | some category =>
      cases kind with
      | returnFrom value => cases value <;> cases category <;> first | cases fits; done | simp [homes]
      | _ => cases category <;> first | cases fits; done | simp [homes]

/-- A form is a statement or an expression. -/
theorem phrase_of_form {form : Form} {place : Option Category} (formed : form? kind = some form)
    (fits : kind.fits place = true) :
    ∃ category, place = some category ∧ follows place = isEnd ∧ opens place = none ∧
      ∀ depth, tree (depth + 1) place =
        phrase (fun category => tree depth (some category)) category := by
  have home : place ∈ [some .statement, some .target, some .place, some .expression] := by
    have known := home_of_fits fits
    cases kind with
    | returnFrom value =>
        cases value with
        | none => cases formed
        | some value => exact known
    | _ => first | exact known | cases formed
  simp only [List.mem_cons, List.not_mem_nil, or_false] at home
  rcases home with rfl | rfl | rfl | rfl <;> exact ⟨_, rfl, rfl, rfl, fun _ => rfl⟩

theorem begins_behind {text more : List Char} {begins : Char → Bool}
    (starts : text.head?.any begins = true) : (text ++ more).head?.any begins = true := by
  cases text with
  | nil => cases starts
  | cons first text => exact starts

theorem body_begins (statements : List String) :
    (Printer.bodyText statements).toList.head? = some '\x7b' := by
  rw [Printer.bodyText]
  split
  · rfl
  · rw [String.append_assoc, String.toList_append]
    rfl

theorem reads_labelled_path {label : String} {path : ModulePath} (writable : path.isWritable = true)
    (make : ModulePath → SyntaxTree) :
    Reads anywhere (do
      expect (label.toList ++ ['('])
      let path ← Printed.path
      expect [')']
      return make path) (Printer.labelled label [path.text]).toList (make path) := by
  rw [labelled_single, List.append_assoc]
  exact .expect ((reads_path writable).bind .expected fun _ _ => rfl)

/-- A jump is printed as a single word. -/
theorem prints_jump {word : String} {result : SyntaxTree}
    (starts : word.toList.head?.any Lexeme.isWordStart = true)
    (parts : word.toList.all Lexeme.isWordPart = true) (found : jump? word = some result) :
    Prints (depth + 1) (some .statement) word.toList result :=
  .of_reads rfl (reads_atom starts parts found)

theorem prints_parameter {type : slot} {name : String}
    (typed : Prints depth (some .type) (texts type).toList (trees type))
    (named : isName name = true) :
    Prints (depth + 1) (some .parameter) (Printer.plainText (.parameter (texts type) name)).toList
      (.node (.parameter (trees type) name)) := by
  have text : (Printer.plainText (.parameter (texts type) name)).toList =
      (texts type).toList ++ ([' '] ++ name.toList) := by
    simp [Printer.plainText]
  have last := (reads_name named).map fun name => SyntaxTree.node (.parameter (trees type) name)
  have goes : endsType ' ' = true := by decide
  rw [text]
  refine ⟨?_, typed.type.bind (.expect (last.weaken fun _ => end_not_part)) fun _ _ => goes⟩
  rintro _ ⟨⟩
  exact begins_behind (typed.begins _ rfl)

theorem prints_body {place : Option Category} {statements : List slot}
    (home : place = some .body ∨ place = some .statement)
    (each : ∀ child ∈ statements,
      Reads isEnd (tree depth (some .statement)) (texts child).toList (trees child)) :
    Prints (depth + 1) place (Printer.bodyText (statements.map texts)).toList
      (.node (.body (statements.map trees))) := by
  have block := @reads_block _ texts trees (fun category => tree depth (some category))
    statements each
  rcases home with rfl | rfl
  · exact .of_reads rfl block.closed
  · refine .of_reads rfl (.peek (body_begins (statements.map texts)) ?_)
    rw [if_pos rfl]
    exact block.closed

/-- A name is no statement by itself, so it is not taken for a jump. -/
theorem prints_member {place : Option Category} {name : String}
    (home : place = some .target ∨ place = some .place ∨ place = some .expression)
    (named : isName name = true) :
    Prints (depth + 1) place name.toList (.node (.member name)) := by
  have read : ∀ {category}, category ≠ Category.statement →
      Reads isEnd (phrase (fun category => tree depth (some category)) category) name.toList
        (.node (.member name)) := by
    intro category other
    refine reads_atom (name_starts named) (name_parts named) ?_
    rw [atom?, if_neg other, name_means named]
  rcases home with rfl | rfl | rfl
  · exact .of_reads rfl (read (by decide))
  · exact .of_reads rfl (read (by decide))
  · exact .of_reads rfl (read (by decide))

/-- What is printed for a node is read, if what is printed for its children is. -/
theorem prints_node {place : Option Category} (fits : kind.fits place = true)
    (readable : kind.isReadable = true)
    (each : ∀ child ∈ kind.slots,
      Prints depth (some child.1) (texts child.2).toList (trees child.2)) :
    Prints (depth + 1) place (Printer.plainText (kind.map texts)).toList
      (.node (kind.map trees).unsourced) := by
  have home := home_of_fits fits
  cases formed : form? kind with
  | some form =>
      rcases phrase_of_form formed fits with ⟨category, rfl, ends, begins, reads⟩
      rcases reads_operands formed readable each with ⟨text, same, inside⟩
      apply Prints.of_reads begins
      rw [same, ends, reads]
      exact reads_form inside
  | none =>
      cases kind with
      | root modules imports functions =>
          obtain rfl := List.mem_singleton.mp home
          exact .of_reads rfl (reads_root each).closed
      | moduleDef path =>
          obtain rfl := List.mem_singleton.mp home
          refine ⟨by simp [NodeKind.map, Printer.plainText, Printer.labelled, opens], ?_⟩
          exact (@reads_labelled_path "Module" path readable fun path => .node (.moduleDef path)).closed
      | useDef path =>
          obtain rfl := List.mem_singleton.mp home
          refine ⟨by simp [NodeKind.map, Printer.plainText, Printer.labelled, opens], ?_⟩
          exact (@reads_labelled_path "Use" path readable fun path => .node (.useDef path)).closed
      | function result name parameters body =>
          obtain rfl := List.mem_singleton.mp home
          refine ⟨by simp [NodeKind.map, Printer.plainText, opens], ?_⟩
          refine (reads_function readable ?_ ?_ (each (.body, body) (by simp [NodeKind.slots])).reads).closed
          · exact fun child member =>
              (each (.type, child) (by simpa [NodeKind.slots] using member)).type
          · exact fun child member => each (.parameter, child) (by simp [NodeKind.slots, member])
      | parameter type name =>
          obtain rfl := List.mem_singleton.mp home
          exact prints_parameter (each (.type, type) (by simp [NodeKind.slots])) readable
      | body statements =>
          simp only [homes, List.mem_cons, List.not_mem_nil, or_false] at home
          exact prints_body home fun child member =>
            (each (.statement, child) (by simp [NodeKind.slots, member])).reads
      | returnFrom value =>
          cases value with
          | some value => cases formed
          | none =>
              obtain rfl := List.mem_singleton.mp home
              exact @prints_jump depth "Return" _ (by decide) (by decide) rfl
      | breakLoop =>
          obtain rfl := List.mem_singleton.mp home
          exact @prints_jump depth "Break" _ (by decide) (by decide) rfl
      | continueLoop =>
          obtain rfl := List.mem_singleton.mp home
          exact @prints_jump depth "Continue" _ (by decide) (by decide) rfl
      | member name =>
          simp only [homes, List.mem_cons, List.not_mem_nil, or_false] at home
          exact prints_member home readable
      | literal value =>
          obtain rfl := List.mem_singleton.mp home
          have exactly : (NodeKind.literal value : NodeKind SyntaxTree).isReadable = true := by
            cases value <;> exact readable
          exact .of_reads rfl (reads_literal (by decide) exactly)
      | typeRef name ranks =>
          obtain rfl := List.mem_singleton.mp home
          simp only [NodeKind.isReadable, Bool.and_eq_true, List.all_eq_true,
            decide_eq_true_eq] at readable
          refine ⟨?_, reads_type readable.1 readable.2⟩
          rintro _ ⟨⟩
          change (name ++ _).toList.head?.any Lexeme.isWordStart = true
          rw [String.toList_append]
          exact begins_behind (name_starts readable.1)
      | _ => cases formed

end Nodes

end Printed

namespace Arena

variable {arena : Arena}

/-- The tree below a node, without the types and without what casts have noted. -/
def plainTree? (arena : Arena) (root : NodeId) : Option SyntaxTree :=
  arena.fold? (fun _ kind _ => .node kind.unsourced) root

/-- What is printed for a node of an arena tells the tree below it. -/
theorem prints_of_fold {depth : Nat} {id : NodeId} {place : Option Category} {result : SyntaxTree}
    (found : arena.foldWithin (fun _ kind _ => SyntaxTree.node kind.unsourced) depth id = some result)
    (shaped : result.IsShaped place) :
    ∃ text, arena.foldWithin (fun _ kind _ => Printer.plainText kind) depth id = some text ∧
      Printed.Prints depth place text.toList result := by
  induction depth generalizing id place result with
  | zero => cases found
  | succ depth ih =>
      rcases Folds.parts found with ⟨kind, trees, known, rfl, held⟩
      cases shaped with
      | node fits readable each =>
          rw [NodeKind.unsourced_fits] at fits
          rw [NodeKind.unsourced_readable] at readable
          rw [NodeKind.unsourced_slots] at each
          have printed : ∀ slot ∈ kind.slots, ∃ text,
              arena.foldWithin (fun _ kind _ => Printer.plainText kind) depth slot.2 = some text ∧
                Printed.Prints depth (some slot.1) text.toList (trees slot.2) := fun slot member =>
            ih (held slot.2 (NodeKind.slot_is_child member))
              (each (slot.1, trees slot.2) (List.mem_map_of_mem member))
          -- A node may stand in two slots; its text is the same in both.
          have shown : ∀ child, child ∈ kind.children → ∃ text,
              arena.foldWithin (fun _ kind _ => Printer.plainText kind) depth child = some text := by
            intro child inside
            rcases NodeKind.child_has_slot inside with ⟨category, member⟩
            rcases printed _ member with ⟨text, same, -⟩
            exact ⟨text, same⟩
          choose! texts shown using shown
          refine ⟨_, fold_within_node known shown, Printed.prints_node fits readable ?_⟩
          intro slot member
          rcases printed slot member with ⟨text, same, prints⟩
          obtain rfl : texts slot.2 = text :=
            Option.some.inj ((shown slot.2 (NodeKind.slot_is_child member)).symm.trans same)
          exact prints

/-- In different places one text may stand for different trees. -/
example : (Arena.mk #[⟨.typeRef "Root" [1], none⟩]).text? ⟨0⟩ =
    (Arena.mk #[⟨.root [] [] [], none⟩]).text? ⟨0⟩ := by decide +kernel

end Arena

end ModuleLang
