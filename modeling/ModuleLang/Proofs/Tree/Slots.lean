import Mathlib.Data.List.Forall2
import Mathlib.Data.List.Nodup
import ModuleLang.Tree.Node

/-!
What stands in the child slots of a node. Every slot has a category, which says
what kinds of node may stand in it. `NodeKind.Alike` relates two nodes of one
kind slot by slot, and everything that inference does to a node is said with it.
-/

namespace ModuleLang

/-- What a child slot is for. -/
inductive Category
  | moduleDef
  | useDef
  | function
  | parameter
  | type
  | body
  | statement
  /-- Left of an assignment. -/
  | target
  /-- Left of a compound assignment. -/
  | place
  | expression
deriving DecidableEq

/-- What stands left of an assignment. -/
def AssignOperator.side : AssignOperator → Category
  | .assign => .target
  | _ => .place

namespace NodeKind

variable {slot other : Type}

/-- Whether a node stands in a body by itself. -/
def isStatement : NodeKind slot → Bool
  | definition (some _) _ | assign .. | condition .. | loop .. | returnFrom _ | breakLoop
  | continueLoop | body _ | call .. | construct .. => true
  | unary operator _ => operator.isStep
  | _ => false

/-- Whether a value can be assigned to a node. -/
def isTarget : NodeKind slot → Bool
  | member _ | memberAccess .. | indexAccess .. | definition (some _) _ => true
  | _ => false

/-- Whether a node names what is there already. -/
def isPlace : NodeKind slot → Bool
  | member _ | memberAccess .. | indexAccess .. => true
  | _ => false

/-- A kind as it is parsed, before the source of a cast is looked for. -/
def unsourced : NodeKind slot → NodeKind slot
  | cast target inner _ => cast target inner none
  | kind => kind

/-- Child slots in source order, with their categories. -/
def slots : NodeKind slot → List (Category × slot)
  | root modules imports functions =>
      modules.map (Prod.mk .moduleDef) ++ imports.map (Prod.mk .useDef) ++
        functions.map (Prod.mk .function)
  | function result _ parameters block =>
      result.toList.map (Prod.mk .type) ++ parameters.map (Prod.mk .parameter) ++ [(.body, block)]
  | parameter type _ => [(.type, type)]
  | body statements => statements.map (Prod.mk .statement)
  | condition predicate thenBody elseBody =>
      (.expression, predicate) :: (.body, thenBody) :: elseBody.toList.map (Prod.mk .body)
  | loop predicate block => [(.expression, predicate), (.body, block)]
  | returnFrom value => value.toList.map (Prod.mk .expression)
  | call _ arguments => arguments.map (Prod.mk .expression)
  | construct type arguments => (.type, type) :: arguments.map (Prod.mk .expression)
  | newArray element length => [(.type, element), (.expression, length)]
  | cast target inner _ => [(.type, target), (.expression, inner)]
  | memberAccess owner _ => [(.expression, owner)]
  | indexAccess target index => [(.expression, target), (.expression, index)]
  | definition type _ => type.toList.map (Prod.mk .type)
  | assign operator target value => [(operator.side, target), (.expression, value)]
  | binary _ left right => [(.expression, left), (.expression, right)]
  | unary _ operand => [(.expression, operand)]
  | moduleDef _ | useDef _ | breakLoop | continueLoop | member _ | literal _ | typeRef .. => []

theorem slots_are_children (kind : NodeKind slot) : kind.slots.map Prod.snd = kind.children := by
  cases kind <;> simp [slots, children, Function.comp_def]

theorem unsourced_of_leaf {kind : NodeKind slot} (leaf : kind.slots = []) :
    kind.unsourced = kind := by
  cases kind with
  | cast target inner source => simp [slots] at leaf
  | _ => rfl

theorem slot_is_child {kind : NodeKind slot} {category : Category} {child : slot}
    (member : (category, child) ∈ kind.slots) : child ∈ kind.children := by
  rw [← slots_are_children]
  exact List.mem_map_of_mem (f := Prod.snd) member

theorem child_has_slot {kind : NodeKind slot} {child : slot} (member : child ∈ kind.children) :
    ∃ category, (category, child) ∈ kind.slots := by
  rw [← slots_are_children] at member
  obtain ⟨⟨category, found⟩, inside, rfl⟩ := List.mem_map.mp member
  exact ⟨category, inside⟩

theorem slots_of_leaf {kind : NodeKind slot} (leaf : kind.children = []) : kind.slots = [] := by
  rw [← slots_are_children, List.map_eq_nil_iff] at leaf
  exact leaf

/-- A child that stands in one slot only has one category. -/
theorem slot_category_unique {kind : NodeKind slot} (distinct : kind.children.Nodup)
    {first second : Category} {child : slot} (left : (first, child) ∈ kind.slots)
    (right : (second, child) ∈ kind.slots) : first = second := by
  rw [← slots_are_children] at distinct
  exact congrArg Prod.fst (List.inj_on_of_nodup_map distinct left right rfl)

/-- Replaces every child slot. -/
def map (change : slot → other) : NodeKind slot → NodeKind other
  | root modules imports functions =>
      root (modules.map change) (imports.map change) (functions.map change)
  | moduleDef path => moduleDef path
  | useDef path => useDef path
  | function result name parameters block =>
      function (result.map change) name (parameters.map change) (change block)
  | parameter type name => parameter (change type) name
  | body statements => body (statements.map change)
  | condition predicate thenBody elseBody =>
      condition (change predicate) (change thenBody) (elseBody.map change)
  | loop predicate block => loop (change predicate) (change block)
  | returnFrom value => returnFrom (value.map change)
  | breakLoop => breakLoop
  | continueLoop => continueLoop
  | call name arguments => call name (arguments.map change)
  | construct type arguments => construct (change type) (arguments.map change)
  | newArray element length => newArray (change element) (change length)
  | cast target inner source => cast (change target) (change inner) source
  | member name => member name
  | memberAccess owner name => memberAccess (change owner) name
  | indexAccess target index => indexAccess (change target) (change index)
  | definition type name => definition (type.map change) name
  | assign operator target value => assign operator (change target) (change value)
  | binary operator left right => binary operator (change left) (change right)
  | unary operator operand => unary operator (change operand)
  | literal value => literal value
  | typeRef name ranks => typeRef name ranks

theorem children_map (change : slot → other) (kind : NodeKind slot) :
    (kind.map change).children = kind.children.map change := by
  cases kind with
  | function result name parameters block => cases result <;> simp [map, children]
  | condition predicate thenBody elseBody => cases elseBody <;> simp [map, children]
  | returnFrom value => cases value <;> simp [map, children]
  | definition type name => cases type <;> simp [map, children]
  | _ => simp [map, children]

/-- Kinds with the same fields, whose slots stand for each other. The source
that a cast has noted is left open. -/
inductive Alike (stands : Category → slot → other → Prop) : NodeKind slot → NodeKind other → Prop
  | root {modules imports functions modules' imports' functions'}
      (first : List.Forall₂ (stands .moduleDef) modules modules')
      (second : List.Forall₂ (stands .useDef) imports imports')
      (third : List.Forall₂ (stands .function) functions functions') :
      Alike stands (.root modules imports functions) (.root modules' imports' functions')
  | moduleDef (path) : Alike stands (.moduleDef path) (.moduleDef path)
  | useDef (path) : Alike stands (.useDef path) (.useDef path)
  | function {result name parameters block result' parameters' block'}
      (first : Option.Rel (stands .type) result result')
      (second : List.Forall₂ (stands .parameter) parameters parameters')
      (third : stands .body block block') :
      Alike stands (.function result name parameters block)
        (.function result' name parameters' block')
  | parameter {type name type'} (only : stands .type type type') :
      Alike stands (.parameter type name) (.parameter type' name)
  | body {statements statements'} (all : List.Forall₂ (stands .statement) statements statements') :
      Alike stands (.body statements) (.body statements')
  | condition {predicate thenBody elseBody predicate' thenBody' elseBody'}
      (first : stands .expression predicate predicate') (second : stands .body thenBody thenBody')
      (third : Option.Rel (stands .body) elseBody elseBody') :
      Alike stands (.condition predicate thenBody elseBody)
        (.condition predicate' thenBody' elseBody')
  | loop {predicate block predicate' block'} (first : stands .expression predicate predicate')
      (second : stands .body block block') :
      Alike stands (.loop predicate block) (.loop predicate' block')
  | returnFrom {value value'} (only : Option.Rel (stands .expression) value value') :
      Alike stands (.returnFrom value) (.returnFrom value')
  | breakLoop : Alike stands .breakLoop .breakLoop
  | continueLoop : Alike stands .continueLoop .continueLoop
  | call {name arguments arguments'}
      (all : List.Forall₂ (stands .expression) arguments arguments') :
      Alike stands (.call name arguments) (.call name arguments')
  | construct {type arguments type' arguments'} (first : stands .type type type')
      (rest : List.Forall₂ (stands .expression) arguments arguments') :
      Alike stands (.construct type arguments) (.construct type' arguments')
  | newArray {element length element' length'} (first : stands .type element element')
      (second : stands .expression length length') :
      Alike stands (.newArray element length) (.newArray element' length')
  | cast {target inner source target' inner' source'} (first : stands .type target target')
      (second : stands .expression inner inner') :
      Alike stands (.cast target inner source) (.cast target' inner' source')
  | member (name) : Alike stands (.member name) (.member name)
  | memberAccess {owner name owner'} (only : stands .expression owner owner') :
      Alike stands (.memberAccess owner name) (.memberAccess owner' name)
  | indexAccess {target index target' index'} (first : stands .expression target target')
      (second : stands .expression index index') :
      Alike stands (.indexAccess target index) (.indexAccess target' index')
  | definition {type name type'} (only : Option.Rel (stands .type) type type') :
      Alike stands (.definition type name) (.definition type' name)
  | assign {operator target value target' value'} (first : stands operator.side target target')
      (second : stands .expression value value') :
      Alike stands (.assign operator target value) (.assign operator target' value')
  | binary {operator left right left' right'} (first : stands .expression left left')
      (second : stands .expression right right') :
      Alike stands (.binary operator left right) (.binary operator left' right')
  | unary {operator operand operand'} (only : stands .expression operand operand') :
      Alike stands (.unary operator operand) (.unary operator operand')
  | literal (value) : Alike stands (.literal value) (.literal value)
  | typeRef (name ranks) : Alike stands (.typeRef name ranks) (.typeRef name ranks)

theorem map_id (kind : NodeKind slot) : kind.map id = kind := by
  cases kind <;> simp [map]

namespace Alike

theorem refl {stands : Category → slot → slot → Prop} (same : ∀ category child,
    stands category child child) (kind : NodeKind slot) : Alike stands kind kind := by
  have lists : ∀ category (children : List slot),
      List.Forall₂ (stands category) children children := fun category children =>
    List.forall₂_same.mpr fun child _ => same category child
  have options : ∀ category (child : Option slot),
      Option.Rel (stands category) child child := by
    intro category child
    cases child with
    | none => exact .none
    | some child => exact .some (same category child)
  cases kind <;> constructor <;> first | exact lists _ _ | exact options _ _ | exact same _ _

/-- The slots of related kinds correspond in order. -/
theorem slots_correspond {stands : Category → slot → other → Prop} {kind : NodeKind slot}
    {image : NodeKind other} (related : Alike stands kind image) :
    List.Forall₂ (fun first second => first.1 = second.1 ∧ stands first.1 first.2 second.2)
      kind.slots image.slots := by
  have lists : ∀ category (first : List slot) (second : List other),
      List.Forall₂ (stands category) first second →
      List.Forall₂ (fun first second => first.1 = second.1 ∧ stands first.1 first.2 second.2)
        (first.map (Prod.mk category)) (second.map (Prod.mk category)) := by
    intro category first second matched
    rw [List.forall₂_map_left_iff, List.forall₂_map_right_iff]
    exact matched.imp fun _ _ held => ⟨rfl, held⟩
  have options : ∀ category (first : Option slot) (second : Option other),
      Option.Rel (stands category) first second →
      List.Forall₂ (stands category) first.toList second.toList := by
    intro category first second matched
    cases matched with
    | none => exact .nil
    | some held => exact .cons held .nil
  cases related with
  | root first second third =>
      exact List.rel_append (List.rel_append (lists _ _ _ first) (lists _ _ _ second))
        (lists _ _ _ third)
  | function first second third =>
      exact List.rel_append (List.rel_append (lists _ _ _ (options _ _ _ first))
        (lists _ _ _ second)) (.cons ⟨rfl, third⟩ .nil)
  | condition first second third =>
      exact .cons ⟨rfl, first⟩ (.cons ⟨rfl, second⟩ (lists _ _ _ (options _ _ _ third)))
  | construct first rest => exact .cons ⟨rfl, first⟩ (lists _ _ _ rest)
  | body all => exact lists _ _ _ all
  | call all => exact lists _ _ _ all
  | returnFrom only => exact lists _ _ _ (options _ _ _ only)
  | definition only => exact lists _ _ _ (options _ _ _ only)
  | loop first second => exact .cons ⟨rfl, first⟩ (.cons ⟨rfl, second⟩ .nil)
  | newArray first second => exact .cons ⟨rfl, first⟩ (.cons ⟨rfl, second⟩ .nil)
  | cast first second => exact .cons ⟨rfl, first⟩ (.cons ⟨rfl, second⟩ .nil)
  | indexAccess first second => exact .cons ⟨rfl, first⟩ (.cons ⟨rfl, second⟩ .nil)
  | assign first second => exact .cons ⟨rfl, first⟩ (.cons ⟨rfl, second⟩ .nil)
  | binary first second => exact .cons ⟨rfl, first⟩ (.cons ⟨rfl, second⟩ .nil)
  | parameter only => exact .cons ⟨rfl, only⟩ .nil
  | memberAccess only => exact .cons ⟨rfl, only⟩ .nil
  | unary only => exact .cons ⟨rfl, only⟩ .nil
  | _ => exact .nil

/-- Every slot of the image stands for a slot of the same category. -/
theorem slot_origin {stands : Category → slot → other → Prop} {kind : NodeKind slot}
    {image : NodeKind other} (related : Alike stands kind image) {category : Category}
    {child : other} (inside : (category, child) ∈ image.slots) :
    ∃ origin, (category, origin) ∈ kind.slots ∧ stands category origin child := by
  have matched := related.slots_correspond
  obtain ⟨index, bound, found⟩ := List.getElem_of_mem inside
  have bound' : index < kind.slots.length := matched.length_eq ▸ bound
  have held := List.Forall₂.get matched bound' bound
  simp only [List.get_eq_getElem, found] at held
  obtain ⟨same, standing⟩ := held
  have member := List.getElem_mem bound'
  generalize kind.slots[index] = origin at same standing member
  obtain ⟨from', origin⟩ := origin
  dsimp only at same standing
  subst same
  exact ⟨origin, member, standing⟩

/-- Every slot has something of the same category that stands for it. -/
theorem slot_image {stands : Category → slot → other → Prop} {kind : NodeKind slot}
    {image : NodeKind other} (related : Alike stands kind image) {category : Category}
    {origin : slot} (inside : (category, origin) ∈ kind.slots) :
    ∃ child, (category, child) ∈ image.slots ∧ stands category origin child := by
  have matched := related.slots_correspond
  obtain ⟨index, bound, found⟩ := List.getElem_of_mem inside
  have bound' : index < image.slots.length := matched.length_eq ▸ bound
  have held := List.Forall₂.get matched bound bound'
  simp only [List.get_eq_getElem, found] at held
  obtain ⟨same, standing⟩ := held
  have member := List.getElem_mem bound'
  generalize image.slots[index] = child at same standing member
  obtain ⟨category', child⟩ := child
  dsimp only at same standing
  subst same
  exact ⟨child, member, standing⟩

/-- Changing the slots of the image changes what they stand for. -/
theorem map_right {image : Type} {stands : Category → slot → other → Prop}
    {result : Category → slot → image → Prop} {kind : NodeKind slot} {middle : NodeKind other}
    (related : Alike stands kind middle) (change : other → image)
    (respects : ∀ category first second, (category, first) ∈ kind.slots →
      (category, second) ∈ middle.slots → stands category first second →
      result category first (change second)) :
    Alike result kind (middle.map change) := by
  have lists : ∀ category (first : List slot) (second : List other),
      (∀ child ∈ first, (category, child) ∈ kind.slots) →
      (∀ child ∈ second, (category, child) ∈ middle.slots) →
      List.Forall₂ (stands category) first second →
      List.Forall₂ (result category) first (second.map change) := by
    intro category first second left right matched
    rw [List.forall₂_map_right_iff]
    induction matched with
    | nil => exact .nil
    | cons held rest ih =>
        exact .cons (respects _ _ _ (left _ (by simp)) (right _ (by simp)) held)
          (ih (fun child inside => left child (by simp [inside]))
            fun child inside => right child (by simp [inside]))
  have options : ∀ category (first : Option slot) (second : Option other),
      (∀ child ∈ first, (category, child) ∈ kind.slots) →
      (∀ child ∈ second, (category, child) ∈ middle.slots) →
      Option.Rel (stands category) first second →
      Option.Rel (result category) first (second.map change) := by
    intro category first second left right matched
    cases matched with
    | none => exact .none
    | some held => exact .some (respects _ _ _ (left _ rfl) (right _ rfl) held)
  cases related <;> constructor <;>
    first
    | exact lists _ _ _ (by simp [slots]) (by simp [slots]) ‹_›
    | exact options _ _ _ (by simp +contextual [slots]) (by simp +contextual [slots]) ‹_›
    | exact respects _ _ _ (by simp [slots]) (by simp [slots]) ‹_›

/-- What stands in a slot for another one may be said in another way. -/
theorem imp {stands result : Category → slot → other → Prop} {kind : NodeKind slot}
    {image : NodeKind other} (related : Alike stands kind image)
    (implies : ∀ category first second, (category, second) ∈ image.slots →
      stands category first second → result category first second) :
    Alike result kind image := by
  have mapped : Alike result kind (image.map id) := related.map_right id
    fun category first second _ inside held => implies category first second inside held
  rw [map_id] at mapped
  exact mapped

end Alike

end NodeKind

namespace Category

variable {slot : Type}

/-- Whether a node of a kind may stand in a slot of the category. -/
def admits (kind : NodeKind slot) : Category → Bool
  | moduleDef => match kind with | .moduleDef _ => true | _ => false
  | useDef => match kind with | .useDef _ => true | _ => false
  | function => match kind with | .function .. => true | _ => false
  | parameter => match kind with | .parameter .. => true | _ => false
  | type => match kind with | .typeRef .. => true | _ => false
  | body => match kind with | .body _ => true | _ => false
  | statement => kind.isStatement
  | target => kind.isTarget
  | place => kind.isPlace
  | expression => kind.isExpression

end Category

theorem NodeKind.is_target_of_place {slot : Type} {kind : NodeKind slot}
    (place : kind.isPlace = true) : kind.isTarget = true := by
  cases kind <;> first | rfl | cases place

theorem AssignOperator.is_target_of_side {slot : Type} {operator : AssignOperator}
    {kind : NodeKind slot} (admits : operator.side.admits kind = true) : kind.isTarget = true := by
  cases operator with
  | assign => exact admits
  | _ => exact NodeKind.is_target_of_place admits

theorem AssignOperator.side_admits {slot : Type} (operator : AssignOperator)
    {kind : NodeKind slot} (place : kind.isPlace = true) : operator.side.admits kind = true := by
  cases operator with
  | assign => exact NodeKind.is_target_of_place place
  | _ => exact place

end ModuleLang
