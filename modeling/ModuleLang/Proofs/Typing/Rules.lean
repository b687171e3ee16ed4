import Mathlib.Data.List.Induction
import Mathlib.Data.Option.Basic
import ModuleLang.Host
import ModuleLang.Proofs.Tree.Forest
import ModuleLang.Typing.Operands

/-!
Typing rules of a checked tree. A rule speaks about the types that are known:
whatever could not be found out is held against nobody. The rule of a node needs
the types of its slots, its own type, and for a return the result types of the
functions around it.
-/

namespace ModuleLang

/-- What is asked of a type as soon as it is known. -/
def IfKnown (type : Option Ty) (holds : Ty → Prop) : Prop := ∀ found, type = some found → holds found

theorem if_known_none (holds : Ty → Prop) : IfKnown none holds := by
  intro found same
  cases same

theorem if_known_some {type : Ty} {holds : Ty → Prop} (met : holds type) :
    IfKnown (some type) holds := by
  intro found same
  cases same
  exact met

theorem casts_of_widens {source target : Ty} (widens : source.widensTo target = true) :
    source.castsTo target = true := by
  have numeric : source.isNumeric = true ∧ target.isNumeric = true := by
    cases source <;> cases target <;> first | exact ⟨rfl, rfl⟩ | cases widens
  simp [Ty.castsTo, numeric]

theorem assignability_self (type : Ty) : assignability type type = .exact :=
  if_pos (Or.inl rfl)

/-- Whatever has no zero and is no host value may be `null`. -/
theorem null_fits {type : Ty} (zero : Literal.zero? type = none)
    (foreign : ∀ name, type = .named name → False) (solid : type ≠ .void) :
    assignability .null type = .exact := by
  cases type with
  | any => exact if_pos (Or.inr rfl)
  | null => exact assignability_self .null
  | void => exact absurd rfl solid
  | named name => exact absurd rfl (foreign name)
  | string => decide
  | array element rank =>
      unfold assignability
      rw [if_neg (by simp), if_pos ⟨rfl, rfl⟩]
  | _ => cases zero

theorem widens_of_assignability {source target : Ty} (widens : assignability source target = .widen) :
    source.widensTo target = true := by
  unfold assignability at widens
  split at widens
  · cases widens
  · split at widens
    · cases widens
    · split at widens
      · cases widens
      · split at widens
        · assumption
        · cases widens

/-- Among numbers and `bool` only a type itself fits as it is. -/
theorem eq_of_exact_solid {source target : Ty} (fits : assignability source target = .exact)
    (first : source.isNumeric = true ∨ source = .bool)
    (second : target.isNumeric = true ∨ target = .bool) : source = target := by
  have solid : ∀ type : Ty, type.isNumeric = true ∨ type = .bool → type ≠ .any ∧ type ≠ .null ∧
      ∀ slot, isUntypedArrayFor type slot = false := by
    rintro type (numeric | rfl)
    · cases type <;> first | cases numeric; done | exact ⟨by simp, by simp, fun _ => rfl⟩
    · exact ⟨by simp, by simp, fun _ => rfl⟩
  obtain ⟨-, null, untyped⟩ := solid source first
  obtain ⟨any, -, -⟩ := solid target second
  unfold assignability at fits
  split at fits
  · rename_i same
    exact same.resolve_right any
  · rw [if_neg fun both => null both.1, untyped, if_neg Bool.false_ne_true] at fits
    split at fits <;> cases fits

namespace Ty

/-- What is written is never `void`. -/
theorem layered_ne_void {base : Ty} (ranks : List Nat) (solid : base ≠ .void) :
    base.layered ranks ≠ .void := by
  induction ranks generalizing base with
  | nil => exact solid
  | cons rank ranks ih =>
      refine ih ?_
      intro same
      cases same

theorem builtin_ne_void {name : String} {base : Ty} (found : builtin? name = some base) :
    base ≠ .void := by
  obtain ⟨before, after, same, -⟩ := List.lookup_eq_some_iff.mp found
  have member : (name, base) ∈ builtins := by simp [same]
  rintro rfl
  simp [builtins] at member

theorem builtin_plain {name : String} {base : Ty} (found : builtin? name = some base) :
    base.layers = (base, []) ∧ base.text = name := by
  rcases List.lookup_eq_some_iff.mp found with ⟨before, after, same, -⟩
  have member : (name, base) ∈ builtins := by simp [same]
  simp only [builtins, List.mem_cons, List.not_mem_nil, or_false, Prod.mk.injEq] at member
  rcases member with ⟨rfl, rfl⟩ | ⟨rfl, rfl⟩ | ⟨rfl, rfl⟩ | ⟨rfl, rfl⟩ | ⟨rfl, rfl⟩ | ⟨rfl, rfl⟩ |
    ⟨rfl, rfl⟩ | ⟨rfl, rfl⟩ | ⟨rfl, rfl⟩ | ⟨rfl, rfl⟩ | ⟨rfl, rfl⟩
  all_goals exact ⟨rfl, rfl⟩

/-- Array suffixes are told apart from what is no array. -/
theorem layers_layered {base : Ty} (plain : base.layers = (base, [])) (ranks : List Nat) :
    (base.layered ranks).layers = (base, ranks) := by
  induction ranks using List.reverseRecOn with
  | nil => exact plain
  | append_singleton ranks rank ih =>
      unfold layered at ih ⊢
      rw [List.foldl_append, List.foldl_cons, List.foldl_nil, layers, ih]

end Ty

namespace Host

/-- The type that a written name means, with the ranks of its suffixes. -/
def written? (host : Host) (name : String) (ranks : List Nat) : Option Ty :=
  (Ty.builtin? name <|> host.type? name).map fun base => base.layered ranks

/-- The printed form of a type is read as the type. -/
def ReadsBack (host : Host) (type : Ty) : Prop :=
  host.written? type.layers.1.text type.layers.2 = some type

/-- A type that a node may have: it has no written form, or this is read as the type. -/
def Reads (host : Host) (type : Option Ty) : Prop :=
  IfKnown type fun found => found = .null ∨ found = .void ∨ host.ReadsBack found

theorem type_plain {host : Host} {name : String} {base : Ty} (found : host.type? name = some base) :
    base = .named name := by
  unfold type? at found
  split at found
  · exact (Option.some.inj found).symm
  · cases found

/-- What was read from a text is printed as it was written. -/
theorem reads_back_of_written {host : Host} {name : String} {ranks : List Nat} {type : Ty}
    (written : host.written? name ranks = some type) : host.ReadsBack type := by
  rcases Option.map_eq_some_iff.mp written with ⟨base, found, rfl⟩
  have plain : base.layers = (base, []) ∧ base.text = name := by
    rcases (Option.orElse_eq_some _ _ _).mp found with builtin | ⟨-, hosted⟩
    · exact Ty.builtin_plain builtin
    · rw [type_plain hosted]
      exact ⟨rfl, rfl⟩
  unfold ReadsBack
  rw [Ty.layers_layered plain.1, plain.2]
  exact written

/-- The types that others widen to are built in. -/
theorem reads_back_of_widens (host : Host) {source target : Ty}
    (widens : source.widensTo target = true) : host.ReadsBack target := by
  unfold Ty.widensTo Ty.wider at widens
  cases target with
  | int | uint | long | ulong | byte | float | double => rfl
  | _ => cases source <;> simp at widens

theorem type_ne_void {host : Host} {name : String} {base : Ty} (found : host.type? name = some base) :
    base ≠ .void := by
  rw [type_plain found]
  nofun

end Host

namespace OperatorCategory

/-- Types of two operands and of the operator between them. -/
def Obeys (left right : Ty) (own : Option Ty) : OperatorCategory → Prop
  | arithmetic => left = right ∧ left.isNumeric = true ∧ own = some left
  | comparison => left = right ∧ left.isNumeric = true
  | equality => (left = right ∧ left ≠ .void) ∨ comparesNull left right = true
  | logical => left = .bool ∧ right = .bool
  | bitwise => left = right ∧ (left.isInteger = true ∨ left = .bool) ∧ own = some left

/-- Operands that fit as they are obey the rule of their operator. -/
theorem obeys_of_fit {category : OperatorCategory} {left right : Ty}
    (fit : category.operandFit left right = .fit) : category.Obeys left right (some left) := by
  cases category with
  | arithmetic =>
      simp only [operandFit] at fit
      split at fit <;> cases fit
  | comparison =>
      simp only [operandFit] at fit
      split at fit <;> cases fit
  | equality =>
      simp only [operandFit] at fit
      split at fit
      · cases fit
      · rename_i solid
        split at fit
        · cases fit
        · split at fit
          · rename_i same
            obtain same | null := same
            · exact Or.inl ⟨same, fun void => solid (Or.inl void)⟩
            · exact Or.inr null
          · cases fit
  | logical =>
      simp only [operandFit] at fit
      split at fit
      · assumption
      · cases fit
  | bitwise =>
      simp only [operandFit] at fit
      split at fit
      · rename_i both
        exact ⟨both.1.trans both.2.symm, Or.inr both.1, rfl⟩
      · split at fit <;> cases fit

/-- Operands that have come to the type of one of them obey the rule. -/
theorem obeys_of_unify {category : OperatorCategory} {left right common : Ty}
    (unify : category.operandFit left right = .unify) (one : common = left ∨ common = right) :
    category.Obeys common common (some common) := by
  have numeric : left.isNumeric = true → right.isNumeric = true → common.isNumeric = true := by
    intro first second
    obtain rfl | rfl := one
    · exact first
    · exact second
  cases category with
  | arithmetic =>
      simp only [operandFit] at unify
      split at unify
      · rename_i both
        rw [Bool.and_eq_true] at both
        exact ⟨rfl, numeric both.1 both.2, rfl⟩
      · cases unify
  | comparison =>
      simp only [operandFit] at unify
      split at unify
      · rename_i both
        rw [Bool.and_eq_true] at both
        exact ⟨rfl, numeric both.1 both.2⟩
      · cases unify
  | equality =>
      simp only [operandFit] at unify
      split at unify
      · cases unify
      · rename_i solid
        refine Or.inl ⟨rfl, ?_⟩
        rintro rfl
        obtain same | same := one
        · exact solid (Or.inl same.symm)
        · exact solid (Or.inr same.symm)
  | logical =>
      simp only [operandFit] at unify
      split at unify <;> cases unify
  | bitwise =>
      simp only [operandFit] at unify
      split at unify
      · cases unify
      · split at unify
        · rename_i both
          rw [Bool.and_eq_true] at both
          refine ⟨rfl, Or.inl ?_, rfl⟩
          obtain rfl | rfl := one
          · exact both.1
          · exact both.2
        · cases unify

/-- The type of an operator whose result does not depend on its operands. -/
theorem obeys_of_predicate {category : OperatorCategory} {left right : Ty} {own other : Option Ty}
    (predicate : category.isPredicate = true) (obeys : category.Obeys left right own) :
    category.Obeys left right other := by
  cases category with
  | arithmetic => cases predicate
  | bitwise => cases predicate
  | comparison => exact obeys
  | equality => exact obeys
  | logical => exact obeys

end OperatorCategory

namespace AssignOperator

/-- Types of a slot and of the value that is assigned to it. -/
def Obeys (target value : Ty) : AssignOperator → Prop
  | assign => assignability value target = .exact
  | plus | minus | multiply | divide | modulo => value = target ∧ target.isNumeric = true
  | bitwiseAnd | bitwiseOr | xor => value = target ∧ (target.isInteger = true ∨ target = .bool)

/-- What a compound assignment takes are numbers, or `bool` where it is bitwise. -/
theorem takes_solid {operator : AssignOperator} {target value : Ty} (compound : operator ≠ .assign)
    (taken : operator.takes target value = true) :
    (value.isNumeric = true ∨ value = .bool) ∧ (target.isNumeric = true ∨ target = .bool) ∧
      operator.Obeys target target := by
  have arithmetic : OperatorCategory.arithmetic.operandFit target value ≠ .reject →
      (value.isNumeric = true ∨ value = .bool) ∧ (target.isNumeric = true ∨ target = .bool) ∧
      (target = target ∧ target.isNumeric = true) := by
    intro fits
    simp only [OperatorCategory.operandFit] at fits
    split at fits
    · rename_i both
      rw [Bool.and_eq_true] at both
      exact ⟨Or.inl both.2, Or.inl both.1, rfl, both.1⟩
    · exact absurd rfl fits
  have bitwise : OperatorCategory.bitwise.operandFit target value ≠ .reject →
      (value.isNumeric = true ∨ value = .bool) ∧ (target.isNumeric = true ∨ target = .bool) ∧
      (target = target ∧ (target.isInteger = true ∨ target = .bool)) := by
    have numeric : ∀ type : Ty, type.isInteger = true → type.isNumeric = true := by
      intro type integer
      rw [Ty.isNumeric, integer, Bool.true_or]
    intro fits
    simp only [OperatorCategory.operandFit] at fits
    split at fits
    · rename_i both
      exact ⟨Or.inr both.2, Or.inr both.1, rfl, Or.inr both.1⟩
    · split at fits
      · rename_i both
        rw [Bool.and_eq_true] at both
        exact ⟨Or.inl (numeric value both.2), Or.inl (numeric target both.1), rfl,
          Or.inl both.1⟩
      · exact absurd rfl fits
  have fits : ∀ binary, operator.binary? = some binary →
      binary.category.operandFit target value ≠ .reject := by
    intro binary same
    rw [takes, same] at taken
    simpa using taken
  cases operator with
  | assign => exact absurd rfl compound
  | plus | minus | multiply | divide | modulo => exact arithmetic (fits _ rfl)
  | bitwiseAnd | bitwiseOr | xor => exact bitwise (fits _ rfl)

/-- A value that fits as it is. -/
theorem obeys_of_exact {operator : AssignOperator} {target value : Ty}
    (taken : operator.takes target value = true) (fits : assignability value target = .exact) :
    operator.Obeys target value := by
  by_cases plain : operator = .assign
  · subst plain
    exact fits
  · obtain ⟨first, second, obeys⟩ := takes_solid plain taken
    have same := eq_of_exact_solid fits first second
    subst same
    exact obeys

/-- What obeys the rule is taken as it is. -/
theorem exact_of_obeys {operator : AssignOperator} {target value : Ty}
    (obeys : operator.Obeys target value) :
    operator.takes target value = true ∧ assignability value target = .exact := by
  have arithmetic : target.isNumeric = true →
      OperatorCategory.arithmetic.operandFit target target ≠ .reject := by
    intro numeric
    simp [OperatorCategory.operandFit, numeric]
  have bitwise : target.isInteger = true ∨ target = .bool →
      OperatorCategory.bitwise.operandFit target target ≠ .reject := by
    rintro (integer | rfl)
    · by_cases same : target = .bool <;> simp [OperatorCategory.operandFit, integer, same]
    · simp [OperatorCategory.operandFit]
  cases operator with
  | assign => exact ⟨rfl, obeys⟩
  | plus | minus | multiply | divide | modulo =>
      rcases obeys with ⟨rfl, numeric⟩
      exact ⟨bne_iff_ne.mpr (arithmetic numeric), assignability_self _⟩
  | bitwiseAnd | bitwiseOr | xor =>
      rcases obeys with ⟨rfl, solid⟩
      exact ⟨bne_iff_ne.mpr (bitwise solid), assignability_self _⟩

/-- A value that was widened to the type of its target. -/
theorem obeys_of_widened {operator : AssignOperator} {target value : Ty}
    (taken : operator.takes target value = true) : operator.Obeys target target := by
  by_cases plain : operator = .assign
  · subst plain
    exact assignability_self target
  · exact (takes_solid plain taken).2.2

end AssignOperator

namespace NodeKind

variable {slot : Type}

/-- The typing rule of a node. `results` are the result types of the functions
that it belongs to. -/
def Obeys (type : slot → Option Ty) (own : Option Ty) (results : Option Ty → Prop) :
    NodeKind slot → Prop
  | binary operator left right =>
      (operator.category.isPredicate = true → own = some .bool) ∧
      (operator.category = .logical →
        IfKnown (type left) (· = .bool) ∧ IfKnown (type right) (· = .bool)) ∧
      IfKnown (type left) fun left => IfKnown (type right) fun right =>
        operator.category.Obeys left right own
  | unary operator operand => IfKnown (type operand) fun operand =>
      if operator = .not then operand = .bool ∧ own = some .bool
      else operand.isNumeric = true ∧ own = some operand
  | assign operator target value => IfKnown (type target) fun target =>
      IfKnown (type value) fun value => operator.Obeys target value
  | returnFrom none => ∀ result, results result → IfKnown result (· = .void)
  | returnFrom (some value) => ∀ result, results result → IfKnown result fun expected =>
      expected ≠ .void ∧ IfKnown (type value) fun value => assignability value expected = .exact
  | condition predicate _ _ | loop predicate _ => IfKnown (type predicate) (· = .bool)
  | indexAccess _ index => IfKnown (type index) (· = .int)
  | newArray _ length => IfKnown (type length) (· = .int)
  | cast target inner source => source = type inner ∧ IfKnown (type target) fun target =>
      own = some target ∧ IfKnown (type inner) fun inner => inner.castsTo target = true
  | _ => True

/-- A rule looks at no types but those of the slots. -/
theorem obeys_of_same_types {type other : slot → Option Ty} {own : Option Ty}
    {results : Option Ty → Prop} {kind : NodeKind slot}
    (same : ∀ child ∈ kind.children, other child = type child)
    (obeys : kind.Obeys type own results) : kind.Obeys other own results := by
  cases kind with
  | returnFrom value =>
      cases value with
      | none => exact obeys
      | some value =>
          have equal := same value (by simp [children])
          simp only [Obeys, equal]
          exact obeys
  | _ =>
      simp only [children, List.mem_cons, List.mem_append, List.not_mem_nil, or_false,
        forall_eq_or_imp, forall_eq] at same
      simp only [Obeys, same] at *
      try exact obeys

/-- Fewer result types ask for less. -/
theorem obeys_of_fewer_results {type : slot → Option Ty} {own : Option Ty}
    {results fewer : Option Ty → Prop} {kind : NodeKind slot}
    (subset : ∀ result, fewer result → results result)
    (obeys : kind.Obeys type own results) : kind.Obeys type own fewer := by
  cases kind with
  | returnFrom value =>
      cases value with
      | none => exact fun result member => obeys result (subset result member)
      | some value => exact fun result member => obeys result (subset result member)
  | _ => exact obeys

/-- A rule is met with several result types if it is with each of them. -/
theorem obeys_of_each {type : slot → Option Ty} {own : Option Ty} {results : Option Ty → Prop}
    {kind : NodeKind slot} (alone : kind.Obeys type own fun _ => False)
    (each : ∀ result, results result → kind.Obeys type own (· = result)) :
    kind.Obeys type own results := by
  cases kind with
  | returnFrom value =>
      cases value with
      | none => exact fun result member => each result member result rfl
      | some value => exact fun result member => each result member result rfl
  | _ => exact alone

end NodeKind

namespace Arena

/-- A node obeys its typing rule, with the types that the arena has for nodes. -/
def Obeys (arena : Arena) (results : Option Ty → Prop) (id : NodeId) : Prop :=
  ∃ kind, arena.kind? id = some kind ∧ kind.Obeys arena.type? (arena.type? id) results

/-- The type that a node says by its name. -/
def written? (arena : Arena) (host : Host) (id : NodeId) : Option Ty :=
  match arena.kind? id with
  | some (.typeRef name ranks) => host.written? name ranks
  | _ => none

/-- Result type of a function as it is declared, `void` for none. -/
def declared? (arena : Arena) (host : Host) : (result : Option NodeId) → Option Ty
  | none => some .void
  | some written => arena.written? host written

/-- The result types of the functions of a module whose bodies a node belongs to. -/
def results (arena : Arena) (host : Host) (root id : NodeId) (found : Option Ty) : Prop :=
  ∃ function ∈ arena.children root, ∃ result name parameters block,
    arena.kind? function = some (.function result name parameters block) ∧
    arena.Reachable block id ∧ found = arena.declared? host result

end Arena

end ModuleLang
