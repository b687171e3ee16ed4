import ModuleLang.Proofs.Typing.Readable
import ModuleLang.Proofs.Typing.Visibility

/-!
What statements record of names. A statement adds names to the open frame and takes none
away from it. Of a name that was visible it reports at most that it is no member of some
value, and what it records as the type of a name is unknown or can be written, but for
one case: a name that is assigned after a body inside has declared it is recorded with the
type of the value, although that may be the type of `null`.
-/

namespace ModuleLang

/-- Whether a report is about a name or a member that is not there. -/
def DiagnosticKind.isMissing : DiagnosticKind → Bool
  | cannotFindMember _ => true
  | _ => false

namespace Host

/-- A type that variables can have: it is unknown, or it can be written. -/
def Storable (host : Host) (type : Option Ty) : Prop := IfKnown type host.ReadsBack

variable {host : Host} {type : Option Ty}

/-- Neither nothing nor `null` has a type that can be written. -/
theorem solid_of_reads_back {found : Ty} (back : host.ReadsBack found) :
    found ≠ .void ∧ found ≠ .null := by
  have base : ∀ {name : String} {base : Ty}, (Ty.builtin? name <|> host.type? name) = some base →
      base ≠ .void ∧ base ≠ .null := by
    intro name base known
    rcases (Option.orElse_eq_some _ _ _).mp known with builtin | ⟨-, hosted⟩
    · rcases List.lookup_eq_some_iff.mp builtin with ⟨before, after, same, -⟩
      have member : (name, base) ∈ Ty.builtins := by simp [same]
      constructor <;> rintro rfl <;> simp [Ty.builtins] at member
    · rw [type_plain hosted]
      exact ⟨by simp, by simp⟩
  rcases Option.map_eq_some_iff.mp back with ⟨inner, known, same⟩
  constructor
  · rintro rfl
    exact (base known).1 same
  · rintro rfl
    exact (base known).2 same

theorem reads_of_storable (storable : host.Storable type) : host.Reads type :=
  fun found same => Or.inr (Or.inr (storable found same))

theorem storable_of_reads (reads : host.Reads type) (solid : type ≠ some .void)
    (present : type ≠ some .null) : host.Storable type := by
  intro found same
  rcases reads found same with rfl | rfl | back
  · exact absurd same present
  · exact absurd same solid
  · exact back

end Host

theorem Scopes.lookup_of_suffix {before after : Scopes} {name : String}
    (suffix : before.top.visible <:+ after.top.visible)
    (seen : (before.lookup name).isSome = true) : (after.lookup name).isSome = true := by
  rcases suffix with ⟨more, same⟩
  unfold lookup at seen ⊢
  rw [← same, List.lookup_append, Option.isSome_or, seen, Bool.or_true]

namespace Inference

variable {limit : Position} {origin : SourceTree} {environment : Environment}

/-- A report that a name is missing is about a member with that name. -/
def OfMember (origin : SourceTree) (name : String) (found : Diagnostic) : Prop :=
  found.kind = .cannotFindMember name → ∃ access owner,
    origin.arena.kind? access = some (.memberAccess owner name) ∧
    origin.spans.span? access = some found.span

/-- What is recorded of a name. -/
def Recordable (host : Host) (origin : SourceTree) (duplicates : List NodeId)
    (entry : String × Binding) : Prop :=
  host.Storable entry.2.type ∨
    (entry.2.type = some .null ∧ entry.2.node ∈ duplicates ∧
      origin.arena.kind? entry.2.node = some (.member entry.1))

theorem Recordable.later {host : Host} {duplicates more : List NodeId} {entry : String × Binding}
    (recordable : Recordable host origin duplicates entry) (subset : duplicates ⊆ more) :
    Recordable host origin more entry := by
  rcases recordable with storable | ⟨null, noted, named⟩
  · exact Or.inl storable
  · exact Or.inr ⟨null, subset noted, named⟩

/-- What is recorded of all visible names. -/
def Recorded (host : Host) (origin : SourceTree) (state : InferenceState) : Prop :=
  ∀ entry ∈ state.scopes.top.visible, Recordable host origin state.duplicates entry

theorem Recorded.binding {host : Host} {state : InferenceState}
    (recorded : Recorded host origin state) {name : String} {binding : Binding}
    (seen : state.scopes.lookup name = some binding) :
    Recordable host origin state.duplicates (name, binding) := by
  rcases List.lookup_eq_some_iff.mp seen with ⟨front, back, same, -⟩
  apply recorded
  rw [same]
  exact List.mem_append_right front List.mem_cons_self

theorem Recorded.reads {host : Host} {state : InferenceState}
    (recorded : Recorded host origin state) (name : String) (binding : Binding)
    (seen : state.scopes.lookup name = some binding) : host.Reads binding.type := by
  rcases recorded.binding seen with storable | ⟨null, -, -⟩
  · exact Host.reads_of_storable storable
  · exact null ▸ if_known_some (Or.inl rfl)

/-- What statements do to the names that are visible. What they record is known where
something is `assumed` of what was recorded and looked up before. -/
structure Impact (assumed : Prop) (host : Host) (origin : SourceTree)
    (before after : InferenceState) : Prop where
  outer : after.scopes.outer = before.scopes.outer
  visible : before.scopes.top.visible <:+ after.scopes.top.visible
  duplicates : before.duplicates ⊆ after.duplicates
  reported : ∃ said, after.diagnostics = before.diagnostics ++ said ∧
    ∀ name, (before.scopes.lookup name).isSome = true → ∀ found ∈ said, OfMember origin name found
  recorded : assumed → Recorded host origin before → Recorded host origin after

section Impacts

variable {assumed : Prop} {host : Host} {first second third : InferenceState}

/-- What was recorded at first is known later. -/
theorem Impact.before (one : Impact assumed host origin first second)
    (other : Impact (assumed ∧ Recorded host origin first) host origin second third) :
    Impact assumed host origin first third where
  outer := other.outer.trans one.outer
  visible := one.visible.trans other.visible
  duplicates := List.Subset.trans one.duplicates other.duplicates
  reported := by
    rcases one.reported with ⟨early, saidEarly, fromEarly⟩
    rcases other.reported with ⟨late, saidLate, fromLate⟩
    refine ⟨early ++ late, ?_, fun name seen found member => ?_⟩
    · rw [saidLate, saidEarly, List.append_assoc]
    · rcases List.mem_append.mp member with member | member
      · exact fromEarly name seen found member
      · exact fromLate name (Scopes.lookup_of_suffix one.visible seen) found member
  recorded met recorded := other.recorded ⟨met, recorded⟩ (one.recorded met recorded)

theorem Impact.weaken {weaker : Prop} (impact : Impact weaker host origin first second)
    (implies : assumed → weaker) : Impact assumed host origin first second :=
  { impact with recorded := fun met => impact.recorded (implies met) }

theorem impact_chain : Chained (Impact assumed host origin) where
  refl _ :=
    { outer := rfl
      visible := List.suffix_refl _
      duplicates := List.Subset.refl _
      reported := ⟨[], (List.append_nil _).symm, fun _ _ => List.forall_mem_nil _⟩
      recorded := fun _ recorded => recorded }
  trans one other := one.before (other.weaken And.left)

end Impacts

/-- The names stay as they are, and nothing is reported to be missing. -/
structure Harmless (before after : InferenceState) : Prop where
  scopes : after.scopes = before.scopes
  duplicates : before.duplicates ⊆ after.duplicates
  reported : ∃ said, after.diagnostics = before.diagnostics ++ said ∧
    ∀ found ∈ said, found.kind.isMissing = false

section Harmless

variable {start middle final : InferenceState}

theorem harmless_of_same (scopes : final.scopes = start.scopes)
    (duplicates : start.duplicates ⊆ final.duplicates)
    (diagnostics : final.diagnostics = start.diagnostics) : Harmless start final :=
  ⟨scopes, duplicates, [], by rw [diagnostics, List.append_nil], List.forall_mem_nil _⟩

theorem harmless_chain : Chained Harmless where
  refl _ := harmless_of_same rfl (List.Subset.refl _) rfl
  trans one other := by
    rcases one.reported with ⟨early, saidEarly, fromEarly⟩
    rcases other.reported with ⟨late, saidLate, fromLate⟩
    refine ⟨other.scopes.trans one.scopes, List.Subset.trans one.duplicates other.duplicates,
      early ++ late, ?_, List.forall_mem_append.mpr ⟨fromEarly, fromLate⟩⟩
    rw [saidLate, saidEarly, List.append_assoc]

theorem Harmless.recorded {host : Host} (harmless : Harmless start final)
    (recorded : Recorded host origin start) : Recorded host origin final := by
  intro entry member
  rw [harmless.scopes] at member
  exact (recorded entry member).later harmless.duplicates

theorem Harmless.impact {assumed : Prop} {host : Host} (harmless : Harmless start final) :
    Impact assumed host origin start final where
  outer := by rw [harmless.scopes]
  visible := harmless.scopes.symm ▸ List.suffix_refl _
  duplicates := harmless.duplicates
  reported := by
    rcases harmless.reported with ⟨said, same, other⟩
    refine ⟨said, same, fun name _ found member missing => ?_⟩
    have plain := other found member
    rw [missing] at plain
    cases plain
  recorded _ recorded := harmless.recorded recorded

theorem keeps_harmless_report (node : NodeId) {kind : DiagnosticKind}
    (other : kind.isMissing = false) : Keeps Harmless (report environment node kind) := by
  intro start _ final ran
  rcases report_adds ran with ⟨found, same, rfl⟩
  refine ⟨rfl, List.Subset.refl _, [found], rfl, ?_⟩
  rw [List.forall_mem_singleton, same]
  exact other

theorem keeps_harmless_on_tree {value : Type} (action : SourceTree.Action value) :
    Keeps Harmless (onTree action) := by
  intro start result final ran
  rcases ran_on_tree ran with ⟨tree, -, rfl⟩
  exact harmless_of_same rfl (List.Subset.refl _) rfl

theorem keeps_harmless_add (kind : NodeKind NodeId) (source : NodeId) :
    Keeps Harmless (add kind source) := by
  apply harmless_chain.keeps_bind (keeps_harmless_on_tree _)
  intro node
  exact harmless_chain.keeps_bind (keeps_harmless_on_tree _) fun _ => harmless_chain.keeps_pure _

theorem keeps_harmless_add_type_ref (type : Ty) (source : NodeId) :
    Keeps Harmless (addTypeRef type source) := by
  apply harmless_chain.keeps_bind (keeps_harmless_on_tree _)
  intro node
  apply harmless_chain.keeps_bind (keeps_harmless_on_tree _)
  intro _
  exact harmless_chain.keeps_bind (keeps_harmless_on_tree _) fun _ => harmless_chain.keeps_pure _

theorem keeps_harmless_insert_cast (parent child : NodeId) (target : Ty) :
    Keeps Harmless (insertCast parent child target) := by
  apply harmless_chain.keeps_bind
  · exact harmless_chain.keeps_bind harmless_chain.keeps_get fun _ => harmless_chain.keeps_pure _
  intro source
  apply harmless_chain.keeps_bind (keeps_harmless_add_type_ref _ _)
  intro written
  apply harmless_chain.keeps_bind (keeps_harmless_add _ _)
  intro node
  exact harmless_chain.keeps_bind (keeps_harmless_on_tree _) fun _ => keeps_harmless_on_tree _

theorem keeps_harmless_resolve_type (node : NodeId) :
    Keeps Harmless (resolveType environment node) := by
  apply harmless_chain.keeps_bind
  · exact harmless_chain.keeps_bind harmless_chain.keeps_get fun _ => harmless_chain.keeps_pure _
  intro kind
  split
  · split
    · exact harmless_chain.keeps_bind (keeps_harmless_report _ rfl) fun _ =>
        harmless_chain.keeps_pure _
    · exact harmless_chain.keeps_bind (keeps_harmless_on_tree _) fun _ =>
        harmless_chain.keeps_pure _
  · exact Chained.keeps_throw _

theorem keeps_harmless_add_default (type : Ty) (source : NodeId) :
    Keeps Harmless (addDefault type source) := by
  unfold addDefault
  split
  · exact keeps_harmless_add _ _
  · apply harmless_chain.keeps_bind (keeps_harmless_add_type_ref _ _)
    intro written
    apply harmless_chain.keeps_bind (keeps_harmless_on_tree _)
    intro node
    apply harmless_chain.keeps_bind (keeps_harmless_on_tree _)
    intro _
    exact harmless_chain.keeps_bind (keeps_harmless_on_tree _) fun _ => harmless_chain.keeps_pure _
  · exact keeps_harmless_add _ _

theorem keeps_harmless_return_value (node value : NodeId) (found expected : Ty) :
    Keeps Harmless (returnValue environment node value found expected) := by
  unfold returnValue
  split
  · exact harmless_chain.keeps_pure _
  · exact keeps_harmless_insert_cast _ _ _
  · exact keeps_harmless_report _ rfl

theorem is_missing_mismatch (operator : AssignOperator) (source target : Ty) :
    (mismatch operator source target).isMissing = false := by
  unfold mismatch
  split <;> rfl

theorem keeps_harmless_store (statement : NodeId) (operator : AssignOperator) (value : NodeId)
    (targetType valueType : Option Ty) :
    Keeps Harmless (store environment statement operator value targetType valueType) := by
  unfold store
  split
  · split
    · split
      · exact keeps_harmless_report _ rfl
      · split
        · exact harmless_chain.keeps_pure _
        · exact keeps_harmless_insert_cast _ _ _
        · exact keeps_harmless_report _ (is_missing_mismatch _ _ _)
    · exact harmless_chain.keeps_pure _
  · exact harmless_chain.keeps_pure _

theorem keeps_harmless_jump (node : NodeId) (keyword : Keyword) :
    Keeps Harmless (jump environment node keyword) := by
  apply harmless_chain.keeps_bind harmless_chain.keeps_get
  intro state
  split
  · exact keeps_harmless_report _ rfl
  · exact harmless_chain.keeps_pure _

/-- Both definitions are noted as duplicates. -/
theorem ran_report_duplicate {earlier later : NodeId} {name : String} {result : Unit}
    (ran : Ran (reportDuplicate environment earlier later name) start result final) :
    Harmless start final ∧ later ∈ final.duplicates := by
  have one : ∀ {node start result final}, Ran (do
      if !(← get).duplicates.contains node then
        modify fun state => { state with duplicates := node :: state.duplicates }
        report environment node (.duplicateVariable name)) start result final →
      Harmless start final ∧ node ∈ final.duplicates := by
    intro node start result final ran
    rcases ran_bind.mp ran with ⟨_, _, got, ran⟩
    cases got
    split at ran
    · rcases ran_bind.mp ran with ⟨_, _, noted, reported⟩
      cases noted
      rcases report_adds reported with ⟨found, same, rfl⟩
      refine ⟨⟨rfl, List.subset_cons_self _ _, [found], rfl, ?_⟩, List.mem_cons_self⟩
      rw [List.forall_mem_singleton, same]
      rfl
    · rename_i known
      cases ran
      rw [Bool.not_eq_true, Bool.not_eq_false'] at known
      exact ⟨harmless_chain.refl _, List.contains_iff_mem.mp known⟩
  rcases ran_bind.mp (show Ran (_ >>= fun _ => _) start result final from ran) with
    ⟨_, _, first, ran⟩
  rcases ran_bind.mp (show Ran (_ >>= fun _ => _) _ result final from ran) with
    ⟨_, _, second, ran⟩
  cases ran
  rcases one second with ⟨harmless, noted⟩
  exact ⟨harmless_chain.trans (one first).1 harmless, noted⟩

end Harmless

section Declarations

variable {assumed : Prop} {host : Host} {start final : InferenceState} {name : String}
  {type : Option Ty} {statement target value : NodeId} {result : Unit}

/-- A name is declared in the open frame. -/
theorem impact_of_declare {binding : Binding}
    (recordable : assumed → Recordable host origin start.duplicates (name, binding)) :
    Impact assumed host origin start
      { start with scopes := start.scopes.declare name binding } where
  outer := rfl
  visible := List.suffix_cons _ _
  duplicates := List.Subset.refl _
  reported := ⟨[], (List.append_nil _).symm, fun _ _ => List.forall_mem_nil _⟩
  recorded met recorded := List.forall_mem_cons.mpr ⟨recordable met, recorded⟩

/-- A name that is visible, or was declared in a body inside, keeps what is recorded of it. -/
theorem impact_of_define {definition : NodeId} (storable : assumed → host.Storable type)
    (ran : Ran (define environment definition name type) start result final) :
    Impact assumed host origin start final := by
  rcases ran_bind.mp ran with ⟨_, _, got, ran⟩
  cases got
  split at ran
  · exact (ran_report_duplicate ran).1.impact
  · cases ran
    exact impact_of_declare fun met => Or.inl (storable met)

theorem harmless_of_spell {written : Option NodeId} {middle : InferenceState}
    (ran : Ran (type.mapM fun type => addTypeRef type target) start written middle) :
    Harmless start middle := by
  cases type with
  | none =>
      cases ran
      exact harmless_chain.refl _
  | some type =>
      rw [Option.mapM_some] at ran
      exact harmless_chain.keeps_map _ (keeps_harmless_add_type_ref type target) _ _ _ ran

/-- The type of `null` is not recorded. -/
theorem impact_of_implicit_definition
    (assigned : assumed → host.Reads type ∧ type ≠ some .void)
    (ran : Ran (implicitDefinition statement target name type) start result final) :
    Impact assumed host origin start final := by
  rcases ran_bind.mp ran with ⟨written, wrote, spelling, ran⟩
  rcases ran_bind.mp ran with ⟨definition, made, adding, ran⟩
  rcases ran_bind.mp ran with ⟨_, typed, storing, ran⟩
  rcases ran_bind.mp ran with ⟨_, moved, moving, ran⟩
  rcases ran_bind.mp ran with ⟨_, pointed, replacing, ran⟩
  cases ran
  have harmless : Harmless start pointed :=
    harmless_chain.trans (harmless_of_spell spelling)
      (harmless_chain.trans (keeps_harmless_on_tree _ _ _ _ adding)
        (harmless_chain.trans (keeps_harmless_on_tree _ _ _ _ storing)
          (harmless_chain.trans (keeps_harmless_on_tree _ _ _ _ moving)
            (keeps_harmless_on_tree _ _ _ _ replacing))))
  refine impact_chain.trans harmless.impact (impact_of_declare fun met => Or.inl ?_)
  rcases assigned met with ⟨reads, solid⟩
  intro found same
  rcases Option.filter_eq_some_iff.mp same with ⟨rfl, present⟩
  apply Host.storable_of_reads reads solid _ found rfl
  rintro ⟨⟩
  simp at present

/-- An assignment to a name. Where the name was declared in a body inside, it is recorded
with the type of the value, be it that of `null`. -/
theorem impact_of_name_assignment {operator : AssignOperator}
    (was : origin.arena.kind? target = some (.member name))
    (assigned : assumed → host.Reads type ∧ type ≠ some .void)
    (ran : Ran (nameAssignment environment statement operator target name value type) start result
      final) : Impact assumed host origin start final := by
  rcases ran_bind.mp ran with ⟨_, _, got, ran⟩
  cases got
  split at ran
  · rcases ran_bind.mp ran with ⟨_, _, typed, stored⟩
    exact (harmless_chain.trans (keeps_harmless_on_tree _ _ _ _ typed)
      (keeps_harmless_store _ _ _ _ _ _ _ _ stored)).impact
  · rename_i unseen
    split at ran
    · rcases ran_report ran with ⟨span, -, rfl⟩
      refine ⟨rfl, List.suffix_refl _, List.Subset.refl _, ⟨_, rfl, ?_⟩, fun _ recorded => recorded⟩
      intro other seen found member missing
      rw [List.mem_singleton.mp member] at missing
      cases missing
      rw [unseen] at seen
      cases seen
    · split at ran
      · rcases ran_bind.mp ran with ⟨_, told, reported, ran⟩
        rcases ran_bind.mp ran with ⟨_, typed, storing, ran⟩
        cases ran
        rcases ran_report_duplicate reported with ⟨harmless, noted⟩
        have stored := keeps_harmless_on_tree _ _ _ _ storing
        refine impact_chain.trans (harmless_chain.trans harmless stored).impact
          (impact_of_declare fun met => ?_)
        rcases assigned met with ⟨reads, solid⟩
        by_cases null : type = some .null
        · exact Or.inr ⟨null, stored.duplicates noted, was⟩
        · exact Or.inl (Host.storable_of_reads reads solid null)
      · exact impact_of_implicit_definition assigned ran

end Declarations

section Statements

variable {node : NodeId} {kind : NodeKind NodeId} {before after : InferenceState}

/-- A report that a name is missing comes from a name that is not visible or from a member. -/
theorem missing_of_finding {names : Scopes} {type : NodeId → Option Ty} {reported : Bool}
    {report : NodeId × DiagnosticKind} {name : String}
    (member : report ∈ (kind.finding environment names type reported node).reports)
    (missing : report.2 = .cannotFindMember name) :
    report.1 = node ∧ ((kind = .member name ∧ names.lookup name = none) ∨
      ∃ owner, kind = .memberAccess owner name) := by
  cases kind with
  | member other =>
      simp only [NodeKind.finding] at member
      split at member
      · cases member
      · rename_i unseen
        cases List.mem_singleton.mp member
        cases missing
        exact ⟨rfl, Or.inl ⟨rfl, unseen⟩⟩
  | memberAccess owner other =>
      simp only [NodeKind.finding, memberFinding] at member
      split at member
      · cases member
      · split at member
        · cases member
        · cases List.mem_singleton.mp member
          cases missing
          exact ⟨rfl, Or.inr ⟨owner, rfl⟩⟩
  | indexAccess target index =>
      simp only [NodeKind.finding, List.mem_append, indexReports, elementFinding] at member
      grind
  | binary operator left right =>
      simp only [NodeKind.finding, commonFinding, fittingFinding] at member
      grind
  | unary operator operand =>
      simp only [NodeKind.finding, unaryFinding] at member
      grind
  | call other arguments =>
      simp only [NodeKind.finding, callFinding] at member
      grind
  | newArray element length =>
      simp only [NodeKind.finding, indexReports] at member
      grind
  | cast target inner source =>
      simp only [NodeKind.finding, castReports] at member
      grind
  | typeRef other ranks =>
      simp only [NodeKind.finding, writtenFinding] at member
      grind
  | _ => cases member

/-- Of a visible name it is only said that it is no member of some value. -/
theorem Assessed.of_member {names : Scopes} {type : NodeId → Option Ty} {nodes : List NodeId}
    {said : List Diagnostic} (assessed : Assessed environment names origin type nodes said)
    {name : String} (seen : (names.lookup name).isSome = true) :
    ∀ found ∈ said, OfMember origin name found := by
  induction assessed with
  | nil => exact List.forall_mem_nil _
  | @cons id kind rest inner own added later found below finds told after ihBelow ihAfter =>
      refine List.forall_mem_append.mpr ⟨List.forall_mem_append.mpr ⟨ihBelow, ?_⟩, ihAfter⟩
      intro one member missing
      rcases partner_of_member told member with ⟨report, inside, span, place, rfl⟩
      have own : report ∈
          (kind.finding environment names type (!inner.isEmpty) id).reports := by
        rw [finds]
        exact inside
      rcases missing_of_finding own missing with ⟨same, ⟨rfl, unseen⟩ | ⟨owner, rfl⟩⟩
      · rw [unseen] at seen
        cases seen
      · exact ⟨id, owner, found, same ▸ place⟩

theorem impact_of_expression (constructed : origin.Constructed limit) {type : Option Ty}
    (admitted : origin.arena.Admitted .expression node) (ready : Ready limit origin node before)
    (ran : Ran (expression environment node) before type after) :
    Impact environment.Readable environment.host origin before after ∧
      (environment.Readable → Recorded environment.host origin before →
        environment.host.Reads type) := by
  have same := undeclared_frame.keeps_expression environment _ _ _ _ ran
  rcases (told_of_expression constructed admitted ready ran).1 with ⟨said, assessed, added⟩
  refine ⟨⟨?_, ?_, ?_, ⟨said, added, fun name seen => assessed.of_member seen⟩, ?_⟩, ?_⟩
  · rw [same.scopes]
  · exact same.scopes.symm ▸ List.suffix_refl _
  · rw [same.duplicates]
    exact List.Subset.refl _
  · intro _ recorded
    unfold Recorded
    rw [same.scopes, same.duplicates]
    exact recorded
  · intro readable recorded
    exact reads_of_expression constructed readable admitted ready recorded.reads ran

theorem impact_of_predicate (constructed : origin.Constructed limit)
    (admitted : origin.arena.Admitted .expression node) (ready : Ready limit origin node before)
    {result : Unit} (ran : Ran (predicate environment node) before result after) :
    Impact environment.Readable environment.host origin before after := by
  rcases ran_bind.mp ran with ⟨type, middle, asked, ran⟩
  apply impact_chain.trans (impact_of_expression constructed admitted ready asked).1
  split at ran
  · cases ran
    exact impact_chain.refl _
  · split at ran
    · exact (keeps_harmless_report _ rfl _ _ _ ran).impact
    · cases ran
      exact impact_chain.refl _

theorem impact_of_return (constructed : origin.Constructed limit) {value : Option NodeId}
    (known : origin.arena.kind? node = some (.returnFrom value))
    (ready : Ready limit origin node before) {result : Unit}
    (ran : Ran (returnFrom environment node value) before result after) :
    Impact environment.Readable environment.host origin before after := by
  rcases ran_bind.mp ran with ⟨found, middle, inferred, ran⟩
  rcases ran_bind.mp ran with ⟨_, _, got, ran⟩
  cases got
  have first : Impact environment.Readable environment.host origin before middle := by
    cases value with
    | none =>
        cases inferred
        exact impact_chain.refl _
    | some value =>
        rw [Option.mapM_some, map_eq_pure_bind] at inferred
        rcases ran_bind.mp inferred with ⟨type, _, inferred, done⟩
        cases done
        have member : value ∈ (NodeKind.returnFrom (some value)).children := by
          simp [NodeKind.children]
        have admitted := constructed.admitted known (.expression, value) (by simp [NodeKind.slots])
        exact (impact_of_expression constructed admitted (ready.below known member) inferred).1
  refine impact_chain.trans first (Harmless.impact ?_)
  split at ran
  · cases ran
    exact harmless_chain.refl _
  · cases ran
    exact harmless_chain.refl _
  · exact keeps_harmless_report _ rfl _ _ _ ran
  · exact keeps_harmless_report _ rfl _ _ _ ran
  · split at ran
    · cases ran
      exact harmless_chain.refl _
    · exact keeps_harmless_return_value _ _ _ _ _ _ _ ran

/-- A written type is unknown, or it can be written. -/
theorem storable_of_resolve {written : NodeId} {type : Option Ty}
    (ran : Ran (resolveType environment written) before type after) :
    environment.host.Storable type := by
  rcases ran_bind.mp ran with ⟨_, _, got, ran⟩
  cases got
  split at ran
  · rename_i name ranks _
    split at ran
    · rcases ran_bind.mp ran with ⟨_, _, -, ran⟩
      cases ran
      exact if_known_none _
    · rename_i base found
      rcases ran_bind.mp ran with ⟨_, _, -, ran⟩
      cases ran
      exact if_known_some (Host.reads_back_of_written (Option.map_eq_some_iff.mpr ⟨base, found, rfl⟩))
  · cases ran

theorem impact_of_bare_definition {type : Option NodeId} {name : String} {now : NodeId}
    (ran : Ran (bareDefinition environment node type name) before now after) :
    Impact environment.Readable environment.host origin before after := by
  cases type with
  | none => cases ran
  | some written =>
      rcases ran_bind.mp ran with ⟨declared, _, resolving, ran⟩
      rcases ran_bind.mp ran with ⟨_, _, storing, ran⟩
      rcases ran_bind.mp ran with ⟨_, _, defining, ran⟩
      apply impact_chain.trans (harmless_chain.trans (keeps_harmless_resolve_type _ _ _ _ resolving)
        (keeps_harmless_on_tree _ _ _ _ storing)).impact
      apply impact_chain.trans (impact_of_define (fun _ => storable_of_resolve resolving) defining)
      cases declared with
      | none =>
          cases ran
          exact impact_chain.refl _
      | some declared =>
          rcases ran_bind.mp ran with ⟨value, _, defaulted, adding⟩
          exact (harmless_chain.trans (keeps_harmless_add_default _ _ _ _ _ defaulted)
            (keeps_harmless_add _ _ _ _ _ adding)).impact

/-- The value of an assignment is looked at before the target. A value without a type that
can be stored has an unknown one. -/
theorem impact_of_assigned_type (constructed : origin.Constructed limit) {type : Option Ty}
    (admitted : origin.arena.Admitted .expression node) (ready : Ready limit origin node before)
    (ran : Ran (assignedType environment node) before type after) :
    Impact environment.Readable environment.host origin before after ∧
      (environment.Readable ∧ Recorded environment.host origin before →
        environment.host.Reads type ∧ type ≠ some .void) := by
  rcases ran_bind.mp ran with ⟨found, middle, inferred, ran⟩
  rcases impact_of_expression constructed admitted ready inferred with ⟨impact, reads⟩
  split at ran
  · rcases ran_bind.mp ran with ⟨_, _, reported, ran⟩
    cases ran
    refine ⟨impact_chain.trans impact (keeps_harmless_report _ rfl _ _ _ reported).impact, ?_⟩
    exact fun _ => ⟨if_known_none _, by simp⟩
  · rename_i solid
    cases ran
    exact ⟨impact, fun met => ⟨reads met.1 met.2, solid⟩⟩

theorem impact_of_assignment (constructed : origin.Constructed limit) {operator : AssignOperator}
    {target value : NodeId}
    (known : origin.arena.kind? node = some (.assign operator target value))
    (ready : Ready limit origin node before) {result : Unit}
    (ran : Ran (assignment environment node operator target value) before result after) :
    Impact environment.Readable environment.host origin before after := by
  rcases ran_bind.mp ran with ⟨type, valued, inferred, ran⟩
  rcases ran_bind.mp ran with ⟨_, _, got, ran⟩
  cases got
  have slot : (Category.expression, value) ∈ (NodeKind.assign operator target value).slots := by
    simp [NodeKind.slots]
  have targetReady := (visits_of_assigned_type constructed known ready inferred).next_ready
  rcases impact_of_assigned_type constructed (constructed.admitted known _ slot)
    (ready.below known (NodeKind.slot_is_child slot)) inferred with ⟨impact, assigned⟩
  apply impact.before
  rw [show valued.tree.arena.kind? target = _ from targetReady.kind] at ran
  have accessed : ∀ {found : NodeKind NodeId},
      origin.arena.kind? target = some found → found.isExpression = true →
      Ran (do
        let targetType ← expression environment target
        store environment node operator value targetType type) valued result after →
      Impact (environment.Readable ∧ Recorded environment.host origin before) environment.host origin
        valued after := by
    intro found targetFound expression' ran
    rcases ran_bind.mp ran with ⟨targetType, _, looked, stored⟩
    have first := (impact_of_expression constructed ⟨found, targetFound, expression'⟩ targetReady
      looked).1
    exact impact_chain.trans (first.weaken And.left)
      (keeps_harmless_store _ _ _ _ _ _ _ _ stored).impact
  split at ran
  · rcases ran_bind.mp ran with ⟨declared, _, resolving, ran⟩
    rcases ran_bind.mp ran with ⟨_, _, storing, ran⟩
    rcases ran_bind.mp ran with ⟨_, _, defining, stored⟩
    apply impact_chain.trans (harmless_chain.trans (keeps_harmless_resolve_type _ _ _ _ resolving)
      (keeps_harmless_on_tree _ _ _ _ storing)).impact
    apply impact_chain.trans (impact_of_define (fun _ => storable_of_resolve resolving) defining)
    exact (keeps_harmless_store _ _ _ _ _ _ _ _ stored).impact
  · rename_i was
    exact impact_of_name_assignment was assigned ran
  · rename_i found
    exact accessed found rfl ran
  · rename_i found
    exact accessed found rfl ran
  · cases ran

/-- One case for each kind of statement that holds no other ones. -/
theorem impact_of_leaf (constructed : origin.Constructed limit) {check : NodeId → Inference NodeId}
    {now : NodeId} (known : origin.arena.kind? node = some kind) (plain : kind.isNested = false)
    (admits : kind.isStatement = true) (ready : Ready limit origin node before)
    (ran : Ran (anyStatement environment check node) before now after) :
    Impact environment.Readable environment.host origin before after := by
  rcases ran_bind.mp ran with ⟨_, _, got, ran⟩
  cases got
  rw [show before.tree.arena.kind? node = some kind from ready.kind.trans known] at ran
  have evaluated : kind.isExpression = true → Ran (do
      let _ ← expression environment node
      return node) before now after →
      Impact environment.Readable environment.host origin before after := by
    intro expression' ran
    rcases ran_bind.mp ran with ⟨type, _, inferred, ran⟩
    cases ran
    exact (impact_of_expression constructed ⟨kind, known, expression'⟩ ready inferred).1
  cases kind with
  | definition type name => exact impact_of_bare_definition ran
  | assign operator target value =>
      rcases ran_bind.mp ran with ⟨_, _, assigned, ran⟩
      cases ran
      exact impact_of_assignment constructed known ready assigned
  | returnFrom value =>
      rcases ran_bind.mp ran with ⟨_, _, returned, ran⟩
      cases ran
      exact impact_of_return constructed known ready returned
  | breakLoop | continueLoop =>
      rcases ran_bind.mp ran with ⟨_, _, jumped, ran⟩
      cases ran
      exact (keeps_harmless_jump _ _ _ _ _ jumped).impact
  | call | construct | unary => exact evaluated rfl ran
  | body | condition | loop => cases plain
  | _ => cases admits

end Statements

section Walks

variable {nodes found : List NodeId} {node : NodeId} {before visited after : InferenceState}

/-- What was declared in a body is not visible behind it. -/
theorem impact_of_closed {assumed : Prop} {host : Host}
    (impact : Impact assumed host origin (opened before) visited) :
    Impact assumed host origin before (closed visited node found) := by
  have around : visited.scopes.outer = before.scopes.top :: before.scopes.outer := impact.outer
  rcases Scopes.visible_pop around with ⟨visible, outer⟩
  refine ⟨outer, ?_, impact.duplicates, impact.reported, ?_⟩
  · exact visible ▸ List.suffix_refl _
  · intro met recorded entry member
    have kept : entry ∈ before.scopes.top.visible := visible ▸ member
    exact (recorded entry kept).later impact.duplicates

theorem impact_of_condition (constructed : origin.Constructed limit) {kind : NodeKind NodeId}
    {condition : NodeId} (known : origin.arena.kind? node = some kind)
    (slot : (Category.expression, condition) ∈ kind.slots) (ready : Ready limit origin node before)
    {result : Unit} (asked : Ran (predicate environment condition) before result after) :
    Impact environment.Readable environment.host origin before after :=
  impact_of_predicate constructed (constructed.admitted known _ slot)
    (ready.below known (NodeKind.slot_is_child slot)) asked

theorem Walk.impact (constructed : origin.Constructed limit)
    (walk : Walk limit origin environment nodes before found after) :
    Impact environment.Readable environment.host origin before after := by
  induction walk with
  | nil => exact impact_chain.refl _
  | leaf check known plain admits ready ran taken later ih =>
      exact impact_chain.trans (impact_of_leaf constructed known plain admits ready ran) ih
  | body known ready inside work later ihInside ih =>
      exact impact_chain.trans (impact_of_closed ihInside) ih
  | condition known ready asked _ _ _ _ _ ihThen ihElse ih =>
      have first := impact_of_condition constructed known (by simp [NodeKind.slots]) ready asked
      exact impact_chain.trans first (impact_chain.trans ihThen (impact_chain.trans ihElse ih))
  | loop known ready asked _ _ _ _ ihInside ih =>
      have first := impact_of_condition constructed known (by simp [NodeKind.slots]) ready asked
      refine impact_chain.trans first (impact_chain.trans ?_ ih)
      exact ⟨ihInside.outer, ihInside.visible, ihInside.duplicates, ihInside.reported,
        ihInside.recorded⟩

end Walks

end Inference

end ModuleLang
