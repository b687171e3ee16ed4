import ModuleLang.CheckedModule
import ModuleLang.Proofs.Parsing.Declaration
import ModuleLang.Proofs.Validation.Completion

/-!
Checked modules. Checking gives a module for every text and host, and all that it
says about the text lies within it. If no error is reported, every node that is
left in the module obeys its typing rule.
-/

namespace ModuleLang

namespace Validator

variable {limit : Position} {host : Host} {clean : Prop} {module : ModuleRoot}
  {modules imports functions : List NodeId} {tree : SourceTree}

/-- Every check leaves a module as inference does. -/
theorem yields_run (woven : tree.Woven limit host clean module.node modules imports functions)
    (validator : Validator) :
    Yields (validator.run module) tree fun found final =>
      (∀ one ∈ found, one.span.stop ≤ limit) ∧
      final.Woven limit host clean module.node modules imports functions := by
  have looks : ∀ {check : SourceTree.Action (List Diagnostic)}, Finds limit check tree →
      Yields check tree fun found final => (∀ one ∈ found, one.span.stop ≤ limit) ∧
        final.Woven limit host clean module.node modules imports functions := by
    intro check finds
    refine finds.weaken ?_
    rintro found _ ⟨rfl, inside⟩
    exact ⟨inside, woven⟩
  cases validator with
  | moduleName => exact looks (ModuleRoot.finds_module_names woven)
  | duplicateParameters => exact looks (ModuleRoot.finds_parameters woven)
  | memberNames => exact looks (ModuleRoot.finds_members woven)
  | mustReturn => exact looks (ModuleRoot.finds_returns woven)
  | implicitReturn =>
      refine (ModuleRoot.yields_complete_returns woven).weaken ?_
      rintro found final ⟨rfl, woven, -⟩
      exact ⟨nofun, woven⟩

theorem yields_all (woven : tree.Woven limit host clean module.node modules imports functions)
    (validators : List Validator) :
    Yields (validators.mapM fun validator => validator.run module) tree fun found final =>
      (∀ part ∈ found, ∀ one ∈ part, one.span.stop ≤ limit) ∧
      final.Woven limit host clean module.node modules imports functions := by
  refine (yields_mapM _ (fun found _ current =>
    (∀ part ∈ found, ∀ one ∈ part, one.span.stop ≤ limit) ∧
    current.Woven limit host clean module.node modules imports functions) ?_ validators [] tree
    ⟨nofun, woven⟩).weaken fun _ _ => id
  rintro found validator rest current ⟨inside, woven⟩
  refine (yields_run woven validator).weaken ?_
  rintro part final ⟨more, woven⟩
  refine ⟨fun other member => ?_, woven⟩
  obtain old | new := List.mem_append.mp member
  · exact inside other old
  · rw [List.mem_singleton] at new
    rw [new]
    exact more

end Validator

namespace CheckedModule

/-- What holds of every checked module, within `limit`. -/
structure Proper (limit : Position) (host : Host) (checked : CheckedModule) : Prop where
  woven : ∃ modules imports functions,
    checked.tree.Woven limit host (checked.hasErrors = false) checked.root modules imports functions
  reported : ∀ found ∈ checked.diagnostics, found.span.stop ≤ limit

theorem of_parsed_proper {limit : Position} {parsed : ParsedModule} (proper : parsed.Proper limit)
    (host : Host) : ∃ checked, ofParsed parsed host = .ok checked ∧ checked.Proper limit host := by
  obtain ⟨modules, imports, functions, found⟩ := proper.root
  have staged : Yields (stages host ⟨parsed.root, parsed.fileName⟩) parsed.tree
      fun found final => ∃ inferred validated, found = inferred ++ validated ∧
        (∀ one ∈ inferred ++ validated, one.span.stop ≤ limit) ∧
        final.Woven limit host (Diagnostic.hasErrors inferred = false) parsed.root modules imports
          functions := by
    unfold stages
    rw [yields_bind]
    refine (SourceTree.yields_infer_types proper.constructed found parsed.fileName host).weaken ?_
    rintro inferred _ ⟨final, inferredState, rfl, rfl⟩
    have woven := Inference.woven_of_inferred proper.constructed found inferredState
    rw [yields_bind]
    refine (Validator.yields_all woven Validator.all).weaken ?_
    rintro parts last ⟨inside, woven⟩
    refine ⟨final.diagnostics, parts.flatten, rfl, fun one member => ?_, woven⟩
    obtain early | late := List.mem_append.mp member
    · exact inferredState.sound.reported one early
    · obtain ⟨part, held, member⟩ := List.mem_flatten.mp late
      exact inside part held one member
  obtain ⟨_, final, ran, inferred, validated, rfl, inside, woven⟩ := yields_iff.mp staged
  refine ⟨⟨final, parsed.root, parsed.diagnostics ++ (inferred ++ validated), parsed.fileName⟩, ?_,
    ⟨modules, imports, functions, ?_⟩, ?_⟩
  · unfold ofParsed
    rw [ran]
  · refine woven.imply fun clean => ?_
    simp only [hasErrors, Diagnostic.hasErrors, List.any_append, Bool.or_eq_false_iff] at clean
    exact clean.2.1
  · intro one member
    obtain early | late := List.mem_append.mp member
    · exact proper.reported one early
    · exact inside one late

theorem of_text_proper (text fileName : String) (host : Host) :
    ∃ checked, ofText text fileName host = .ok checked ∧
      checked.Proper (Position.ending text.toList) host := by
  obtain ⟨parsed, ran, proper, -⟩ := ParsedModule.of_text_proper text fileName
  unfold ofText
  rw [ran]
  exact of_parsed_proper proper host

/-- Where no error is reported, every node that is left in the module obeys its
typing rule. -/
theorem of_text_obeys (text fileName : String) (host : Host) :
    ∃ checked, ofText text fileName host = .ok checked ∧ (checked.hasErrors = false →
      ∀ id, checked.tree.arena.Reachable checked.root id →
        checked.tree.arena.Obeys (checked.tree.arena.results host checked.root id) id) := by
  obtain ⟨checked, ran, ⟨modules, imports, functions, woven⟩, -⟩ :=
    of_text_proper text fileName host
  exact ⟨checked, ran, fun clean id below => woven.obeys clean below⟩

/-- A module without errors: a widened operand, a default and a definition by
assignment are in it. -/
def sampleText : String :=
  "module m; fn long f(int a) { return a + 1l; } fn g() { int x; y := x; }"

theorem of_text_obeys_sample :
    ∃ checked, ofText sampleText "m.plp" Host.empty = .ok checked ∧ checked.hasErrors = false ∧
      ∀ id, checked.tree.arena.Reachable checked.root id →
        checked.tree.arena.Obeys (checked.tree.arena.results Host.empty checked.root id) id := by
  obtain ⟨checked, ran, obeys⟩ := of_text_obeys sampleText "m.plp" Host.empty
  have clean : (match ofText sampleText "m.plp" Host.empty with
      | .ok checked => checked.hasErrors
      | .error _ => true) = false := by
    decide +kernel
  rw [ran] at clean
  exact ⟨checked, ran, clean, obeys clean⟩

end CheckedModule

end ModuleLang
