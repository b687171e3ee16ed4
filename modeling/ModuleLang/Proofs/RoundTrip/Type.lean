import ModuleLang.Parsing.Type
import ModuleLang.Proofs.RoundTrip.Reproducing

/-!
Written types. The suffixes of a type end where no bracket follows, or one that opens
an index.
-/

namespace ModuleLang

namespace TokenKind

/-- No array suffix begins here. -/
def EndsType (kinds : List TokenKind) : Prop :=
  next kinds = .punctuation .openBracket →
    next kinds.tail ≠ .punctuation .closeBracket ∧ next kinds.tail ≠ .punctuation .comma

theorem ends_type_of_ne {kinds : List TokenKind} (other : next kinds ≠ .punctuation .openBracket) :
    EndsType kinds :=
  fun same => absurd same other

end TokenKind

namespace Parser

open ParserState TokenKind

variable {kind : TokenKind} {kinds rest : List TokenKind} {start : ParserState}

theorem at_suffix {second : TokenKind}
    (reads : start.Reads (.punctuation .openBracket :: second :: kinds))
    (suffix : second = .punctuation .closeBracket ∨ second = .punctuation .comma) :
    atRankSuffix start.context = true := by
  have open' : start.context.atPunctuation .openBracket = true := by
    rw [ParsingContext.atPunctuation, kind_of_reads reads]
    exact beq_self_eq_true _
  have behind : (start.context.cursor.peek 1).kind = second := reads.shows'.peek
  rw [atRankSuffix, open', behind]
  obtain rfl | rfl := suffix <;> rfl

theorem not_at_suffix (reads : start.Reads kinds) (ends : EndsType kinds) :
    atRankSuffix start.context = false := by
  have own := kind_of_reads reads
  cases kinds with
  | nil =>
      rw [atRankSuffix, ParsingContext.atPunctuation, own]
      rfl
  | cons first kinds =>
      have behind : (start.context.cursor.peek 1).kind = next kinds := reads.shows'.peek
      rw [atRankSuffix, ParsingContext.atPunctuation, own, behind]
      by_cases open' : next (first :: kinds) = .punctuation .openBracket
      · obtain ⟨notClose, notComma⟩ := ends open'
        rw [List.tail_cons] at notClose notComma
        rw [beq_eq_false_iff_ne.mpr notClose, beq_eq_false_iff_ne.mpr notComma, Bool.or_false,
          Bool.and_false]
      · rw [beq_eq_false_iff_ne.mpr open', Bool.false_and]

theorem yields_commas_read {budget count : Nat} {holds : Nat → ParserState → Prop}
    (reads : start.Reads (List.replicate count (.punctuation .comma) ++ kinds))
    (other : next kinds ≠ .punctuation .comma) (enough : count < budget)
    (met : ∀ final, start.Continues kinds final → holds count final) :
    Yields (commas budget) start holds := by
  induction count generalizing budget start holds with
  | zero =>
      obtain ⟨budget, rfl⟩ : ∃ less, budget = less + 1 := ⟨budget - 1, by omega⟩
      unfold commas
      rw [yields_bind]
      refine yields_refused reads other ?_
      rw [if_neg Bool.false_ne_true]
      exact met _ (.refl reads)
  | succ count ih =>
      obtain ⟨budget, rfl⟩ : ∃ less, budget = less + 1 := ⟨budget - 1, by omega⟩
      unfold commas
      rw [yields_bind]
      rw [List.replicate_succ, List.cons_append] at reads
      refine yields_accepted reads fun behind continues => ?_
      rw [if_pos rfl, yields_bind]
      exact ih continues.reads (by omega) fun final more => met final (continues.trans more)

/-- The tokens of some array suffixes. -/
def suffixTokens (ranks : List Nat) : List TokenKind :=
  ranks.flatMap fun rank => inBrackets (List.replicate (rank - 1) (.punctuation .comma))

theorem suffix_starts (rank : Nat) (kinds : List TokenKind) :
    ∃ second more, inBrackets (List.replicate (rank - 1) (.punctuation .comma)) ++ kinds =
      .punctuation .openBracket :: second :: more ∧
      (second = .punctuation .closeBracket ∨ second = .punctuation .comma) := by
  cases rank - 1 with
  | zero => exact ⟨_, _, rfl, Or.inl rfl⟩
  | succ count => exact ⟨_, _, rfl, Or.inr rfl⟩

theorem reproduces_suffixes {budget : Nat} {ranks found : List Nat}
    (written : ∀ rank ∈ ranks, 1 ≤ rank ∧ rank ≤ 255) (ends : EndsType rest)
    (enough : (suffixTokens ranks ++ rest).length < budget) :
    Reproduces (rankSuffixes budget found) (fun _ all => all = found ++ ranks)
      (suffixTokens ranks) rest := by
  intro start reads
  induction ranks generalizing budget found start with
  | nil =>
      obtain ⟨budget, rfl⟩ : ∃ less, budget = less + 1 := ⟨budget - 1, by omega⟩
      unfold rankSuffixes
      rw [yields_bind, yields_context, not_at_suffix reads ends]
      exact ⟨found, rfl, (List.append_nil _).symm, .refl reads⟩
  | cons rank ranks ih =>
      obtain ⟨budget, rfl⟩ : ∃ less, budget = less + 1 := ⟨budget - 1, by omega⟩
      obtain ⟨least, most⟩ := written rank List.mem_cons_self
      have tokens : suffixTokens (rank :: ranks) ++ rest =
          .punctuation .openBracket :: (List.replicate (rank - 1) (.punctuation .comma) ++
            .punctuation .closeBracket :: (suffixTokens ranks ++ rest)) := by
        simp [suffixTokens, inBrackets]
      obtain ⟨second, more, starts, suffix⟩ := suffix_starts rank (suffixTokens ranks ++ rest)
      rw [tokens] at reads enough
      have opens : start.Reads (.punctuation .openBracket :: second :: more) := by
        rw [← starts]
        simpa [inBrackets] using reads
      have here : atRankSuffix start.context = true := at_suffix opens suffix
      unfold rankSuffixes
      rw [yields_bind, yields_context, here, Bool.not_true, if_neg Bool.false_ne_true, yields_bind,
        yields_current, yields_bind]
      refine yields_past reads fun opened first => ?_
      rw [yields_bind, yields_remaining, yields_bind]
      have room := length_of_reads first.reads
      simp only [List.length_append, List.length_replicate, List.length_cons] at room enough
      refine yields_commas_read first.reads (by simp [next]) (by omega) fun counted second => ?_
      rw [yields_bind]
      refine yields_accepted second.reads fun closed third => ?_
      have same : rank - 1 + 1 = rank := by omega
      have allowed : ¬ rankLimit < rank - 1 + 1 := by
        unfold rankLimit
        omega
      rw [Bool.not_true, if_neg Bool.false_ne_true, if_neg allowed, same]
      have less : (suffixTokens ranks ++ rest).length < budget := by
        rw [List.length_append]
        omega
      refine (ih (fun other member => written other (List.mem_cons_of_mem _ member)) less closed
        third.reads).weaken ?_
      rintro _ final ⟨all, rfl, rfl, last⟩
      refine ⟨_, rfl, by rw [List.append_assoc, List.singleton_append], ?_⟩
      exact ((first.trans second).trans third).trans last

theorem tokens_of_type (name : String) (ranks : List Nat) :
    (SyntaxTree.node (.typeRef name ranks)).tokens = .word name :: suffixTokens ranks := by
  rw [SyntaxTree.tokens, suffixTokens]

theorem returns_type_ref {name : String} {ranks : List Nat}
    (written : ∀ rank ∈ ranks, 1 ≤ rank ∧ rank ≤ 255) (ends : EndsType rest) :
    Returns type (.node (.typeRef name ranks)) (.word name :: suffixTokens ranks) rest := by
  intro start reads
  rw [List.cons_append] at reads
  unfold type
  rw [yields_bind, yields_current, yields_bind]
  refine yields_named reads fun behind first => ?_
  simp only
  rw [yields_bind, yields_remaining, yields_bind]
  refine (reproduces_suffixes written ends (length_of_reads first.reads) behind
    first.reads).weaken ?_
  rintro _ last ⟨all, rfl, same, second⟩
  rw [List.nil_append] at same
  subst same
  simp only
  rw [yields_bind]
  refine yields_made second.reads fun node final third found => ?_
  refine ⟨node, rfl, ?_, (first.trans second).trans third⟩
  exact Arena.has_tree_node found (.typeRef name _) rfl rfl

/-- A type is read where no further suffix follows. -/
theorem returns_type {tree : SyntaxTree} (typed : tree.IsType) (ends : EndsType rest) :
    Returns type tree tree.tokens rest := by
  obtain ⟨-, written⟩ := typed
  rw [tokens_of_type]
  exact returns_type_ref written ends

theorem fails_type (other : (next kinds).word? = none) : Fails type kinds := by
  intro start reads
  unfold type
  rw [yields_bind, yields_current, yields_bind]
  refine yields_unnamed reads other ?_
  simp only
  rw [yields_bind]
  exact ⟨rfl, .refl _, reads.recorded⟩

/-- The written form of a type tells whether the type is built in. -/
theorem yields_builtin {tree : SyntaxTree} {node : NodeId} {holds : Bool → ParserState → Prop}
    (typed : tree.IsType) (held : start.HasTree node tree) (met : holds tree.isBuiltin start) :
    Yields (namesBuiltin node) start holds := by
  obtain ⟨-, -⟩ := typed
  rename_i name ranks
  obtain ⟨kind, values, found, same⟩ := held.kind
  unfold namesBuiltin
  rw [yields_bind, yields_kind, found]
  cases kind with
  | typeRef other ranks' =>
      obtain ⟨rfl, rfl⟩ : other = name ∧ ranks' = ranks := by
        simpa [NodeKind.map, eq_comm] using same
      exact met
  | _ => simp [NodeKind.map] at same

end Parser

/-!
How the tokens of an expression begin. They never begin like a type with a name or a
closing parenthesis behind it, unless the expression is a name. So neither a
definition nor a cast is found where an expression stands.
-/

namespace TokenKind

/-- Tokens that an expression may begin with. -/
def beginsExpression : TokenKind → Bool
  | word _ | literal _ | punctuation .openParen | operator _ | keyword .newWord => true
  | _ => false

@[simp] theorem next_parenthesized (tokens rest : List TokenKind) :
    next (inParentheses tokens ++ rest) = .punctuation .openParen := rfl

/-- What may follow a name that is no type. -/
def FollowsName (kinds : List TokenKind) : Prop :=
  (next kinds).word? = none ∧ next kinds ≠ .punctuation .closeParen ∧ EndsType kinds

/-- Tokens that do not begin with a type in front of a name or a closing
parenthesis. -/
def NoType (kinds : List TokenKind) : Prop :=
  ∀ name rest, kinds = .word name :: rest → FollowsName rest

theorem no_type_of_unnamed {kinds : List TokenKind} (other : (next kinds).word? = none) :
    NoType kinds := by
  rintro name rest rfl
  cases other

/-- Tokens that begin as an expression does. -/
def BeginsExpression (kinds : List TokenKind) : Prop :=
  ∃ first more, kinds = first :: more ∧ beginsExpression first = true

theorem BeginsExpression.append {kinds : List TokenKind} (begins : BeginsExpression kinds)
    (rest : List TokenKind) : BeginsExpression (kinds ++ rest) := by
  obtain ⟨first, more, rfl, opens⟩ := begins
  exact ⟨first, more ++ rest, rfl, opens⟩

theorem BeginsExpression.next {kinds : List TokenKind} (begins : BeginsExpression kinds) :
    beginsExpression (next kinds) = true := by
  obtain ⟨first, more, rfl, opens⟩ := begins
  exact opens

theorem begins_operand {least : Nat} {tree : SyntaxTree}
    (begins : BeginsExpression tree.tokens) :
    BeginsExpression (TokenKind.operand least tree tree.tokens) := by
  unfold TokenKind.operand
  split
  · exact ⟨_, _, rfl, rfl⟩
  · exact begins

theorem follows_dot (kinds : List TokenKind) : FollowsName (.punctuation .dot :: kinds) :=
  ⟨rfl, nofun, ends_type_of_ne nofun⟩

theorem follows_operator (spelt : Operator) (kinds : List TokenKind) :
    FollowsName (.operator spelt :: kinds) :=
  ⟨rfl, nofun, ends_type_of_ne nofun⟩

theorem follows_index {kinds : List TokenKind} (begins : BeginsExpression kinds) :
    FollowsName (.punctuation .openBracket :: kinds) := by
  refine ⟨rfl, nofun, fun _ => ⟨fun close => ?_, fun comma => ?_⟩⟩
  · have opens := begins.next
    rw [List.tail_cons] at close
    rw [close] at opens
    cases opens
  · have opens := begins.next
    rw [List.tail_cons] at comma
    rw [comma] at opens
    cases opens

/-- What stands in front of an operator begins with no type. -/
theorem no_type_operand {least : Nat} {tree : SyntaxTree} {rest : List TokenKind}
    (plain : NoType (tree.tokens ++ rest)) :
    NoType (TokenKind.operand least tree tree.tokens ++ rest) := by
  unfold TokenKind.operand
  split
  · exact no_type_of_unnamed rfl
  · exact plain

end TokenKind

namespace SyntaxTree

open TokenKind

theorem IsExpression.begins {tree : SyntaxTree} (formed : tree.IsExpression) :
    BeginsExpression tree.tokens := by
  induction formed with
  | literal | member | call | construct | newArray | cast =>
      rw [tokens]
      exact ⟨_, _, rfl, rfl⟩
  | memberAccess _ _ ih | indexAccess _ _ ih | binary _ _ ih =>
      rw [tokens]
      exact (begins_operand ih).append _
  | unary _ ih =>
      rw [tokens]
      split
      · exact ⟨_, _, rfl, rfl⟩
      · exact (begins_operand ih).append _

/-- An expression begins with no type, unless it is a name and what follows makes it
look like one. -/
theorem IsExpression.no_type {tree : SyntaxTree} (formed : tree.IsExpression)
    (rest : List TokenKind) (follows : ∀ name, tree = .node (.member name) → FollowsName rest) :
    NoType (tree.tokens ++ rest) := by
  induction formed generalizing rest with
  | @member name _ =>
      rw [tokens]
      rintro other more same
      cases same
      exact follows name rfl
  | literal | construct | newArray | cast =>
      rw [tokens]
      exact no_type_of_unnamed rfl
  | call =>
      rw [tokens]
      rintro other more same
      cases same
      exact ⟨rfl, by simp, ends_type_of_ne (by simp)⟩
  | memberAccess _ _ ih =>
      rw [tokens, List.append_assoc]
      exact no_type_operand (ih _ fun _ _ => follows_dot _)
  | indexAccess _ inside ih =>
      rw [tokens, List.append_assoc]
      refine no_type_operand (ih _ fun _ _ => ?_)
      rw [inBrackets, List.append_assoc]
      exact follows_index (inside.begins.append _)
  | binary _ _ ih =>
      rw [tokens, List.append_assoc]
      exact no_type_operand (ih _ fun _ _ => follows_operator _ _)
  | unary _ ih =>
      rw [tokens]
      split
      · exact no_type_of_unnamed rfl
      · rw [List.append_assoc]
        exact no_type_operand (ih _ fun _ _ => follows_operator _ _)

end SyntaxTree

namespace Parser

open ParserState TokenKind

/-- Where an expression begins, no type is read, or no more of one than a name that is
followed like a name. -/
theorem yields_no_type {kinds : List TokenKind} {start : ParserState}
    {holds : Option NodeId → ParserState → Prop} (plain : NoType kinds) (reads : start.Reads kinds)
    (missing : ∀ final, start.Keeps final →
      (∀ id, (final.tree.spans.span? id).isSome → id.index < final.tree.arena.size) →
      holds none final)
    (named : ∀ node final rest, FollowsName rest → start.Continues rest final →
      holds (some node) final) : Yields type start holds := by
  cases known : (next kinds).word? with
  | none =>
      apply (fails_type known start reads).weaken
      rintro _ final ⟨rfl, keeps, recorded⟩
      exact missing final keeps recorded
  | some name =>
      obtain ⟨rest, rfl⟩ : ∃ rest, kinds = .word name :: rest := by
        cases kinds with
        | nil => cases known
        | cons kind rest =>
            cases kind with
            | word other =>
                cases known
                exact ⟨rest, rfl⟩
            | _ => cases known
      have follows := plain name rest rfl
      apply (returns_type_ref (List.forall_mem_nil _) follows.2.2 start reads).weaken
      rintro _ typed ⟨node, rfl, -, continues⟩
      exact named node typed rest follows continues

end Parser

end ModuleLang
