import ModuleLang.Proofs.Token.Alone

/-!
Literals in a text. An integer literal is exact: its body is a row of digits whose value
the type can hold, and the literal has this value; any other body is reported once, as a
whole, and the literal is zero. What a literal is shown as is read as this literal, if
its characters are printable or have an escape.
-/

namespace ModuleLang

open ModuleLang.Text ModuleLang.Decimal

/-- The greatest value of an integer type. -/
def Ty.greatest : Ty → Nat
  | int => 2147483647
  | uint => 4294967295
  | long => 9223372036854775807
  | ulong => 18446744073709551615
  | byte => 255
  | _ => 0

namespace Text

/-- A printable character of ASCII, a line feed, a tab, a carriage return or NUL. -/
def IsPlain (character : Char) : Prop :=
  (' ' ≤ character ∧ character ≤ '~') ∨ character ∈ ['\n', '\t', '\r', '\x00']

instance (character : Char) : Decidable (IsPlain character) := inferInstanceAs (Decidable (_ ∨ _))

/-- Such a character can be quoted. -/
theorem IsPlain.quotable {character : Char} (plain : IsPlain character) :
    isQuotable character = true := by
  rcases plain with ⟨lower, upper⟩ | listed
  · have least : 0x20 ≤ character.toNat := lower
    have most : character.toNat ≤ 0x7e := upper
    rw [isQuotable, decide_eq_true least, decide_eq_true (Nat.lt_succ_of_le most)]
    rfl
  · simp only [List.mem_cons, List.not_mem_nil, or_false] at listed
    rcases listed with rfl | rfl | rfl | rfl <;> decide

end Text

namespace Literal

/-- The number that an integer literal stands for. -/
def integer? : Literal → Option Int
  | int value => some value.toInt
  | uint value => some value.toNat
  | long value => some value.toInt
  | ulong value => some value.toNat
  | byte value => some value.toNat
  | _ => none

/-- Literals whose text can be read: integers that are not negative, truth values, `null`,
and texts of printable characters and the control characters that have an escape. -/
def IsPlain : Literal → Prop
  | int value => 0 ≤ value.toInt
  | long value => 0 ≤ value.toInt
  | uint _ | ulong _ | byte _ | bool _ | null => True
  | string value => ∀ character ∈ value.toList, Text.IsPlain character
  | char value => Text.IsPlain value
  | float _ | double _ => False

theorem IsPlain.writable {value : Literal} (plain : value.IsPlain) :
    value.isWritable = true := by
  cases value with
  | int value => exact decide_eq_true plain
  | long value => exact decide_eq_true plain
  | string value =>
      exact List.all_eq_true.mpr fun character member => (plain character member).quotable
  | char value => exact Text.IsPlain.quotable plain
  | float | double => cases plain
  | _ => rfl

/-- The zero of an integer type. -/
theorem integer_of_zero {type : Ty} (integer : type.isInteger = true) :
    ∃ zero, zero? type = some zero ∧ zero.type = type ∧ zero.integer? = some 0 := by
  cases type <;> first | exact ⟨_, rfl, rfl, rfl⟩ | cases integer

end Literal

namespace Number

/-- Suffixes of integer literals, and the types that they select. -/
def integerSuffixes : List (List Char × Ty) :=
  [([], .int), (['i'], .int), (['u'], .uint), (['l'], .long), (['u', 'l'], .ulong), (['b'], .byte)]

/-- Suffixes of the other number literals. -/
def floatingSuffixes : List (List Char) := [['f'], ['d']]

/-- Digits, at least one, whose value a type can hold. -/
structure IsNumeral (type : Ty) (body : List Char) : Prop where
  filled : body ≠ []
  digits : ∀ character ∈ body, isAsciiDigit character = true
  held : Nat.ofDigitChars 10 body 0 ≤ type.greatest

variable {body suffix : List Char} {type : Ty}

theorem suffix_type_listed (listed : (suffix, type) ∈ integerSuffixes)
    (whole : suffix = [] → '.' ∉ body) :
    suffixType? body suffix = some type ∧ type.isInteger = true := by
  simp only [integerSuffixes, List.mem_cons, Prod.mk.injEq, List.not_mem_nil, or_false] at listed
  rcases listed with ⟨rfl, rfl⟩ | ⟨rfl, rfl⟩ | ⟨rfl, rfl⟩ | ⟨rfl, rfl⟩ | ⟨rfl, rfl⟩ | ⟨rfl, rfl⟩
  · have plain : body.contains '.' = false := by simpa using whole rfl
    rw [suffixType?, plain]
    exact ⟨rfl, rfl⟩
  all_goals exact ⟨rfl, rfl⟩

theorem suffix_type_other (other : suffix ∉ integerSuffixes.map Prod.fst)
    (apart : suffix ∉ floatingSuffixes) : suffixType? body suffix = none := by
  simp only [integerSuffixes, floatingSuffixes, List.map_cons, List.map_nil, List.mem_cons,
    List.not_mem_nil, or_false, not_or] at other apart
  unfold suffixType?
  split <;> simp_all

/-- Integer literals are made from natural numbers below a bound, without loss. -/
theorem literal_of_integer (integer : type.isInteger = true) : ∃ make : Nat → Literal,
    (∀ body, literal? type body = (natural? (type.greatest + 1) body).map make) ∧
    ∀ n ≤ type.greatest, (make n).type = type ∧ (make n).integer? = some (n : Int) := by
  have below : ∀ {n bound : Nat}, n ≤ bound → n < bound + 1 := Nat.lt_succ_of_le
  cases type with
  | int =>
      refine ⟨fun n => .int (Int32.ofNat n), fun body => rfl, fun n small => ⟨rfl, ?_⟩⟩
      exact congrArg some (Int32.toInt_ofNat_of_lt (below small))
  | uint =>
      refine ⟨fun n => .uint (UInt32.ofNat n), fun body => rfl, fun n small => ⟨rfl, ?_⟩⟩
      exact congrArg (fun n : Nat => some (n : Int)) (UInt32.toNat_ofNat_of_lt' (below small))
  | long =>
      refine ⟨fun n => .long (Int64.ofNat n), fun body => rfl, fun n small => ⟨rfl, ?_⟩⟩
      exact congrArg some (Int64.toInt_ofNat_of_lt (below small))
  | ulong =>
      refine ⟨fun n => .ulong (UInt64.ofNat n), fun body => rfl, fun n small => ⟨rfl, ?_⟩⟩
      exact congrArg (fun n : Nat => some (n : Int)) (UInt64.toNat_ofNat_of_lt' (below small))
  | byte =>
      refine ⟨fun n => .byte (UInt8.ofNat n), fun body => rfl, fun n small => ⟨rfl, ?_⟩⟩
      exact congrArg (fun n : Nat => some (n : Int)) (UInt8.toNat_ofNat_of_lt' (below small))
  | _ => cases integer

theorem natural_of_numeral (numeral : IsNumeral type body) :
    natural? (type.greatest + 1) body = some (Nat.ofDigitChars 10 body 0) :=
  TokenKind.of_natural (Nat.lt_succ_of_le numeral.held) (List.all_eq_true.mpr numeral.digits) rfl

theorem natural_of_other (filled : body ≠ []) (other : ¬ IsNumeral type body) :
    natural? (type.greatest + 1) body = none := by
  apply if_neg
  intro accepted
  rw [Bool.and_eq_true, decide_eq_true_eq] at accepted
  exact other ⟨filled, List.all_eq_true.mp accepted.1, Nat.le_of_lt_succ accepted.2⟩

theorem plain_of_numeral (numeral : IsNumeral type body) :
    (body.isEmpty || body.contains '_') = false := by
  have plain : '_' ∉ body := by
    intro member
    cases numeral.digits '_' member
  rw [List.isEmpty_eq_false_iff.mpr numeral.filled, Bool.false_or]
  simpa using plain

/-- The value of an integer literal is that of its digits, or the literal is refused and
zero stands in for it. -/
theorem read_integer (parts : split (body ++ suffix) = (body, suffix))
    (listed : (suffix, type) ∈ integerSuffixes) (whole : suffix = [] → '.' ∉ body) :
    ∃ value : Literal, value.type = type ∧
      ((IsNumeral type body ∧ read (body ++ suffix) = .ok value ∧
          value.integer? = some (Nat.ofDigitChars 10 body 0 : Int)) ∨
        (¬ IsNumeral type body ∧ read (body ++ suffix) = .error value ∧
          value.integer? = some 0)) := by
  rcases suffix_type_listed listed whole with ⟨selected, integer⟩
  rcases literal_of_integer integer with ⟨make, same, exact'⟩
  rcases Literal.integer_of_zero integer with ⟨zero, known, typed, none⟩
  rw [read, parts]
  simp only [selected, known, Option.getD_some, same]
  by_cases numeral : IsNumeral type body
  · rcases exact' _ numeral.held with ⟨typed, value⟩
    refine ⟨_, typed, Or.inl ⟨numeral, ?_, value⟩⟩
    rw [plain_of_numeral numeral, if_neg Bool.false_ne_true, natural_of_numeral numeral]
    rfl
  · refine ⟨zero, typed, Or.inr ⟨numeral, ?_, none⟩⟩
    by_cases filled : body = []
    · rw [filled]
      rfl
    · rw [natural_of_other filled numeral, Option.map_none, Option.elim_none, ite_self]

theorem read_other (parts : split (body ++ suffix) = (body, suffix))
    (other : suffix ∉ integerSuffixes.map Prod.fst) (apart : suffix ∉ floatingSuffixes) :
    read (body ++ suffix) = .error (.int 0) := by
  rw [read, parts]
  simp only [suffix_type_other other apart]

end Number

namespace Lexeme

theorem number_length (text : List Char) :
    (readNumber text).length = (Number.lexeme false text).length := by
  unfold readNumber
  dsimp only
  split <;> rfl

/-- A lexeme that begins with a digit is a number, and its characters are those of the
number. -/
theorem Cut.number {text shown : List Char} {lexeme : Lexeme} (cut : Cut text lexeme)
    (same : text.take lexeme.length = shown) (digit : shown.head?.any isAsciiDigit = true) :
    lexeme = readNumber text ∧ Number.lexeme false text = shown := by
  have begins : text.head?.any isAsciiDigit = true := by
    cases text with
    | nil =>
        rw [List.take_nil] at same
        subst same
        cases digit
    | cons first rest =>
        cases length : lexeme.length with
        | zero =>
            rw [length] at same
            subst same
            cases digit
        | succ count =>
            rw [length] at same
            subst same
            exact digit
  have read' : lexeme = readNumber text := by
    cases cut with
    | indentation found =>
        unfold indentationLength? at found
        split at found
        · cases begins
        · cases begins
        · cases found
    | front first rest => exact read_digit begins rest
  refine ⟨read', ?_⟩
  rw [← same, read', number_length]
  exact List.prefix_iff_eq_take.mp (number_lexeme_begins false text)

end Lexeme

namespace Tokenized

/-- What a number lexeme gives: the literal that is read from its characters, or the one
that stands in for it and a report on all of its characters. -/
theorem literal_of_number {text fileName : String} {token : Token} {shown : List Char}
    (member : token ∈ (ofText text fileName).sequence.tokens.toList)
    (same : token.span.slice text.toList = shown) (digit : shown.head?.any isAsciiDigit = true) :
    let reports := (ofText text fileName).reportsOn token.span
    (∃ value, Number.read shown = .ok value ∧ token.kind = .literal value ∧ reports = []) ∨
      ∃ value, Number.read shown = .error value ∧ token.kind = .literal value ∧
        reports = [⟨.invalidNumber (String.ofList shown), token.span, fileName⟩] := by
  intro reports
  rw [tokens_of_text] at member
  have going : token.kind ≠ .endOfFile := by
    intro ended
    rcases closed_of_text text fileName with ⟨proper, tokens, others⟩
    have listed : token ∈ (ofText text fileName).sequence.tokens.toList := by
      rw [tokens_of_text]
      exact member
    rw [tokens] at listed
    rcases List.mem_append.mp listed with inside | last
    · exact others token inside ended
    · -- Nothing stands at the end of the file.
      rw [List.mem_singleton] at last
      have empty : token.span.slice text.toList = [] := by
        rw [last, Span.slice_of_offset (Nat.le_refl _) (Nat.le_refl _) rfl rfl, Nat.sub_self,
          List.take_zero]
      rw [← same, empty] at digit
      cases digit
  rcases @found_of_token fileName text.toList text.toList.length 0 true token (Nat.zero_le _)
      member going with ⟨place, lexeme, cut, inside, means, span, found⟩
  have forward := Reading.advance_of_offset inside
  have stop : token.span.stop = .ofOffset text.toList (place + lexeme.length) := by
    rw [span]
    exact congrArg Reading.position forward
  have slice := Span.slice_of_offset (Nat.le_add_right _ _) inside
    (show token.span.start = .ofOffset text.toList place by rw [span]; rfl) stop
  rw [Nat.add_sub_cancel_left, same] at slice
  rcases cut.number slice.symm digit with ⟨number, characters⟩
  have filled : token.span.start < token.span.stop := by
    rw [stop, span]
    exact Position.of_offset_strict _ (Nat.lt_add_of_pos_right cut.fits.filled)
  have reported : reports = (lexeme.faults.map (reportOf fileName
      (.ofOffset text.toList place))).filter fun found => token.span.meets found.span := found
  rw [number, Lexeme.readNumber, characters] at means reported
  rw [number, Lexeme.number_length, characters] at span
  cases outcome : Number.read shown with
  | ok value =>
      rw [outcome] at means reported
      exact Or.inl ⟨value, rfl, (Option.some.inj means).symm, reported⟩
  | error value =>
      rw [outcome] at means reported
      refine Or.inr ⟨value, rfl, (Option.some.inj means).symm, ?_⟩
      have whole : reportOf fileName (.ofOffset text.toList place)
          ⟨.invalidNumber (String.ofList shown), 0, shown.length⟩ =
          ⟨.invalidNumber (String.ofList shown), token.span, fileName⟩ := by
        rw [span]
        rfl
      rw [reported, List.map_singleton, whole]
      simp only [List.filter_cons, List.filter_nil, Span.meets_self filled, if_true]

/-- Integer literals are exact. A lexeme that begins with a digit falls apart in front of
the letters that it ends in. If they select an integer type, then the lexeme is the
literal of this type with the value of its digits, and is not reported, if and only if
the rest is a row of digits whose value the type can hold; and otherwise it is zero, and
reported once. Behind other letters than the suffixes of numbers it is reported and is an
`int`. -/
theorem of_text_integers {text fileName : String} {token : Token} {body suffix : List Char}
    (member : token ∈ (ofText text fileName).sequence.tokens.toList)
    (shown : token.span.slice text.toList = body ++ suffix)
    (digit : (body ++ suffix).head?.any isAsciiDigit = true)
    (letters : ∀ character ∈ suffix, isAsciiLetter character = true)
    (ended : ∀ last ∈ body.getLast?, isAsciiLetter last = false) :
    let reports := (ofText text fileName).reportsOn token.span
    let report : Diagnostic :=
      ⟨.invalidNumber (String.ofList (body ++ suffix)), token.span, fileName⟩
    (∀ type, (suffix, type) ∈ Number.integerSuffixes → (suffix = [] → '.' ∉ body) →
      ∃ value : Literal, token.kind = .literal value ∧ value.type = type ∧
        ((value.integer? = some (Nat.ofDigitChars 10 body 0 : Int) ∧ reports = []) ↔
          Number.IsNumeral type body) ∧
        (¬ Number.IsNumeral type body → value.integer? = some 0 ∧ reports = [report])) ∧
    (suffix ∉ Number.integerSuffixes.map Prod.fst → suffix ∉ Number.floatingSuffixes →
      token.kind = .literal (.int 0) ∧ reports = [report]) := by
  intro reports report
  have parts := TokenKind.split_append letters ended
  have outcome := literal_of_number member shown digit
  constructor
  · intro type listed whole
    rcases Number.read_integer parts listed whole with
      ⟨value, typed, ⟨numeral, read, exact'⟩ | ⟨other, read, zero⟩⟩
    · rw [read] at outcome
      rcases outcome with ⟨found, same, kind, silent⟩ | ⟨found, same, -⟩
      · cases same
        exact ⟨value, kind, typed, ⟨fun _ => numeral, fun _ => ⟨exact', silent⟩⟩,
          fun other => absurd numeral other⟩
      · cases same
    · rw [read] at outcome
      rcases outcome with ⟨found, same, -⟩ | ⟨found, same, kind, reported⟩
      · cases same
      · cases same
        refine ⟨value, kind, typed, ⟨fun accepted => ?_, fun numeral => absurd numeral other⟩,
          fun _ => ⟨zero, reported⟩⟩
        have silent : reports = [] := accepted.2
        rw [show reports = _ from reported] at silent
        cases silent
  · intro other apart
    rw [Number.read_other parts other apart] at outcome
    rcases outcome with ⟨found, same, -⟩ | ⟨found, same, kind, reported⟩
    · cases same
    · cases same
      exact ⟨kind, reported⟩

/-- A `byte` that is one too large, behind one that is not. -/
theorem of_text_integers_byte :
    let text := "a := 0255b + 256b;"
    let token : Token := ⟨.literal (.byte 0), ⟨⟨0, 13⟩, ⟨0, 17⟩, by decide⟩⟩
    token ∈ (ofText text "m.plp").sequence.tokens.toList ∧
      token.span.slice text.toList = ['2', '5', '6'] ++ ['b'] ∧
      (ofText text "m.plp").reportsOn token.span =
        [⟨.invalidNumber "256b", token.span, "m.plp"⟩] := by
  intro text token
  have member : token ∈ (ofText text "m.plp").sequence.tokens.toList := by decide +kernel
  have shown : token.span.slice text.toList = ['2', '5', '6'] ++ ['b'] := by decide +kernel
  have letters : ∀ character ∈ ['b'], Text.isAsciiLetter character = true := by
    intro character listed
    rw [List.mem_singleton.mp listed]
    decide
  have ended : ∀ last ∈ ['2', '5', '6'].getLast?, Text.isAsciiLetter last = false := by
    rintro last ⟨⟩
    decide
  have exact' := of_text_integers member shown (by decide) letters ended
  have large : ¬ Number.IsNumeral .byte ['2', '5', '6'] := by
    intro numeral
    exact absurd numeral.held (by decide)
  rcases exact'.1 .byte (by decide) nofun with ⟨value, -, -, -, refused⟩
  exact ⟨member, shown, (refused large).2⟩

/-- What a literal is shown as is read as this literal and nothing else. -/
theorem of_literal_text {value : Literal} (plain : value.IsPlain) (fileName : String) :
    (ofText value.text fileName).sequence.tokens.toList.map Token.kind =
        [.literal value, .endOfFile] ∧
      (ofText value.text fileName).diagnostics = [] := by
  have spelled : TokenKind.AreSpelled [.literal value] := by
    intro kind member
    obtain rfl := List.mem_singleton.mp member
    exact ⟨TokenKind.spelled_literal plain.writable, by simp⟩
  have row : value.text.toList = TokenKind.row [.literal value] := by
    simp [TokenKind.row, TokenKind.text]
  rw [tokens_of_text]
  exact of_row spelled row fileName

/-- A string with both quotes, a backslash and control characters. -/
theorem of_literal_text_string :
    let value : Literal := .string "it's \\ \x22\n\t\r\x00\x22;"
    value.text = "\x22it's \\\\ \\\x22\\n\\t\\r\\0\\\x22;\x22" ∧
      (ofText value.text "m.plp").sequence.tokens.toList.map Token.kind =
        [.literal value, .endOfFile] ∧
      (ofText value.text "m.plp").diagnostics = [] := by
  intro value
  have each : ∀ character ∈ "it's \\ \x22\n\t\r\x00\x22;".toList,
      decide (Text.IsPlain character) = true :=
    List.all_eq_true.mp (by decide +kernel)
  have plain : value.IsPlain := fun character member => of_decide_eq_true (each character member)
  exact ⟨by decide +kernel, of_literal_text plain "m.plp"⟩

end Tokenized

end ModuleLang
