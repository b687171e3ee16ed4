import ModuleLang.Json.Reader
import ModuleLang.Proofs.RoundTrip.Spelling
import ModuleLang.Tree.Printer

/-!
Reading printed text. A reader takes something off the front of a text. It reads what
was printed if what follows begins with a character at which it stops; what is printed
between marks is read whatever follows.
-/

namespace ModuleLang

namespace Printed

open ModuleLang.Text ModuleLang.Decimal

/-- Takes a value off the front of a text. -/
abbrev Reader (value : Type) := StateT (List Char) Option value

variable {value image slot : Type}

/-- Passes a mark, if the text goes on with it. -/
def accept (mark : List Char) : Reader Bool := fun text =>
  if mark.isPrefixOf text then some (true, text.drop mark.length) else some (false, text)

def expect (mark : List Char) : Reader Unit := fun text =>
  if mark.isPrefixOf text then some (⟨⟩, text.drop mark.length) else none

/-- The next character, which is left in the text. -/
def peek : Reader Char := fun text => text.head?.map fun first => (first, text)

/-- The characters up to the first that is no part. -/
def span (isPart : Char → Bool) : Reader (List Char) := fun text =>
  some (text.takeWhile isPart, text.dropWhile isPart)

def word : Reader String := return String.ofList (← span Lexeme.isWordPart)

/-- Items with a mark in front of each. -/
def followingWithin (mark : List Char) (item : Reader value) : (budget : Nat) → Reader (List value)
  | 0 => failure
  | budget + 1 => do
      if ← accept mark then
        let first ← item
        return first :: (← followingWithin mark item budget)
      else return []

def following (mark : List Char) (item : Reader value) : Reader (List value) := fun text =>
  followingWithin mark item (text.length + 1) text

/-- Items with a mark between two of them, up to the end of the list. -/
def separated (mark stop : List Char) (item : Reader value) : Reader (List value) := do
  if ← accept stop then return []
  else
    let first ← item
    let rest ← following mark item
    expect stop
    return first :: rest

theorem intercalate_cons (mark first : List Char) (rest : List (List Char)) :
    mark.intercalate (first :: rest) = first ++ rest.flatMap fun text => mark ++ text := by
  induction rest generalizing first with
  | nil => simp
  | cons second rest ih =>
      rw [List.intercalate_cons_cons, ih, List.flatMap_cons, List.append_assoc, List.append_assoc]

/-- A reader takes a text as a value if what follows begins with a character at which it
stops, or if nothing follows. -/
def Reads (stops : Char → Bool) (reader : Reader value) (text : List Char) (result : value) : Prop :=
  ∀ rest : List Char, rest.head?.all stops = true → reader (text ++ rest) = some (result, rest)

/-- Wherever something ends by itself. -/
abbrev anywhere : Char → Bool := fun _ => true

/-- In front of a character. -/
abbrev before (stop : Char) : Char → Bool := fun character => character == stop

/-- Where no part of a word follows. -/
abbrev endsWord : Char → Bool := fun character => !Lexeme.isWordPart character

theorem of_before {stop : Char} {holds : Char → Prop} (met : holds stop) :
    ∀ character, before stop character = true → holds character := by
  intro character same
  rw [beq_iff_eq.mp same]
  exact met

theorem all_anywhere (rest : List Char) : rest.head?.all anywhere = true := by
  cases rest <;> rfl

namespace Reads

variable {stops stops' : Char → Bool} {reader : Reader value} {next : value → Reader image}
  {text more : List Char} {result : value} {final : image}

theorem weaken (reads : Reads stops reader text result)
    (less : ∀ character, stops' character = true → stops character = true) :
    Reads stops' reader text result := by
  intro rest follows
  apply reads
  cases rest with
  | nil => rfl
  | cons first rest => exact less first follows

/-- What ends by itself is read whatever follows. -/
theorem closed (reads : Reads anywhere reader text result) : Reads stops reader text result :=
  reads.weaken fun _ _ => rfl

theorem done : Reads stops (pure result) [] result := fun _ _ => rfl

/-- One reader behind another. -/
theorem bind (first : Reads stops reader text result) (later : Reads stops' (next result) more final)
    (goes : ∀ rest : List Char, rest.head?.all stops' = true →
      (more ++ rest).head?.all stops = true) :
    Reads stops' (reader >>= next) (text ++ more) final := by
  intro rest follows
  have read := first (more ++ rest) (goes rest follows)
  rw [List.append_assoc]
  change (reader (text ++ (more ++ rest)) >>= fun found => next found.1 found.2) = _
  rw [read]
  exact later rest follows

/-- A reader that may stop behind another one at once. -/
theorem alone (first : Reads stops reader text result) (later : Reads stops' (next result) [] final)
    (less : ∀ character, stops' character = true → stops character = true) :
    Reads stops' (reader >>= next) text final := by
  have all := first.bind later fun rest follows => by
    cases rest with
    | nil => rfl
    | cons start rest => exact less start follows
  rwa [List.append_nil] at all

/-- What is read last settles the value. -/
theorem last (first : Reads stops reader text result) (settles : next result = pure final) :
    Reads stops (reader >>= next) text final := by
  refine first.alone ?_ fun _ => id
  rw [settles]
  exact .done

theorem map (first : Reads stops reader text result) (change : value → image) :
    Reads stops (reader >>= fun found => pure (change found)) text (change result) :=
  first.last rfl

theorem expect {mark : List Char} {next : Unit → Reader image}
    (later : Reads stops (next ⟨⟩) more final) :
    Reads stops (Printed.expect mark >>= next) (mark ++ more) final := by
  have first : Reads anywhere (Printed.expect mark) mark ⟨⟩ := by
    intro rest _
    simp [Printed.expect]
  exact first.bind later fun rest _ => all_anywhere _

/-- A mark that stands last. -/
theorem expected {mark : List Char} :
    Reads stops (Printed.expect mark >>= fun _ => pure final) mark final := by
  have all : Reads stops (Printed.expect mark >>= fun _ => pure final) (mark ++ []) final :=
    .expect .done
  rwa [List.append_nil] at all

theorem accept {mark : List Char} {next : Bool → Reader image}
    (later : Reads stops (next true) more final) :
    Reads stops (Printed.accept mark >>= next) (mark ++ more) final := by
  have first : Reads anywhere (Printed.accept mark) mark true := by
    intro rest _
    simp [Printed.accept]
  exact first.bind later fun rest _ => all_anywhere _

/-- A mark that the text does not begin with is not passed. -/
theorem refuse {mark : List Char} {start : Char} {next : Bool → Reader image}
    (marked : mark.head? = some start)
    (other : ∀ rest : List Char, rest.head?.all stops = true → (text ++ rest).head? ≠ some start)
    (later : Reads stops (next false) text final) :
    Reads stops (Printed.accept mark >>= next) text final := by
  intro rest follows
  have absent : mark.isPrefixOf (text ++ rest) = false := by
    rw [Bool.eq_false_iff]
    intro found
    rcases List.isPrefixOf_iff_prefix.mp found with ⟨behind, same⟩
    apply other rest follows
    rw [← same, List.head?_append, marked]
    rfl
  have first : Printed.accept mark (text ++ rest) = some (false, text ++ rest) := by
    rw [Printed.accept, absent]
    rfl
  change (Printed.accept mark (text ++ rest) >>= fun found => next found.1 found.2) = _
  rw [first]
  exact later rest follows

theorem peek {start : Char} {next : Char → Reader image} (starts : text.head? = some start)
    (later : Reads stops (next start) text final) :
    Reads stops (Printed.peek >>= next) text final := by
  intro rest follows
  have first : Printed.peek (text ++ rest) = some (start, text ++ rest) := by
    rw [Printed.peek, List.head?_append, starts]
    rfl
  change (Printed.peek (text ++ rest) >>= fun found => next found.1 found.2) = _
  rw [first]
  exact later rest follows

theorem span {isPart : Char → Bool} (parts : ∀ character ∈ text, isPart character = true) :
    Reads (fun character => !isPart character) (Printed.span isPart) text text := by
  intro rest follows
  rw [Printed.span, List.takeWhile_append_of_pos parts, List.dropWhile_append_of_pos parts]
  cases rest with
  | nil => simp
  | cons next rest =>
      have other : ¬ isPart next = true := by simpa using follows
      rw [List.takeWhile_cons_of_neg other, List.dropWhile_cons_of_neg other, List.append_nil]

theorem word {name : String} (parts : name.toList.all Lexeme.isWordPart = true) :
    Reads endsWord Printed.word name.toList name := by
  have read := (Reads.span (List.all_eq_true.mp parts)).map String.ofList
  rwa [String.ofList_toList] at read

section Lists

variable {mark : List Char} {start : Char} {item : Reader value} {texts : slot → List Char}
  {results : slot → value} {items : List slot} {closes : Char → Bool}

/-- A list goes on with a mark, or with what follows it. -/
theorem goes_on (marked : mark.head? = some start) (stop : stops start = true)
    (closing : ∀ character, closes character = true → stops character = true) {rest : List Char}
    (follows : rest.head?.all closes = true) :
    ((items.flatMap fun child => mark ++ texts child) ++ rest).head?.all stops = true := by
  cases items with
  | nil =>
      cases rest with
      | nil => rfl
      | cons next rest => exact closing next follows
  | cons first items =>
      rw [List.flatMap_cons, List.append_assoc, List.append_assoc, List.head?_append, marked]
      exact stop

/-- A list ends where no further mark stands. -/
theorem following_within (marked : mark.head? = some start) (stop : stops start = true)
    (closing : ∀ character, closes character = true →
      stops character = true ∧ character ≠ start)
    (each : ∀ child ∈ items, Reads stops item (texts child) (results child)) {budget : Nat}
    (enough : items.length < budget) :
    Reads closes (followingWithin mark item budget) (items.flatMap fun child => mark ++ texts child)
      (items.map results) := by
  induction items generalizing budget with
  | nil =>
      obtain ⟨budget, rfl⟩ : ∃ less, budget = less + 1 := ⟨budget - 1, by omega⟩
      refine .refuse marked (fun rest follows same => ?_) .done
      rw [List.flatMap_nil, List.nil_append] at same
      rw [same] at follows
      exact (closing start follows).2 rfl
  | cons first items ih =>
      obtain ⟨budget, rfl⟩ : ∃ less, budget = less + 1 := ⟨budget - 1, by omega⟩
      have rest := ih (fun child member => each child (List.mem_cons_of_mem _ member))
        (Nat.lt_of_succ_lt_succ enough)
      rw [List.flatMap_cons, List.append_assoc]
      refine .accept ?_
      exact (each first List.mem_cons_self).bind (rest.map _) fun behind follows =>
        goes_on marked stop (fun next closed => (closing next closed).1) follows

theorem following (marked : mark.head? = some start) (stop : stops start = true)
    (closing : ∀ character, closes character = true →
      stops character = true ∧ character ≠ start)
    (each : ∀ child ∈ items, Reads stops item (texts child) (results child)) :
    Reads closes (Printed.following mark item) (items.flatMap fun child => mark ++ texts child)
      (items.map results) := by
  intro rest follows
  have long : ∀ items : List slot,
      items.length ≤ (items.flatMap fun child => mark ++ texts child).length := by
    intro items
    induction items with
    | nil => exact Nat.zero_le _
    | cons first items ih =>
        have least : 0 < mark.length := List.length_pos_of_mem (List.mem_of_mem_head? marked)
        rw [List.flatMap_cons, List.length_cons, List.length_append, List.length_append]
        omega
  apply following_within marked stop closing each _ rest follows
  have enough := long items
  rw [List.length_append]
  omega

/-- A list that may be empty, up to the mark behind it. -/
theorem separated {finish : List Char} {stop : Char} (marked : mark.head? = some start)
    (finished : finish.head? = some stop) (apart : stop ≠ start) (goes : stops start = true)
    (ends : stops stop = true)
    (each : ∀ child ∈ items, Reads stops item (texts child) (results child))
    (begins : ∀ child ∈ items, (texts child).head?.any (· != stop) = true) :
    Reads anywhere (Printed.separated mark finish item)
      (mark.intercalate (items.map texts) ++ finish) (items.map results) := by
  cases items with
  | nil =>
      have empty : Reads anywhere (Printed.separated mark finish item) (finish ++ []) [] :=
        .accept .done
      rwa [List.append_nil] at empty
  | cons first items =>
      have joined : mark.intercalate ((first :: items).map texts) =
          texts first ++ items.flatMap fun child => mark ++ texts child := by
        rw [List.map_cons, intercalate_cons, List.flatMap_map]
      have starts := begins first List.mem_cons_self
      refine .refuse finished (fun rest _ same => ?_) ?_
      · rw [joined] at same
        cases text : texts first with
        | nil =>
            rw [text] at starts
            cases starts
        | cons own body =>
            rw [text] at starts same
            simp only [List.head?_cons, Option.any_some, bne_iff_ne] at starts
            exact starts (Option.some.inj same)
      · have closing : ∀ character, before stop character = true →
            stops character = true ∧ character ≠ start := of_before ⟨ends, apart⟩
        have rest := Reads.following marked goes closing fun child member =>
          each child (List.mem_cons_of_mem first member)
        have last : Reads anywhere (Printed.expect finish >>= fun _ =>
            pure (results first :: items.map results)) finish ((first :: items).map results) :=
          .expected
        rw [joined, List.append_assoc]
        refine (each first List.mem_cons_self).bind (rest.bind last fun behind _ => ?_)
          fun behind _ => ?_
        · rw [List.head?_append, finished]
          exact beq_self_eq_true _
        · rw [List.append_assoc]
          apply goes_on marked goes fun next closed => (closing next closed).1
          rw [List.head?_append, finished]
          exact beq_self_eq_true _

end Lists

end Reads

/-!
Literals. A quoted text is read character by character; the state of the reading tells
whether a backslash or a code point has begun.
-/

inductive Quoting
  | plain
  | escaped
  | code (value : Nat)

/-- The characters up to the closing quote. -/
def quoted (quote : Char) : Quoting → Reader (List Char)
  | _, [] => none
  | .plain, '\\' :: rest => quoted quote .escaped rest
  | .plain, character :: rest =>
      if character = quote then some ([], rest)
      else (quoted quote .plain rest).map (Prod.map (List.cons character) id)
  | .escaped, 'u' :: '\x7b' :: rest => quoted quote (.code 0) rest
  | .escaped, letter :: rest =>
      (unescape? letter).bind fun character =>
        (quoted quote .plain rest).map (Prod.map (List.cons character) id)
  | .code value, '\x7d' :: rest =>
      (quoted quote .plain rest).map (Prod.map (List.cons (Char.ofNat value)) id)
  | .code value, digit :: rest =>
      (Json.hexDigit? digit).bind fun next => quoted quote (.code (16 * value + next)) rest

section Quoted

variable {quote : Char}

theorem hex_digit {digit : Nat} (small : digit < 16) :
    Json.hexDigit? digit.digitChar = some digit := by
  have each : ∀ digit < 16, Json.hexDigit? (Nat.digitChar digit) = some digit := by decide +kernel
  exact each digit small

theorem quoted_digit (value : Nat) {digit : Nat} (small : digit < 16) (rest : List Char) :
    quoted quote (.code value) (digit.digitChar :: rest) =
      quoted quote (.code (16 * value + digit)) rest := by
  have inside : digit.digitChar ≠ '\x7d' := Nat.digitChar_ne _ (by decide)
  rw [quoted, hex_digit small]
  · rfl
  · exact fun same => absurd same inside

/-- The digits of a code point are read as this code point. -/
theorem quoted_digits (code : Nat) (rest : List Char) :
    quoted quote (.code 0) (Nat.toDigits 16 code ++ rest) = quoted quote (.code code) rest := by
  induction code using Nat.strongRecOn generalizing rest with
  | ind code shorter =>
      by_cases small : code < 16
      · rw [Nat.toDigits_of_lt_base small, List.singleton_append, quoted_digit 0 small,
          Nat.mul_zero, Nat.zero_add]
      · have less : code / 16 < code := by omega
        rw [Nat.toDigits_of_base_le (by decide) (Nat.le_of_not_lt small), List.append_assoc,
          shorter _ less, List.singleton_append, quoted_digit _ (Nat.mod_lt _ (by decide)),
          Nat.div_add_mod]

theorem quoted_plain {character : Char} (plain : character ≠ '\\') (other : character ≠ quote)
    (rest : List Char) : quoted quote .plain (character :: rest) =
      (quoted quote .plain rest).map (Prod.map (List.cons character) id) := by
  rw [quoted, if_neg other]
  exact fun same => absurd same plain

variable (isQuote : quote = stringQuote ∨ quote = charQuote)

include isQuote

/-- Every character between quotes is read back, in whatever form it stands there. -/
theorem quoted_encoded_char (character : Char) (rest : List Char) :
    quoted quote .plain (encodeChar quote character ++ rest) =
      (quoted quote .plain rest).map (Prod.map (List.cons character) id) := by
  unfold encodeChar
  split
  · rename_i other
    simp only [Bool.and_eq_true, Bool.or_eq_true, bne_iff_ne, beq_iff_eq] at other
    rcases other with ⟨other, rfl | rfl⟩
    · exact quoted_plain (by decide) other rest
    · exact quoted_plain (by decide) other rest
  · cases found : escapeLetter? character with
    | some letter =>
        have stands := unescape?_of_escapeLetter? found
        have known : letter ≠ 'u' := by
          rintro rfl
          cases stands
        change quoted quote .plain ('\\' :: letter :: rest) = _
        rw [quoted, quoted, stands]
        · rfl
        · exact fun _ same _ => absurd same known
    | none =>
        have apart : ∀ {other}, (escapeLetter? other).isSome → character ≠ other := by
          rintro other known rfl
          rw [found] at known
          cases known
        have other : character ≠ quote := by
          rcases isQuote with rfl | rfl
          · exact apart (by decide)
          · exact apart (by decide)
        simp only
        split
        · rw [codePointForm, List.append_assoc, List.append_assoc]
          change quoted quote .plain ('\\' :: 'u' :: '\x7b' :: (_ ++ '\x7d' :: rest)) = _
          rw [quoted, quoted, quoted_digits, quoted, Char.ofNat_toNat]
        · exact quoted_plain (apart (by decide)) other rest

/-- What stands between quotes is read back. -/
theorem reads_quoted (text : List Char) :
    Reads anywhere (quoted quote .plain) (text.flatMap (encodeChar quote) ++ [quote]) text := by
  intro rest _
  have plain : quote ≠ '\\' := by
    rcases isQuote with rfl | rfl
    · decide
    · decide
  induction text with
  | nil =>
      change quoted quote .plain (quote :: rest) = _
      rw [quoted, if_pos rfl]
      exact fun same => absurd same plain
  | cons first text ih =>
      rw [List.flatMap_cons, List.append_assoc, List.append_assoc, quoted_encoded_char isQuote,
        ← List.append_assoc, ih]
      rfl

end Quoted

/-- A number in decimal digits, behind its sign. -/
def signed : Reader Int := do
  if ← accept ['-'] then return -(digitsValue (← span isAsciiDigit) : Int)
  else return (digitsValue (← span isAsciiDigit) : Int)

/-- The integer literal that is shown as a number with a suffix. -/
def suffixed? (value : Int) : (suffix : String) → Option Literal
  | "i" => some (.int (.ofInt value))
  | "u" => some (.uint (.ofNat value.toNat))
  | "l" => some (.long (.ofInt value))
  | "ul" => some (.ulong (.ofNat value.toNat))
  | "b" => some (.byte (.ofNat value.toNat))
  | _ => none

def number : Reader Literal := do
  let value ← signed
  match suffixed? value (← word) with
  | some literal => return literal
  | none => failure

theorem reads_digits (n : Nat) (change : Int → Int) :
    Reads (fun character => !isAsciiDigit character)
      (do return change (digitsValue (← span isAsciiDigit))) (Nat.toDigits 10 n) (change n) := by
  have digits := Reads.span fun character => @TokenKind.digit_of_mem n character
  have read := digits.map fun digits => change (digitsValue digits)
  rwa [TokenKind.digits_value] at read

theorem reads_signed (value : Int) :
    Reads (fun character => !isAsciiDigit character) signed (toString value).toList value := by
  cases value with
  | ofNat n =>
      have text : (toString (Int.ofNat n)).toList = Nat.toDigits 10 n := Nat.toList_repr
      rw [text]
      refine .refuse rfl (fun rest _ same => ?_) (reads_digits n id)
      cases digits : Nat.toDigits 10 n with
      | nil => exact Nat.toDigits_ne_nil digits
      | cons first body =>
          rw [digits] at same
          obtain rfl : first = '-' := Option.some.inj same
          have digit : isAsciiDigit '-' = true := TokenKind.digit_of_mem (by rw [digits]; simp)
          cases digit
  | negSucc n =>
      have text : (toString (Int.negSucc n)).toList = ['-'] ++ Nat.toDigits 10 (n + 1) := by
        change ("-" ++ toString (n + 1)).toList = _
        rw [String.toList_append]
        congr 1
        exact Nat.toList_repr
      rw [text]
      exact .accept (reads_digits (n + 1) fun value => -value)

theorem number_begins (value : Int) : ∃ first body, (toString value).toList = first :: body ∧
    (first = '-' ∨ isAsciiDigit first = true) := by
  cases value with
  | ofNat n =>
      have text : (toString (Int.ofNat n)).toList = Nat.toDigits 10 n := Nat.toList_repr
      cases digits : Nat.toDigits 10 n with
      | nil => exact absurd digits Nat.toDigits_ne_nil
      | cons first body =>
          have digit : first ∈ Nat.toDigits 10 n := by
            rw [digits]
            exact List.mem_cons_self
          exact ⟨first, body, text.trans digits, .inr (TokenKind.digit_of_mem digit)⟩
  | negSucc n => exact ⟨'-', (toString (n + 1)).toList, by
      change ("-" ++ toString (n + 1)).toList = _
      rw [String.toList_append]
      rfl, .inl rfl⟩

/-- A number is read up to the end of its suffix. -/
theorem reads_number {value : Int} {suffix : String} {literal : Literal}
    (letters : suffix.toList.all isAsciiLetter = true) (some' : suffix.toList.head?.isSome = true)
    (means : suffixed? value suffix = some literal) :
    Reads endsWord number
      (toString value ++ suffix).toList literal := by
  have parts : suffix.toList.all Lexeme.isWordPart = true := by
    refine List.all_eq_true.mpr fun character member => ?_
    have letter := alphanumeric_of_letter (List.all_eq_true.mp letters character member)
    rw [Lexeme.isWordPart, letter, Bool.true_or]
  rw [String.toList_append]
  refine (reads_signed value).bind ((Reads.word parts).last (by rw [means])) fun rest _ => ?_
  cases text : suffix.toList with
  | nil =>
      rw [text] at some'
      cases some'
  | cons first body =>
      rw [text] at letters
      have letter : isAsciiLetter first = true := List.all_eq_true.mp letters first List.mem_cons_self
      have other : isAsciiDigit first = false := by
        cases digit : isAsciiDigit first with
        | false => rfl
        | true =>
            rw [not_letter_of_digit digit] at letter
            cases letter
      simp [other]

/-!
Names and types. A type ends where neither a part of a word nor a bracket follows.
-/

/-- The ranks of array suffixes; a number of dimensions that is not closed yet goes on. -/
def ranksFrom : (dimensions : Option Nat) → List Char → List Nat × List Char
  | none, '[' :: rest => ranksFrom (some 1) rest
  | some rank, ',' :: rest => ranksFrom (some (rank + 1)) rest
  | some rank, ']' :: rest => (ranksFrom none rest).map (List.cons rank) id
  | _, rest => ([], rest)

def ranks : Reader (List Nat) := fun text => some (ranksFrom none text)

def typeRef : Reader SyntaxTree := do
  let name ← word
  return .node (.typeRef name (← ranks))

/-- A name behind a type that may be missing. -/
def typedName : Reader (Option SyntaxTree × String) := do
  let type ← typeRef
  if ← accept [' '] then return (some type, ← word)
  else
    match type with
    | .node (.typeRef name _) => return (none, name)
    | _ => failure

def path : Reader ModulePath := do
  let first ← word
  return ⟨first :: (← following ['.'] word)⟩

/-- What may stand behind a node. -/
def isEnd (character : Char) : Bool := [',', ';', ' ', ')', ']'].contains character

def endsType (character : Char) : Bool := !Lexeme.isWordPart character && character != '['

/-- What may stand behind a name with a type. -/
def endsName (character : Char) : Bool := character == '(' || character == ')'

theorem end_not_part {character : Char} (ends : isEnd character = true) :
    endsWord character = true := by
  simp only [isEnd, List.contains_eq_mem, List.mem_cons, List.not_mem_nil, or_false,
    decide_eq_true_eq] at ends
  rcases ends with rfl | rfl | rfl | rfl | rfl <;> decide

theorem name_not_part {character : Char} (ends : endsName character = true) :
    endsWord character = true := by
  simp only [endsName, Bool.or_eq_true, beq_iff_eq] at ends
  rcases ends with rfl | rfl <;> decide

theorem type_of_name {character : Char} (ends : endsName character = true) :
    endsType character = true := by
  simp only [endsName, Bool.or_eq_true, beq_iff_eq] at ends
  rcases ends with rfl | rfl <;> decide

section Names

variable {name : String} {texts : slot → String} {trees : slot → SyntaxTree}

theorem reads_name (named : isName name = true) :
    Reads endsWord word name.toList name :=
  .word (name_parts named)

theorem ranks_from_commas (rank count : Nat) (rest : List Char) :
    ranksFrom (some rank) (List.replicate count ',' ++ ']' :: rest) =
      (ranksFrom none rest).map (List.cons (rank + count)) id := by
  induction count generalizing rank with
  | zero => rfl
  | succ count ih =>
      rw [List.replicate_succ, List.cons_append, ranksFrom, ih, Nat.succ_add_eq_add_succ]

theorem reads_ranks {ranks : List Nat} (positive : ∀ rank ∈ ranks, 1 ≤ rank) :
    Reads (fun character => character != '[') Printed.ranks
      (String.join (ranks.map Ty.rankSuffix)).toList ranks := by
  intro rest follows
  have taken : ranksFrom none ((String.join (ranks.map Ty.rankSuffix)).toList ++ rest) =
      (ranks, rest) := by
    induction ranks with
    | nil =>
        change ranksFrom none rest = _
        cases rest with
        | nil => rfl
        | cons next rest =>
            have other : next ≠ '[' := bne_iff_ne.mp follows
            rw [ranksFrom]
            · exact fun _ _ same => other (List.cons.inj same).1
            · nofun
            · nofun
    | cons rank ranks ih =>
        have least := positive rank List.mem_cons_self
        have same : 1 + (rank - 1) = rank := by omega
        have text : (String.join ((rank :: ranks).map Ty.rankSuffix)).toList ++ rest =
            '[' :: (List.replicate (rank - 1) ',' ++
              ']' :: ((String.join (ranks.map Ty.rankSuffix)).toList ++ rest)) := by
          simp [Ty.rankSuffix, String.join_cons]
        rw [text, ranksFrom, ranks_from_commas,
          ih fun other member => positive other (List.mem_cons_of_mem _ member), same]
        rfl
  change some _ = _
  rw [taken]

theorem reads_type {ranks : List Nat} (named : isName name = true)
    (positive : ∀ rank ∈ ranks, 1 ≤ rank) :
    Reads endsType typeRef (Printer.plainText (.typeRef name ranks)).toList
      (.node (.typeRef name ranks)) := by
  have suffixes := (reads_ranks positive).map fun ranks => SyntaxTree.node (.typeRef name ranks)
  have typed : Reads endsType (do return SyntaxTree.node (.typeRef name (← Printed.ranks)))
      (String.join (ranks.map Ty.rankSuffix)).toList (.node (.typeRef name ranks)) :=
    suffixes.weaken fun character ends => (Bool.and_eq_true_iff.mp ends).2
  rw [Printer.plainText, String.toList_append]
  refine (reads_name named).bind typed fun rest follows => ?_
  cases ranks with
  | nil =>
      cases rest with
      | nil => rfl
      | cons next rest => exact (Bool.and_eq_true_iff.mp follows).1
  | cons rank ranks =>
      rw [List.map_cons, String.join_cons, Ty.rankSuffix, String.toList_append,
        String.toList_append, String.toList_append]
      rfl

theorem reads_typed_name {type : Option slot}
    (typed : ∀ child ∈ type, Reads endsType typeRef (texts child).toList (trees child))
    (named : isName name = true) :
    Reads endsName typedName ((Printer.ahead (type.map texts)).toList ++ name.toList)
      (type.map trees, name) := by
  cases type with
  | none =>
      have alone := @reads_type name [] named (List.forall_mem_nil _)
      have text : (Printer.plainText (.typeRef name [])).toList = name.toList := by
        simp [Printer.plainText]
      rw [text] at alone
      have last : Reads endsName (accept [' '] >>= fun spaced => if spaced = true then do
          return (some (SyntaxTree.node (.typeRef name [])), ← word) else pure (none, name)) []
          (none, name) := by
        refine .refuse rfl (fun rest follows same => ?_) .done
        rw [List.nil_append] at same
        rw [same] at follows
        cases follows
      exact alone.alone last fun _ => type_of_name
  | some type =>
      have text : (Printer.ahead ((some type).map texts)).toList ++ name.toList =
          (texts type).toList ++ ([' '] ++ name.toList) := by
        simp [Printer.ahead]
      have last := (reads_name named).map fun name => (some (trees type), name)
      rw [text]
      exact (typed type rfl).bind (.accept (last.weaken fun _ => name_not_part)) fun _ _ => rfl

theorem reads_path {path : ModulePath} (writable : path.isWritable = true) :
    Reads (before ')') Printed.path path.text.toList path := by
  obtain ⟨segments⟩ := path
  cases segments with
  | nil => cases writable
  | cons first rest =>
      simp only [ModulePath.isWritable, List.all_cons, Bool.and_eq_true] at writable
      have each : ∀ name ∈ rest, Reads endsWord word
          name.toList (id name) :=
        fun name member => reads_name (List.all_eq_true.mp writable.2.2 name member)
      have closing : ∀ character, before ')' character = true →
          endsWord character = true ∧ character ≠ '.' := of_before (by decide)
      have names : Reads (before ')') (following ['.'] word)
          (rest.flatMap fun name => ['.'] ++ name.toList) (rest.map id) :=
        .following rfl (by decide) closing each
      have text : (ModulePath.text ⟨first :: rest⟩).toList =
          first.toList ++ rest.flatMap fun name => ['.'] ++ name.toList := by
        rw [ModulePath.text, String.toList_intercalate, List.map_cons, intercalate_cons,
          List.flatMap_map]
        rfl
      rw [List.map_id] at names
      rw [text]
      exact (reads_name writable.2.1).bind (names.map fun rest => ModulePath.mk (first :: rest))
        fun behind follows => Reads.goes_on rfl (by decide) (fun next closed =>
          (closing next closed).1) follows

end Names

end Printed

end ModuleLang
