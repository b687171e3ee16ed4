/-!
Arguments of the command line. Options stand behind the program's name or behind
that of a command. A short option is a letter behind a dash, and letters may
share a dash; a long option is a word behind two dashes. The value of an option
is the next argument, or is attached: behind an equals sign, or directly to the
letter. Two dashes alone end the options. Options that belong to the whole
program may also stand behind the command, and then win over those in front.
-/

namespace ModuleLang

inductive CommandName
  | tokens
  | parse
  | check
deriving DecidableEq

namespace CommandName

def all : List CommandName := [tokens, parse, check]

def text : CommandName → String
  | tokens => "tokens"
  | parse => "parse"
  | check => "check"

def ofWord? (word : String) : Option CommandName := all.find? fun name => name.text == word

theorem ofWord?_text (name : CommandName) : ofWord? name.text = some name := by
  cases name <;> decide

end CommandName

inductive CommandOption
  | verbose
  | settings
  | format
  | version
  | help
  | trivia
  | externals
  | tree
deriving DecidableEq

namespace CommandOption

def all : List CommandOption :=
  [verbose, settings, format, version, help, trivia, externals, tree]

def word : CommandOption → String
  | verbose => "verbose"
  | settings => "config"
  | format => "format"
  | version => "version"
  | help => "help"
  | trivia => "trivia"
  | externals => "externals"
  | tree => "tree"

def letter? : CommandOption → Option Char
  | verbose => some 'v'
  | settings => some 'c'
  | format => some 'f'
  | version => some 'V'
  | help => some 'h'
  | externals => some 'e'
  | trivia | tree => none

def takesValue : CommandOption → Bool
  | settings | format | externals => true
  | _ => false

/-- Whether the value is a path, which is not empty. -/
def takesPath : CommandOption → Bool
  | settings | externals => true
  | _ => false

/-- Whether an option may stand behind a command, or, without one, behind the
program's name. -/
def belongsTo (command : Option CommandName) : CommandOption → Bool
  | verbose | settings | format | help => true
  | version => command.isNone
  | trivia => command == some .tokens
  | externals | tree => command == some .check

end CommandOption

/-- Why arguments ask for no command. -/
inductive Refusal
  | usage
  | version
  | help
deriving DecidableEq

/-- What an argument says about options. -/
inductive OptionUse
  | flag (option : CommandOption)
  | value (option : CommandOption) (text : String)
  /-- The value is the next argument. -/
  | awaiting (option : CommandOption)
  /-- No option, or not used as one. -/
  | wrong
deriving DecidableEq

namespace OptionUse

variable (command : Option CommandName)

/-- A word behind two dashes, with the value attached to it. -/
def ofWord (word : List Char) : OptionUse :=
  let name := String.ofList (word.takeWhile (· != '='))
  let attached := (word.dropWhile (· != '=')).drop 1
  let hasValue := word.contains '='
  match CommandOption.all.find? fun option => option.word == name && option.belongsTo command with
  | none => .wrong
  | some option =>
      if option.takesValue then
        if hasValue then .value option (String.ofList attached) else .awaiting option
      else if hasValue then .wrong
      else .flag option

/-- Letters behind a dash, up to one that takes a value or is wrong. -/
def ofLetters : List Char → List OptionUse
  | [] => []
  | letter :: rest =>
      match CommandOption.all.find? fun option =>
        option.letter? == some letter && option.belongsTo command with
      | none => [.wrong]
      | some option =>
          if option.takesValue then
            match rest with
            | [] => [.awaiting option]
            | '=' :: attached => [.value option (String.ofList attached)]
            | attached => [.value option (String.ofList attached)]
          else .flag option :: ofLetters rest

/-- The options of an argument, unless it is none. A dash alone is no option. -/
def ofArgument? (argument : String) : Option (List OptionUse) :=
  match argument.toList with
  | '-' :: '-' :: word => some [ofWord command word]
  | '-' :: letter :: rest => some (ofLetters command (letter :: rest))
  | _ => none

end OptionUse

/-- Options that were given at one place, with their values. -/
abbrev Given := List (CommandOption × String)

namespace Given

def has (option : CommandOption) (given : Given) : Bool := given.any fun entry => entry.1 == option

def value? (option : CommandOption) (given : Given) : Option String := given.lookup option

/-- Adds an option, which is not given twice at one place. -/
def add (option : CommandOption) (value : String) (given : Given) : Except Refusal Given :=
  if option.takesPath && value.isEmpty then .error .usage
  else if given.has option then .error .usage
  else .ok (given ++ [(option, value)])

/-- Takes a use into account that does not await the next argument. Asking for
help or the version ends everything. -/
def use (given : Given) : OptionUse → Except Refusal Given
  | .flag .version => .error .version
  | .flag .help => .error .help
  | .flag option => given.add option ""
  | .value option text => given.add option text
  | .awaiting _ | .wrong => .error .usage

end Given

/-- What stands behind a row of options. -/
inductive Behind
  | nothing
  | word (word : String) (rest : List String)
  /-- Two dashes alone: what follows are no options. -/
  | words (words : List String)
deriving DecidableEq

/-- Reads options up to the first argument that is none. -/
def readOptions (command : Option CommandName) :
    List String → Given → Except Refusal (Given × Behind)
  | [], given => .ok (given, .nothing)
  | argument :: rest, given =>
      if argument = "--" then .ok (given, .words rest)
      else
        match OptionUse.ofArgument? command argument with
        | none => .ok (given, .word argument rest)
        | some uses =>
            match uses.getLast? with
            | some (.awaiting option) => do
                let given ← uses.dropLast.foldlM Given.use given
                match rest with
                | [] => .error .usage
                | value :: rest =>
                    if (OptionUse.ofArgument? command value).isSome then .error .usage
                    else readOptions command rest (← given.add option value)
            | _ => do readOptions command rest (← uses.foldlM Given.use given)

/-- The one file behind a command, among its options. Its path is not empty. -/
def readInput (command : CommandName) (arguments : List String) :
    Except Refusal (Given × String) := do
  match ← readOptions (some command) arguments [] with
  | (given, .word input rest) =>
      if input.isEmpty then .error .usage
      else
        match ← readOptions (some command) rest given with
        | (given, .nothing) | (given, .words []) => return (given, input)
        | _ => .error .usage
  | (given, .words [input]) => if input.isEmpty then .error .usage else return (given, input)
  | _ => .error .usage

/-- What is asked for, apart from how it is printed. -/
inductive Command
  | tokens (input : String) (trivia : Bool)
  | parse (input : String)
  | check (input : String) (externals : Option String) (tree : Bool)
deriving DecidableEq

structure Invocation where
  settings : Option String
  format : Option String
  command : Command
deriving DecidableEq

namespace Invocation

/-- The command of a name, with the options that belong to it. -/
def commandOf (name : CommandName) (input : String) (given : Given) : Command :=
  match name with
  | .tokens => .tokens input (given.has .trivia)
  | .parse => .parse input
  | .check => .check input (given.value? .externals) (given.has .tree)

/-- What asking for help about some words gives. There is help about the program,
about its commands and about help. -/
def helpAbout : List String → Refusal
  | [] | ["help"] => .help
  | [word] => if (CommandName.ofWord? word).isSome then .help else .usage
  | _ => .usage

/-- Reads all arguments behind the program's name. -/
def ofArguments (arguments : List String) : Except Refusal Invocation := do
  match ← readOptions none arguments [] with
  | (_, .word "help" rest) => .error (helpAbout rest)
  | (outer, .word word rest) =>
      match CommandName.ofWord? word with
      | none => .error .usage
      | some name => do
          let (inner, input) ← readInput name rest
          let value? (option : CommandOption) := inner.value? option <|> outer.value? option
          return ⟨value? .settings, value? .format, commandOf name input inner⟩
  | _ => .error .usage

end Invocation

end ModuleLang
