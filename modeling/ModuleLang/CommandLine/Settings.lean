import ModuleLang.Toml
import ModuleLang.Toml.Reader
import ModuleLang.Toml.Writer

/-!
Settings of the command line: how results are printed and how modules are
checked. Settings that a document leaves out keep their defaults, and names that
are no settings are passed over.
-/

namespace ModuleLang

structure OutputSettings where
  /-- Name of the output format. It is looked at when results are printed. -/
  format : String
  color : Bool
deriving DecidableEq

structure CheckSettings where
  /-- File with the descriptions of the host. -/
  externals : Option String
  warningsAsErrors : Bool
deriving DecidableEq

structure Settings where
  output : OutputSettings
  check : CheckSettings
deriving DecidableEq

inductive OutputFormat
  | text
  | json
deriving DecidableEq

namespace OutputFormat

/-- The format with a name, of which the case does not count. -/
def ofName? (name : String) : Option OutputFormat :=
  match name.toLower with
  | "text" | "human" => some text
  | "json" => some json
  | _ => none

def name : OutputFormat → String
  | text => "Text"
  | json => "Json"

/-- What is said about a name without a format. -/
def unknownMessage (name : String) : String := "Unknown output format: " ++ name

end OutputFormat

namespace OutputSettings

def default : OutputSettings := ⟨"text", true⟩

def ofToml? (value : Toml) : Option OutputSettings :=
  if value.hasParts then do
    return ⟨← value.defaulted? Toml.asString? default.format 0 "format",
      ← value.defaulted? Toml.asBool? default.color 1 "color"⟩
  else none

end OutputSettings

namespace CheckSettings

def default : CheckSettings := ⟨none, false⟩

def ofToml? (value : Toml) : Option CheckSettings :=
  if value.hasParts then do
    let externals ← value.defaulted? (fun part => part.asString?.map some) default.externals 0
      "externals"
    return ⟨externals, ← value.defaulted? Toml.asBool? default.warningsAsErrors 1 "warnings_as_errors"⟩
  else none

end CheckSettings

namespace Settings

def default : Settings := ⟨.default, .default⟩

def ofToml? (value : Toml) : Option Settings :=
  return ⟨← value.defaulted? OutputSettings.ofToml? .default 0 "output",
    ← value.defaulted? CheckSettings.ofToml? .default 1 "check"⟩

def ofText? (text : String) : Option Settings := (Toml.ofText? text).bind ofToml?

/-- The document that settings are saved as. -/
def text (settings : Settings) : String :=
  let externals := settings.check.externals.map fun path => Toml.line "externals" (Toml.quoted path)
  Toml.tableText "output"
      [Toml.line "format" (Toml.quoted settings.output.format),
        Toml.line "color" (Toml.boolText settings.output.color)] ++
    "\n" ++
    Toml.tableText "check"
      (externals.toList ++
        [Toml.line "warnings_as_errors" (Toml.boolText settings.check.warningsAsErrors)])

/-- The name of the format to print in: the one that was asked for, else that of
the settings. -/
def formatName (settings : Settings) (asked : Option String) : String :=
  asked.getD settings.output.format

end Settings

end ModuleLang
