import ModuleLang.CommandLine.Arguments
import ModuleLang.CommandLine.Files
import ModuleLang.CommandLine.Output
import ModuleLang.Host.Document

/-!
Running a command. The program sees files through a reading action only, so a
run is the same on real files and on a set of files in memory. Settings are read
before anything else: a missing file means the defaults, and one that cannot be
read as settings fails the run like a diagnostic does. Every other failure is
kept apart from that and prints nothing.
-/

namespace ModuleLang

inductive ExitCode
  | clean
  /-- Diagnostics fail the run, or the settings cannot be read. -/
  | failed
  /-- The run could not be carried out. -/
  | refused
deriving DecidableEq

def ExitCode.number : ExitCode → Nat
  | clean => 0
  | failed => 1
  | refused => 2

/-- How a run ends. -/
structure Finish where
  code : ExitCode
  output : String
deriving DecidableEq

namespace Finish

def refused : Finish := ⟨.refused, ""⟩

/-- The end of a command that was carried out. -/
def ofReport (warningsAsErrors : Bool) (report : CommandReport) : Finish :=
  ⟨if Diagnostic.fail warningsAsErrors report.diagnostics then .failed else .clean, report.output⟩

/-- The end of a command that internal errors may stop. -/
def ofChecked (warningsAsErrors : Bool) : Except InternalError CommandReport → Finish
  | .ok report => ofReport warningsAsErrors report
  | .error _ => refused

end Finish

namespace CommandLine

def programName : String := "plamp"

def version : String := "0.1.0"

/-- Settings file in the directory for the settings of all programs. -/
def settingsPath (directory : String) : String := directory ++ "/" ++ programName ++ "/config.toml"

/-- The end of a run whose arguments ask for no command. -/
def ofRefusal : Refusal → Finish
  | .usage => .refused
  | .version => ⟨.clean, programName ++ " " ++ version ++ "\n"⟩
  | .help => ⟨.clean, "Usage: " ++ programName ++ " [OPTIONS] <COMMAND>\n"⟩

section Run

variable {effect : Type → Type} [Monad effect] (read : String → effect FileContent)

/-- Settings from a file; none if it cannot be read as settings. -/
def loadSettings (path : String) : effect (Option Settings) := do
  match ← read path with
  | .missing => return some .default
  | .unreadable => return none
  | .text content => return Settings.ofText? content

/-- The host that a file describes, or an empty one without a file. -/
def loadHost (path : Option String) : effect (Option Host) := do
  match path with
  | none => return some .empty
  | some path =>
      match ← read path with
      | .text content =>
          match (HostDescriptions.ofText? content).map HostDescriptions.resolve with
          | some (.ok host) => return some host
          | _ => return none
      | _ => return none

/-- Goes on with the text of a file, if it is one. -/
def withText (path : String) (next : String → Finish) : effect Finish := do
  match ← read path with
  | .text content => return next content
  | _ => return .refused

def runCommand (settings : Settings) (format : OutputFormat) : Command → effect Finish
  | .tokens input trivia =>
      withText read input fun text =>
        .ofReport false (CommandReport.tokens settings.output.color input text trivia format)
  | .parse input =>
      withText read input fun text =>
        .ofChecked false (CommandReport.parse settings.output.color input text format)
  | .check input externals tree => do
      match ← loadHost read (externals <|> settings.check.externals) with
      | none => return .refused
      | some host =>
          withText read input fun text =>
            .ofChecked settings.check.warningsAsErrors
              (CommandReport.check settings.output.color input text host tree format)

/-- Runs the program with its arguments. The settings stand at `defaultPath`
unless an option says otherwise. -/
def run (defaultPath : String) (arguments : List String) : effect Finish := do
  match Invocation.ofArguments arguments with
  | .error refusal => return ofRefusal refusal
  | .ok invocation =>
      match ← loadSettings read (invocation.settings.getD defaultPath) with
      | none => return ⟨.failed, ""⟩
      | some settings =>
          match OutputFormat.ofName? (settings.formatName invocation.format) with
          | none => return .refused
          | some format => runCommand read settings format invocation.command

/-- Arguments that ask for no command read no file. -/
theorem run_of_refused {arguments : List String} {refusal : Refusal} (defaultPath : String)
    (refused : Invocation.ofArguments arguments = .error refusal) :
    run read defaultPath arguments = pure (ofRefusal refusal) := by
  simp [run, refused]

end Run

end CommandLine

end ModuleLang
