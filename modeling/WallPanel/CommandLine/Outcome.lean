import WallPanel.CommandLine.Failure
import WallPanel.Drawing.Exchange
import WallPanel.Editing.Editor
import WallPanel.Text.Terminal

/-!
# Outcomes

What a command comes to: its exit code, the lines it shows, and the file it writes.

* `LogLine`: a line of the log, which goes to the error output.
* `Outcome`: what a command comes to.
-/

namespace WallPanel

/-! ## The log -/

/-- How much a line of the log matters. -/
inductive LogLevel where
  | debug
  | info
  | warning
deriving DecidableEq, Repr

def LogLevel.name : LogLevel → String
  | debug => "DEBUG"
  | info => "INFO"
  | warning => "WARNING"

/-- A line of the log, with the part of the program that it comes from. -/
structure LogLine where
  level : LogLevel
  origin : String
  message : String
deriving DecidableEq, Repr

namespace LogLine

/-- What the reading of a document noted. -/
def ofNote (n : Note) : LogLine :=
  ⟨.debug, "wup_engine.dsl.wup_parser", n.message⟩

/-- A warning of an edit. -/
def ofWarning (w : Warning Float) : LogLine :=
  ⟨.warning, "wup_engine.editor.editor", w.message⟩

/-- That a document was saved. -/
def saved (path : FilePath) : LogLine :=
  ⟨.info, "wup_engine.editor.serializer", "wrote " ++ String.ofList path.render⟩

/-- That a drawing was saved. -/
def drawn (path : FilePath) : LogLine :=
  ⟨.info, "wup_engine.packaging.dxf_exporter", "wrote DXF " ++ String.ofList path.render⟩

/-- The text of a line. -/
def render (l : LogLine) : String :=
  l.level.name ++ " " ++ l.origin ++ ": " ++ l.message

/-- The lines of a log that are shown: all of them, or only the warnings. -/
def shown (verbose : Bool) (log : List LogLine) : List String :=
  (log.filter fun l => verbose || l.level = .warning).map render

end LogLine

/-! ## Outcomes -/

/-- What is written to a file. -/
inductive Content where
  | text (s : String)
  | drawing (d : Drawing Float)

/-- What keeps a content from being written to a file that is open. -/
def Content.fault? : Content → Option Fault
  | text _ => none
  | drawing d => d.fault?

/-- What a command comes to. -/
structure Outcome where
  exitCode : Nat
  /-- The lines of the output. -/
  output : List String
  log : List LogLine
  /-- The lines of the error output after the log. -/
  errors : List String
  failure : Option Failure
  written : Option (FilePath × Content)

namespace Outcome

/-- The exit code of a command that is not understood. -/
def usageCode : Nat := 2

/-- The command is not understood. -/
def usage : Outcome :=
  ⟨usageCode, [], [], [], none, none⟩

/-- The command has done what was asked for. -/
def done (output : List String) (log : List LogLine) : Outcome :=
  ⟨0, output, log, [], none, none⟩

/-- The command has done what was asked for, and written a file. -/
def wrote (output : List String) (log : List LogLine) (path : FilePath) (content : Content) :
    Outcome :=
  ⟨0, output, log, [], none, some (path, content)⟩

/-- The command was declined. -/
def declined (output : List String) (log : List LogLine) (errors : List String) : Outcome :=
  ⟨1, output, log, errors, none, none⟩

/-- The command stopped. -/
def failed (output : List String) (log : List LogLine) (failure : Failure) : Outcome :=
  ⟨1, output, log, [], some failure, none⟩

/-- Take a command that stopped because a drawing cannot be as it is asked for as one that is not
understood. -/
def blamingRequest (o : Outcome) : Outcome :=
  match o.failure with
  | some (.fault fault) => if fault.isOfDrawing then usage else o
  | _ => o

/-- The text of the output, which is for a file. -/
def outputText (o : Outcome) : String :=
  joinLines (o.output.map Terminal.plain)

/-- The text of the error output. The lines of the log are shown as they are. -/
def errorText (o : Outcome) (verbose : Bool) : String :=
  joinLines (LogLine.shown verbose o.log ++ o.errors.map Terminal.plain)

end Outcome

end WallPanel
