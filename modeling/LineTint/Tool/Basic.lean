import LineTint.Highlighter
import LineTint.Settings
import LineTint.Terminal.Basic
import LineTint.Tool.Arguments
import LineTint.Tool.Texts

/-!
# The command line tool

The tool prints a text with its tokens colored. `Tool.runBytes` is what a run of
it does, as a function of its arguments and of what it finds around it: the bytes
of the settings file, the files it may be asked to read, and its standard input.
Arguments and paths are rows of bytes; `Tool.run` is for arguments that are
texts.
-/

namespace LineTint.Tool
set_option autoImplicit false

/-- What a run of the tool finds around it. -/
structure Surroundings where
  /-- The bytes of the settings file, if there is a home with one. -/
  settings : Option (List UInt8)
  /-- Reads the file at a path. -/
  readFile : List UInt8 → Except IoFault (List UInt8)
  /-- The bytes of the standard input. -/
  input : List UInt8

/-- What a run of the tool leaves behind: its exit code, its standard output,
and the line about its fault. -/
structure Outcome where
  exitCode : Nat
  output : String
  error : Option String
  deriving DecidableEq, Repr

/-- A run without a fault. -/
def Outcome.done (output : String) : Outcome := ⟨0, output, none⟩

/-- A run that a fault has ended before it printed anything. -/
def Outcome.failed (f : Fault) : Outcome := ⟨1, "", some ("Error: " ++ f.message)⟩

/-- A run whose arguments make no sense. Only the first line of the message is
the line about the fault. -/
def Outcome.misused (f : UsageFault) : Outcome :=
  ⟨2, "", some ("error: " ++ .ofList (f.message.toList.takeWhile (· ≠ '\n')))⟩

/-- The language to highlight as: the one asked for, or else that of the file,
or else that of the settings. -/
def language? (i : Invocation) (s : Settings) : Option Language :=
  i.language <|> i.file.bind Language.ofPath? <|> s.defaultLanguage

/-- What is printed for a text. -/
def render (i : Invocation) (s : Settings) (text : String) : String :=
  let terminal : Terminal := ⟨s.color && !i.noColor, s.lineNumbers || i.lineNumbers⟩
  .join (terminal.linesWrites s.theme ((Highlighter.ofLanguage? (language? i s)).lines text))

/-- What becomes of an invocation once its input has been read. -/
def finish (i : Invocation) (s : Settings) (input : Except IoFault (List UInt8)) : Outcome :=
  match input with
  | .error f => .failed (.io f)
  | .ok bytes =>
    match Text.decode? bytes with
    | none => .failed (.io .notText)
    | some text => .done (render i s text)

/-- The bytes that an invocation is about. -/
def Invocation.input (i : Invocation) (around : Surroundings) : Except IoFault (List UInt8) :=
  match i.file with
  | some path => around.readFile path
  | none => .ok around.input

/-- What a run of the tool does. -/
def runBytes (arguments : List (List UInt8)) (around : Surroundings) : Outcome :=
  match Arguments.read arguments with
  | .error f => .misused f
  | .ok .help => .done helpText
  | .ok .version => .done versionText
  | .ok (.run i) =>
    if i.listLanguages then .done languagesText
    else finish i (Settings.load around.settings) (i.input around)

/-- What a run of the tool does with arguments that are texts. -/
def run (arguments : List String) (around : Surroundings) : Outcome :=
  runBytes (arguments.map Text.utf8) around

end LineTint.Tool
