import LineTint.Tool.Basic

/-!
# The program

Reads what `Tool.run` needs from the system, prints its outcome, and exits with
its code.
-/

namespace LineTint.Program
set_option autoImplicit false

/-- The fault that a system error stands for, by its number, which may come
with its sign changed. -/
def faultOfNumber (number : UInt32) (text : String) : IoFault :=
  match min number.toNat (0 - number).toNat with
  | 20 => .notDirectory
  | 21 => .isDirectory
  | 36 => .nameTooLong
  | _ => .other text

/-- The fault that a failed read stands for. -/
def faultOf : IO.Error → IoFault
  | .noFileOrDirectory .. => .notFound
  | .inappropriateType _ number text => faultOfNumber number text
  | .invalidArgument _ number text => faultOfNumber number text
  | .otherError number text => faultOfNumber number text
  | e => .other (toString e)

/-- The bytes of a file, or the fault of reading it. -/
def readFile (path : String) : IO (Except IoFault (List UInt8)) := do
  try
    return .ok (← IO.FS.readBinFile path).data.toList
  catch e =>
    return .error (faultOf e)

/-- The bytes of the file at a path, which is a text as all arguments are that
the program is given. -/
def readPath (path : List UInt8) : IO (Except IoFault (List UInt8)) :=
  match Text.decode? path with
  | some path => readFile path
  | none => return .error .notFound

/-- The bytes of the settings file, if it can be read. -/
def readSettings : IO (Option (List UInt8)) := do
  match Settings.path (← IO.getEnv "HOME") with
  | none => return none
  | some path => return (← readFile path).toOption

/-- Reads the file or the standard input that an invocation is about. -/
def readInput (i : Tool.Invocation) : IO (Except IoFault (List UInt8)) := do
  match i.file with
  | some path => readPath path
  | none => return .ok (← (← IO.getStdin).readBinToEnd).data.toList

/-- Prints an outcome and answers with its exit code. -/
def report (o : Tool.Outcome) : IO UInt32 := do
  IO.print o.output
  if let some line := o.error then IO.eprintln line
  return o.exitCode.toUInt32

/-- Runs the tool. The input is read only if the arguments ask for a text. -/
def run (arguments : List String) : IO UInt32 := do
  let input ← match Tool.Arguments.read (arguments.map Text.utf8) with
    | .ok (.run i) => if i.listLanguages then pure (.ok []) else readInput i
    | _ => pure (.ok [])
  let settings ← readSettings
  report (Tool.run arguments ⟨settings, fun _ => input, input.toOption.getD []⟩)

end LineTint.Program

def main (arguments : List String) : IO UInt32 :=
  LineTint.Program.run arguments
