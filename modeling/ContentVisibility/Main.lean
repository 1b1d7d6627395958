import ContentVisibility.Command.Execute

/-!
# The command line

Reads the arguments, the files and the environment of the process; all decisions are made elsewhere.
-/

namespace ContentVisibility.Command

def systemFault : IO.Error → FileFault
  | .noFileOrDirectory .. => .missing
  | .inappropriateType _ code _ => if code = 20 then .notDirectory else .directory
  | .invalidArgument _ code details => if code = 36 then .nameTooLong else .other details
  | e => .other (toString e)

def systemFiles : Files IO where
  read path := do
    try
      let bytes ← IO.FS.readBinFile path
      match String.fromUTF8? bytes with
      | some text => return .ok text
      | none => return .error (.other "stream did not contain valid UTF-8")
    catch e => return .error (systemFault e)

/-- The variables of the process, as the system lists them. -/
def systemEnvironment : IO Environment := do
  match ← systemFiles.read "/proc/self/environ" with
  | .error _ => return []
  | .ok text =>
    return (text.splitOn "\x00").filterMap fun entry =>
      match entry.splitOn "=" with
      | name :: value@(_ :: _) => some (name, "=".intercalate value)
      | _ => none

/-- Do what the arguments ask for; the answer is the status with which the process ends. -/
def runProgram (args : List String) : IO UInt32 := do
  match Invocation.parse args with
  | .misuse =>
    IO.eprint usage
    return 2
  | .help =>
    IO.print usage
    return 0
  | .version name =>
    IO.println s!"{name} {programVersion}"
    return 0
  | .run invocation =>
    let environment ← systemEnvironment
    let place : Place IO := ⟨systemFiles, environment, userSettingsPath environment⟩
    let report ← place.execute invocation
    IO.print report.output
    match report.complaint with
    | none => return 0
    | some complaint =>
      IO.eprintln ("Error: " ++ complaint.body)
      return 1

end ContentVisibility.Command

/-- The program. -/
def main (args : List String) : IO UInt32 := ContentVisibility.Command.runProgram args
