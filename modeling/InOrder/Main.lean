import InOrder.Command.Outcome

/-!
# The program

The arguments are read, then the files that they name, then the outcome is printed. The log filter
is set by the variable `RUST_LOG`.
-/

namespace InOrder

open Command

/-- The content of a file. -/
def readContent (path : String) : IO (Except ReadFault (List UInt8)) := do
  try
    return .ok (← IO.FS.readBinFile path).toList
  catch
    | .noFileOrDirectory .. => return .error .missing
    | e => return .error (.other (toString e))

/-- The content of several files. -/
def readContents : List String → IO (List (String × Except ReadFault (List UInt8)))
  | [] => return []
  | p :: ps => do return (p, ← readContent p) :: (← readContents ps)

/-- The files that the arguments name. -/
def argumentPaths (args : List String) : List String :=
  match Invocation.parse? args with
  | some (.act action _) => action.paths
  | _ => []

end InOrder

open InOrder in
/-- Do what the arguments say. -/
def main (args : List String) : IO UInt32 := do
  let contents ← readContents (argumentPaths args)
  let files (path : String) : Except ReadFault (List UInt8) :=
    match contents.find? (·.1 == path) with
    | some (_, content) => content
    | none => .error .missing
  let o := Command.outcome (← IO.getEnv "RUST_LOG") files args
  (← IO.getStdout).putStr o.stdout
  (← IO.getStderr).putStr o.stderr
  return o.code.toUInt32
