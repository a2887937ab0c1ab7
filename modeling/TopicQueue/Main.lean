import TopicQueue.Cli.Run

namespace TopicQueue.Cli

def variableNames : List String :=
  [filterVariable, "WORKQ_SERVER__HOST", "WORKQ_SERVER__PORT", "WORKQ_SERVER__MAX_PAYLOAD_BYTES",
    "WORKQ_STORAGE__PATH", "WORKQ_STORAGE__FLUSH_ON_INSERT", "WORKQ_LOGGING__LEVEL"]

def filePaths (arguments : List String) : List String :=
  let named := match parse arguments with
    | .serve options => options.config.toList
    | _ => []
  let base := Config.defaultFile :: named
  EnvironmentFile.path :: base ++
    base.flatMap fun p => Config.Format.extensions.map fun e => p ++ "." ++ e

def readVariables : IO Variables :=
  variableNames.filterMapM fun n => do return (← IO.getEnv n).map (n, ·)

def readFiles (paths : List String) : IO Files :=
  paths.filterMapM fun (p : String) => do
    try
      let contents ← IO.FS.readBinFile p
      return some (p, contents.data.toList)
    catch _ => return none

end TopicQueue.Cli

open TopicQueue.Cli in
/-- A run that serves goes on until its input ends. -/
def main (arguments : List String) : IO UInt32 := do
  let course := run (← readFiles (filePaths arguments)) (← readVariables) arguments
  let out ← IO.getStdout
  match course with
  | .quits _ output => output.forM out.putStrLn
  | .fails log _ => log.forM out.putStrLn
  | .serves log farewell =>
    log.forM out.putStrLn
    out.flush
    discard (← IO.getStdin).getLine
    farewell.forM out.putStrLn
  return course.exitCode.toUInt32
