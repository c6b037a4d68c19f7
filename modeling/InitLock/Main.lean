import InitLock.Client
import InitLock.Command.Run
import InitLock.Command.Usage
import InitLock.Log
import Std.Time.DateTime.Timestamp

/-!
# The program

Reads the command line, the environment and the kubeconfigs, runs the command
and prints what it reports and answers. There is no transport: no server can be
reached.
-/

namespace InitLock.Program

open Command

def fileFault : IO.Error → FileFault
  | .noFileOrDirectory .. => .missing
  | .permissionDenied .. => .denied
  | .inappropriateType .. => .directory
  | e => .other (toString e)

def readFile (path : String) : IO (Except FileFault String) := do
  try
    return .ok (← IO.FS.readFile path)
  catch e =>
    return .error (fileFault e)

def readFiles (paths : List String) (others : Files) : IO Files := do
  let read ← paths.mapM fun path => do return (path, ← readFile path)
  return fun path => (read.lookup path).getD (others path)

def now : IO Int := do
  let t ← Std.Time.Timestamp.now
  return Text.Timestamp.days 1970 1 1 * Text.Timestamp.dayLength + t.toSecondsSinceUnixEpoch.val

/-- Prints how a session went. The exit code says whether the command succeeded. -/
def report (format : Log.Format) (s : Session) : IO UInt32 := do
  for line in s.log do
    IO.eprintln (line.render format)
  match s.ending with
  | none => return 1
  | some e =>
    IO.print e.printed
    match e.result with
    | .ok _ => return 0
    | .error f =>
      IO.eprintln ("Error: " ++ f.message)
      return 1

def run (words : List String) : IO UInt32 := do
  let env : Environment :=
    ⟨← IO.getEnv "KUBECONFIG", ← IO.getEnv "ETCDADM_LOG_FORMAT",
      ← IO.getEnv "ETCDADM_HOLDER_NAMESPACE"⟩
  match parse env words with
  | .error e =>
    if e.isAnswer then
      IO.println e.message
      return 0
    else
      IO.eprintln e.message
      return 2
  | .ok i =>
    let sources : Kubeconfig.Sources := ⟨env.kubeconfig, ← IO.getEnv "HOME"⟩
    let configs ← readFiles (Connection.paths sources i.kubeconfig) fun _ => .error .missing
    let files ← readFiles (Connection.namedPaths configs sources i.kubeconfig) configs
    report i.logFormat (Session.run files (← now) sources Api.unreachable () i)

end InitLock.Program

def main (words : List String) : IO UInt32 := InitLock.Program.run words
