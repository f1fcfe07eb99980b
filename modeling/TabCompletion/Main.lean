import TabCompletion.Program.Run

/-!
# The executable

Fetches what the program looks at, runs it, and delivers what it leaves behind.
-/

namespace TabCompletion.Main

open Text

/-- The environment of this process. -/
def environment : IO Environment := do
  let raw ← try IO.FS.readFile "/proc/self/environ" catch _ => pure ""
  return (splitAll '\x00' raw).filterMap (splitOnce '=')

/-- The names in a directory, each with whether it is a directory itself. -/
def directoryEntries (path : String) : IO (Array (String × Bool)) := do
  let entries ← ((← IO.currentDir) / path).readDir
  entries.mapM fun e => return (e.fileName, ← e.path.isDir)

/-- Whether a descriptor is open. -/
def isOpen (n : Int) : IO Bool := do
  try
    let entries ← directoryEntries "/proc/self/fd"
    return entries.any (·.1 == toString n)
  catch _ => return false

/-- The file system with what is found at a path. -/
def fetch (fs : FileSystem) (path : String) : IO FileSystem := do
  if fs.has path then return fs
  try return fs.put path (.file .all (← IO.FS.readFile path))
  catch
  | .permissionDenied .. => return fs.put path (.file .none "")
  | _ =>
    try
      let _ ← directoryEntries path
      return fs.put path (.directory .all [])
    catch _ => return fs

/-- The file system with the entries of a directory. -/
def fetchEntries (fs : FileSystem) (path : String) : IO FileSystem := do
  try
    let entries ← directoryEntries path
    return entries.foldl (fun fs (name, isDirectory) =>
      let below := Path.join path name
      if fs.has below then fs
      else fs.put below (if isDirectory then .directory .all [] else .file .all ""))
      (fs.put path (.directory .all []))
  catch
  | .permissionDenied .. => return fs.put path (.directory .none [])
  | _ => return fs

/-- The process with what it looks at. -/
def inspect (arguments : List String) : IO Invocation := do
  let env ← environment
  let working := (splitAll '/' (← IO.currentDir).toString).filter (!·.isEmpty)
  let asked := match (ShellRequest.decode? env).map (·.channel) with
    | some (.descriptor n) => some n
    | _ => none
  let openDescriptor ← match asked with
    | some n => do if 2 < n && (← isOpen n) then pure (some n) else pure none
    | none => pure none
  let p : Invocation := {
    arguments
    host := .plain (.below working (.directory .all [])) env
    executable := (← IO.appPath).toString
    openDescriptor
    terminal := ← (← IO.getStdout).isTty }
  let p := { p with host.files := ← p.readPaths.foldlM fetch p.host.files }
  return { p with host.files := ← p.listPaths.foldlM fetchEntries p.host.files }

/-- Deliver what a run leaves behind. -/
def deliver (p : Invocation) (e : Ending) : IO Unit := do
  IO.print e.stdout
  IO.eprint e.stderr
  match p.openDescriptor, e.descriptor with
  | some n, some text =>
    let h ← IO.FS.Handle.mk ("/proc/self/fd/" ++ toString n) .append
    h.putStr text
  | _, _ => pure ()
  match e.file with
  | some (path, text) => IO.FS.writeFile path text
  | none => pure ()

end TabCompletion.Main

/-- The program: fetch, run, deliver. -/
def main (arguments : List String) : IO UInt32 := do
  let p ← TabCompletion.Main.inspect arguments
  let e := p.run
  TabCompletion.Main.deliver p e
  return e.code.toUInt32
