import Std.Time.DateTime.Timestamp
import TenantQuery.CommandLine.Basic
import TenantQuery.Text.Utf8

namespace TenantQuery.Main

def pathsIn (words : List String) : List String :=
  words.flatMap fun word =>
    match word.toList.dropWhile (· != '=') with
    | _ :: value => [word, String.ofList value]
    | [] => [word]

def locationOf (path : String) : Location :=
  match Text.split Path.separator (Path.clean path) with
  | ["."] => []
  | "" :: names => "/" :: names.filter (· ≠ "")
  | names => names

def pathOf : Location → String
  | "/" :: names => "/" ++ "/".intercalate names
  | names => "/".intercalate names

def referenced (fs : FileSystem) : List String :=
  fs.files.flatMap fun f =>
    let path := pathOf f.1
    if Suite.isScenarioFile path then
      match Scenario.parse (Text.octets f.2) with
      | .ok s =>
        let directory := Path.directory path
        [Scenario.resolve directory s.query, Scenario.resolve directory s.config]
      | .error _ => []
    else []

def isOfInterest (path : String) : Bool :=
  (Notation.ofPath path).isOk || Path.extension path = ".golden"

def readText (path : String) : IO String := do
  return Text.ofOctets (← IO.FS.readBinFile path).toList

def addDirectory (fs : FileSystem) (path : String) : FileSystem :=
  { fs with directories := fs.directories ++ [locationOf path] }

def entryAt (path : String) : IO.FS.DirEntry :=
  ⟨Path.directory path, Path.base path⟩

/-- Loads a file or all that is in a directory. Of a file that is not there its directory is kept. -/
partial def load (fs : FileSystem) (path : String) : IO FileSystem := do
  let place := (entryAt path).path
  if ← place.isDir then
    let mut loaded := addDirectory fs path
    for entry in ← place.readDir do
      let inside := Path.join [path, entry.fileName]
      if isOfInterest inside || (← entry.path.isDir) then loaded ← load loaded inside
    return loaded
  else if ← place.pathExists then return fs.put (locationOf path) (← readText path)
  else
    let directory := Path.directory path
    return if ← (entryAt directory).path.isDir then addDirectory fs directory else fs

def loadAll (fs : FileSystem) (paths : List String) : IO FileSystem :=
  (paths.filter (· ≠ "")).foldlM load fs

def store (before after : FileSystem) : IO Unit := do
  for (place, text) in after.files do
    if before.files.lookup place ≠ some text then
      let path := pathOf place
      IO.FS.createDirAll (Path.directory path)
      IO.FS.writeFile path text

partial def readAll (stream : IO.FS.Stream) (octets : ByteArray) : IO String := do
  let more ← stream.read 65536
  if more.isEmpty then return Text.ofOctets octets.toList
  readAll stream (octets ++ more)

def run (words : List String) : IO UInt32 := do
  let named ← loadAll {} (pathsIn words)
  let files ← loadAll named (referenced named)
  let input ← if words.contains "-" then readAll (← IO.getStdin) .empty else pure ""
  let now : Instant := ⟨(← Std.Time.Timestamp.now).toNanosecondsSinceUnixEpoch.val⟩
  let r := CommandLine.run { files, input, now } words
  store files r.files
  IO.print r.output
  IO.eprint r.diagnostics
  for line in r.logLines do
    IO.eprintln ("time=" ++ now.wire ++ " " ++ line)
  return r.exit.toUInt32

end TenantQuery.Main

def main (words : List String) : IO UInt32 :=
  TenantQuery.Main.run words
