import TenantQuery.Error
import TenantQuery.Text.Blank
import TenantQuery.Text.Units

namespace TenantQuery

/-- Names on the way from the working directory. The root and the directories above the working
directory have the names `/` and `..`. -/
abbrev Location := List String

inductive Entry where
  | file (text : String)
  | directory
deriving DecidableEq

structure FileSystem where
  files : List (Location × String) := []
  directories : List Location := []

namespace FileSystem

def hasDirectory (fs : FileSystem) (place : Location) : Bool :=
  place.isEmpty || fs.directories.any (fun d => place.isPrefixOf d) ||
    fs.files.any fun f => place.isPrefixOf f.1 && place != f.1

def entry? (fs : FileSystem) (place : Location) : Option Entry :=
  match fs.files.lookup place with
  | some text => some (.file text)
  | none => if fs.hasDirectory place then some .directory else none

def above (place : Location) : Location :=
  match place.getLast? with
  | none => [".."]
  | some ".." => place ++ [".."]
  | some "/" => place
  | some _ => place.dropLast

/-- Follows the parts of a path. Every place on the way has to be a directory; the last one need not
be there. -/
def follow (fs : FileSystem) : (here : Location) → List String → Except FileFault Location
  | here, [] => .ok here
  | here, part :: parts =>
    match fs.entry? here with
    | none => .error .missing
    | some (.file _) => .error .notDirectory
    | some .directory =>
      if part = "" ∨ part = "." then fs.follow here parts
      else if part = ".." then fs.follow (above here) parts
      else fs.follow (here ++ [part]) parts

def locate (fs : FileSystem) (path : String) : Except FileFault Location :=
  match Text.split '/' path with
  | [""] => .error .missing
  | "" :: parts => fs.follow ["/"] parts
  | parts => fs.follow [] parts

def stat (fs : FileSystem) (path : String) : Except FileFault Entry := do
  match fs.entry? (← fs.locate path) with
  | some entry => return entry
  | none => throw .missing

def isMissing (fs : FileSystem) (path : String) : Bool :=
  match fs.stat path with
  | .error fault => fault = .missing
  | .ok _ => false

def read (fs : FileSystem) (path : String) : Except Error String :=
  match fs.stat path with
  | .ok (.file text) => .ok text
  | .ok .directory => .error (.file "read" path .isDirectory)
  | .error fault => .error (.file "open" path fault)

def put (fs : FileSystem) (place : Location) (text : String) : FileSystem :=
  { fs with files := fs.files.filter (fun f => f.1 != place) ++ [(place, text)] }

/-- The place that a text can be written to. A path with a slash at its end names a directory. -/
def target (fs : FileSystem) (path : String) : Except FileFault Location := do
  let bare := String.ofList (path.toList.reverse.dropWhile (· == '/')).reverse
  let place ← fs.locate bare
  if bare ≠ path ∨ fs.entry? place = some .directory then throw .isDirectory
  return place

def write (fs : FileSystem) (path text : String) : Except Error FileSystem :=
  match fs.target path with
  | .ok place => .ok (fs.put place text)
  | .error fault => .error (.file "open" path fault)

def makeDirectory (fs : FileSystem) (path : String) : Except Error FileSystem :=
  match fs.locate path with
  | .error fault => .error (.file "mkdir" path fault)
  | .ok place =>
    match fs.entry? place with
    | some .directory => .ok fs
    | some (.file _) => .error (.file "mkdir" path .notDirectory)
    | none => .ok { fs with directories := fs.directories ++ [place] }

def namesLe : Location → Location → Bool
  | [], _ => true
  | _ :: _, [] => false
  | a :: as, b :: bs => if a = b then namesLe as bs else Text.codesLe a b

def below (fs : FileSystem) (place : Location) : List Location :=
  let inside := fs.files.filter fun f => place.isPrefixOf f.1 && place != f.1
  (inside.map fun f => f.1.drop place.length).mergeSort namesLe

end FileSystem

end TenantQuery
