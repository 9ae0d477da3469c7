import TenantQuery.Text.Blank

namespace TenantQuery.Path

def separator : Char := '/'

def lastPart (cs : List Char) : List Char :=
  (cs.reverse.takeWhile (· != separator)).reverse

/-- The text from the last point of the last part on, empty if it has none. -/
def extension (path : String) : String :=
  let part := lastPart path.toList
  if part.contains '.' then
    String.ofList ('.' :: (part.reverse.takeWhile (· != '.')).reverse)
  else ""

def isAbsolute (path : String) : Bool :=
  path.toList.head? == some separator

def push (rooted : Bool) (parts : List String) (part : String) : List String :=
  if part = "" ∨ part = "." then parts
  else if part = ".." then
    match parts with
    | [] => if rooted then [] else [".."]
    | ".." :: _ => ".." :: parts
    | _ :: rest => rest
  else part :: parts

def clean (path : String) : String :=
  let rooted := isAbsolute path
  let parts := ((Text.split separator path).foldl (push rooted) []).reverse
  let body := "/".intercalate parts
  if rooted then "/" ++ body
  else if body = "" then "." else body

def join (parts : List String) : String :=
  let parts := parts.filter (· ≠ "")
  if parts.isEmpty then "" else clean ("/".intercalate parts)

def directory (path : String) : String :=
  let cs := path.toList
  clean (String.ofList (cs.take (cs.length - (lastPart cs).length)))

/-- The last part of a path, whatever slashes come after it. -/
def base (path : String) : String :=
  if path = "" then "."
  else
    let trimmed := (path.toList.reverse.dropWhile (· == separator)).reverse
    if trimmed.isEmpty then "/" else String.ofList (lastPart trimmed)

def stem (path : String) : String :=
  let last := (base path).toList
  String.ofList (last.take (last.length - (extension (base path)).length))

end TenantQuery.Path
