import Podmin.Foundation.Text

/-!
# Slash-separated paths

`filepath.Clean`, `filepath.Join` and `filepath.Rel` on component lists: empty and `.` components
are dropped, a `..` removes the component before it, and at the root it disappears.
-/

namespace Podmin.Foundation.Path

/-- A cleaned path: whether it is rooted, and its components. -/
structure Cleaned where
  rooted : Bool
  parts : List String
  deriving DecidableEq, Repr

/-- Append one component to a cleaned path. -/
def Cleaned.push (path : Cleaned) (part : String) : Cleaned :=
  if part = "" ∨ part = "." then path
  else if part = ".." then
    match path.parts.getLast? with
    | none => if path.rooted then path else { path with parts := [".."] }
    | some ".." => { path with parts := path.parts ++ [".."] }
    | some _ => { path with parts := path.parts.dropLast }
  else { path with parts := path.parts ++ [part] }

def parse (value : String) : Cleaned :=
  (Text.split '/' value).foldl Cleaned.push ⟨Text.hasPrefix value "/", []⟩

def Cleaned.text (path : Cleaned) : String :=
  if path.rooted then "/" ++ Text.join '/' path.parts
  else if path.parts.isEmpty then "." else Text.join '/' path.parts

/-- `filepath.Clean`. -/
def clean (value : String) : String :=
  (parse value).text

/-- `filepath.Join`: empty elements are left out. -/
def join (elements : List String) : String :=
  match elements.filter (fun element ↦ element != "") with
  | [] => ""
  | kept => clean (Text.join '/' kept)

/-- Drop the common leading components. -/
def dropCommon : List String → List String → List String × List String
  | base :: bases, target :: targets =>
    if base = target then dropCommon bases targets else (base :: bases, target :: targets)
  | bases, targets => (bases, targets)

/-- `filepath.Rel`; none where Go returns an error. -/
def rel (basePath targetPath : String) : Option String :=
  let base := parse basePath
  let target := parse targetPath
  if base = target then some "."
  else if base.rooted ≠ target.rooted then none
  else
    let (bases, targets) := dropCommon base.parts target.parts
    if bases.head? = some ".." then none
    else some (Text.join '/' (bases.map (fun _ ↦ "..") ++ targets))

end Podmin.Foundation.Path
