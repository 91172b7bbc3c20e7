import Switchyard.Settings.Overlay
import Switchyard.Settings.Source

/-!
# Settings in files

Settings are read from a file, and the document of a profile may be laid over it. Relative paths
lead from a base directory, and so does the path to the profiles. All files are below one directory;
nothing is known of what lies outside.
-/

namespace Switchyard

/-- A path: whether it starts at the root, and the names on it. -/
structure PathName where
  isAbsolute : Bool := false
  names : List String := []
  deriving DecidableEq, Repr

namespace PathName

/-- The path that a text stands for. Empty names and dots lead nowhere. -/
def ofText (text : String) : PathName :=
  ⟨text.toList.head? = some '/', (text.splitOn "/").filter fun name => name ≠ "" && name ≠ "."⟩

/-- The path that leads on from another one; an absolute path starts anew. -/
def below (path base : PathName) : PathName :=
  if path.isAbsolute then path else { base with names := base.names ++ path.names }

def text (path : PathName) : String :=
  let names := "/".intercalate path.names
  if path.isAbsolute then "/" ++ names else if names = "" then "." else names

end PathName

/-- The files below a directory, each with its text and the names that lead to it. -/
abbrev FileTree := List (List String × String)

namespace FileTree

def ofFiles (files : List (String × String)) : FileTree :=
  files.map fun (path, text) => ((PathName.ofText path).names, text)

def isDirectory (tree : FileTree) (names : List String) : Bool :=
  names.isEmpty || tree.any fun (file, _) => names.isPrefixOf file && names.length < file.length

/-- The text of the file at the end of some names. -/
def file? (tree : FileTree) (names : List String) : Option String :=
  (tree.find? (·.1 == names)).map (·.2)

/-- Why a file cannot be read. -/
inductive Trouble
  | isMissing
  | isDirectory
  | isNoDirectory
  deriving DecidableEq, Repr

def Trouble.raised : Trouble → Raised
  | .isMissing => .broken "FileNotFoundError" "there is no such file"
  | .isDirectory => .broken "IsADirectoryError" "this is a directory"
  | .isNoDirectory => .broken "NotADirectoryError" "this is no directory"

/-- Follows names from a place in the tree; two dots lead back. -/
def follow (tree : FileTree) : (place : List String) → List String → Except Trouble (List String)
  | place, [] => .ok place
  | place, name :: rest =>
    if tree.isDirectory place then
      if name = ".." then if place.isEmpty then .error .isMissing
      else follow tree place.dropLast rest
      else follow tree (place ++ [name]) rest
    else if (tree.file? place).isSome then .error .isNoDirectory
    else .error .isMissing

/-- The text of the file at a path. The lines of a file end in line feeds,
however they are written. -/
def read (tree : FileTree) (path : PathName) : Except Trouble String := do
  if path.isAbsolute then throw .isMissing
  let place ← tree.follow [] path.names
  match tree.file? place with
  | some text => pure (text.replace "\r\n" "\n" |>.replace "\r" "\n")
  | none => throw (if tree.isDirectory place then .isDirectory else .isMissing)

end FileTree

namespace Settings

def profileDirectory : PathName := ⟨false, ["config", "profiles"]⟩

def fileEntries (tree : FileTree) (path : PathName) : Except Raised Entries :=
  match tree.read path with
  | .ok text => Yaml.entries text.toList
  | .error trouble => .error trouble.raised

def profileEntries (tree : FileTree) (base : PathName) (profile : String) : Except Raised Entries :=
  let path := (PathName.ofText (profile ++ ".yaml")).below (profileDirectory.below base)
  match tree.read path with
  | .ok text => Yaml.entries text.toList
  | .error _ =>
    .error (.refused "FileNotFoundError"
      ("Profile not found: " ++ profile ++ " (" ++ path.text ++ ")"))

/-- The settings in a file, with those of a profile laid over them if one is named. -/
def load (tree : FileTree) (path : String) (profile : Option String) (base : PathName) :
    Except Raised Settings := do
  let entries ← fileEntries tree ((PathName.ofText path).below base)
  let entries ← match profile.filter (· ≠ "") with
    | some profile => do pure (entries.overlaid (← profileEntries tree base profile))
    | none => pure entries
  (Settings.check (.map entries)).raise

end Settings

end Switchyard
