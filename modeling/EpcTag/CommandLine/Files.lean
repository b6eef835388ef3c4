-- SUMMARY: The files that a command can see, found by their paths.
import EpcTag.Text.Basic

/-!
# Files

A command sees files and directories by their paths, and besides what is typed
in. The files of a directory can also be given as a list; then paths lead from
that directory downwards.
-/

namespace EpcTag.CommandLine

/-- What stands at a path. -/
inductive FileEntry where
  | missing
  | directory
  | file (content : Text)
  deriving DecidableEq, Repr

/-- The files that a command sees. -/
structure Files where
  entry : Text → FileEntry
  /-- What is typed in. -/
  typed : Text := []

namespace Files

/-- The directory that holds what a path leads to. -/
def parent (path : Text) : Text :=
  if path.contains '/' then
    match Text.dropWhileEnd (· = '/') (Text.dropWhileEnd (· ≠ '/') path) with
    | [] => "/"
    | above => above
  else "."

/-- The names on a path, from the outermost directory inwards. -/
def names (path : Text) : List Text :=
  (Text.splitAll '/' path).filter fun name => name ≠ [] ∧ name ≠ ".".toList

/-- The files of a directory, which can hold other directories. -/
def ofList (entries : List (Text × Text)) (typed : Text) : Files := ⟨entryIn entries, typed⟩
where
  /-- What stands at a path that leads from the directory. -/
  entryIn (entries : List (Text × Text)) (path : Text) : FileEntry :=
    if path.isEmpty then .missing
    else if path.head? = some '/' then if names path = [] then .directory else .missing
    else if names path = [] then .directory
    else match entries.find? fun entry => names entry.1 = names path with
      | some (_, content) => .file content
      | none =>
        if entries.any fun entry => (names path).isPrefixOf (names entry.1) then .directory
        else .missing

/-- Is there something at a path? -/
def has (files : Files) (path : Text) : Bool := files.entry path ≠ .missing

/-- The content of the file at a path. -/
def content? (files : Files) (path : Text) : Option Text :=
  match files.entry path with
  | .file content => some content
  | _ => none

/-- The path that stands for what is typed in, where a single file is read. -/
def typedIn : Text := "-"

/-- The content of the file at a path, or what is typed in. -/
def contentOrTyped? (files : Files) (path : Text) : Option Text :=
  if path = typedIn then some files.typed else files.content? path

end Files

end EpcTag.CommandLine
