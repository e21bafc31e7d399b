import UnitFile.PathName
/-!
# Workspaces

A workspace is what files can be found at which paths. `Workspace.ofFiles` makes
one of files in memory, with the rules of a file system: every component of a path
but the last names a directory, `..` leads back out of one, and a path that goes on
after a file leads nowhere.
-/

namespace UnitFile

/-- The contents of the file at a path, where there is one. -/
abbrev Workspace := String → Option ByteArray

namespace Workspace

/-- Where a path has led so far. -/
inductive Place where
  | directory (parts : List String)
  | file (contents : ByteArray)
  | nowhere

/-- Goes one component further. -/
def step (files : List (List String × ByteArray)) : Place → String → Place
  | .directory parts, part =>
    if part = "" ∨ part = "." then .directory parts
    else if part = ".." then
      if parts.isEmpty then .nowhere else .directory parts.dropLast
    else
      let below := parts ++ [part]
      match files.lookup below with
      | some contents => .file contents
      | none =>
        if files.any fun f => below.isPrefixOf f.1 then .directory below else .nowhere
  | _, _ => .nowhere

/-- The workspace that holds given files below its root. -/
def ofFiles (files : List (String × ByteArray)) : Workspace := fun path =>
  let files := files.map fun f => (PathName.components f.1, f.2)
  if PathName.isAbsolute path then none
  else
    match (path.splitOn "/").foldl (step files) (.directory []) with
    | .file contents => some contents
    | _ => none

end Workspace

end UnitFile
