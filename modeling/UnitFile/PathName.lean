/-!
# Path names

A path name is read as its components: repeated and trailing slashes and the
components `.` do not count. A last component `..` names no file.
-/

namespace UnitFile

namespace PathName

/-- The components of a path. -/
def components (path : String) : List String :=
  (path.splitOn "/").filter fun part => part != "" && part != "."

/-- Whether a path starts at the root. -/
def isAbsolute (path : String) : Bool :=
  path.startsWith "/"

/-- The name at the end of a list of components, when it names an entry. -/
def lastName? (parts : List String) : Option String :=
  parts.getLast?.filter (· != "..")

/-- The file name of a path. -/
def fileName? (path : String) : Option String :=
  lastName? (components path)

/-- The name of the directory that a path lies in, as far as the path tells. -/
def directoryName? (path : String) : Option String :=
  lastName? (components path).dropLast

/-- The path without slashes and components that do not count. -/
def normalized (path : String) : String :=
  (if isAbsolute path then "/" else "") ++ "/".intercalate (components path)

end PathName

end UnitFile
