import UnitFile.PathName
import UnitFile.Text.WhiteSpace
import UnitFile.Text.Case
/-!
# Dialects

Unit files come in two dialects, which share sections, keys, values and comments
and differ in two points. systemd files take `#` and `;` as comment signs and
carry a line on after a trailing backslash. mkosi files take `#` alone and carry
a value on over the indented lines below it.
-/

namespace UnitFile

/-- The dialect a unit file is written in. -/
inductive Dialect where
  | systemd
  | mkosi
deriving DecidableEq

namespace Dialect

/-- The name of a dialect. -/
def name : Dialect → String
  | systemd => "systemd"
  | mkosi => "mkosi"

/-- Whether a character at the start of a line makes it a comment. -/
def isCommentSign : Dialect → Char → Bool
  | systemd, c => c == '#' || c == ';'
  | mkosi, c => c == '#'

/-- Whether a trailing backslash carries a line on. -/
def hasEscapes : Dialect → Bool
  | systemd => true
  | mkosi => false

/-- Whether indented lines carry the value above them on. -/
def hasIndentedValues : Dialect → Bool
  | systemd => false
  | mkosi => true

/-- A name that is no dialect's, as it was compared. -/
structure Unknown where
  name : String
deriving DecidableEq

/-- The wording of an unknown dialect. -/
def Unknown.message (e : Unknown) : String :=
  s!"unknown dialect '{e.name}' (expected 'systemd' or 'mkosi')"

/-- The dialect with a given name. White space around the name and the case of
its ASCII letters do not matter. -/
def ofName (s : String) : Except Unknown Dialect :=
  let plain := String.ofList (Text.lowercaseAscii (Text.trim s.toList))
  if plain == systemd.name then .ok systemd
  else if plain == mkosi.name then .ok mkosi
  else .error ⟨plain⟩

/-- The dialect of a file, by its path: `mkosi.*.conf` and `.conf` files in a
directory `mkosi.*.d` are mkosi files, everything else is a systemd unit. -/
def ofPath (path : String) : Dialect :=
  let file := (PathName.fileName? path).getD ""
  let directory := (PathName.directoryName? path).getD ""
  if file.endsWith ".conf" &&
      (file.startsWith "mkosi." || (directory.startsWith "mkosi." && directory.endsWith ".d")) then
    mkosi
  else
    systemd

end Dialect

/-- A choice of dialect, which may be left to the path of the file. -/
inductive DialectChoice where
  | auto
  | always (dialect : Dialect)
deriving DecidableEq

namespace DialectChoice

/-- Every choice. -/
def all : List DialectChoice :=
  [.auto, .always .systemd, .always .mkosi]

/-- The name of a choice. -/
def name : DialectChoice → String
  | auto => "auto"
  | always dialect => dialect.name

/-- The choice with a given name. -/
def ofName? (s : String) : Option DialectChoice :=
  all.find? fun choice => choice.name == s

/-- The dialect a choice means for a file. -/
def resolve (path : String) : DialectChoice → Dialect
  | auto => Dialect.ofPath path
  | always dialect => dialect

end DialectChoice

end UnitFile
