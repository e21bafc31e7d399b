import UnitFile.Lexer.Tokenize
/-!
# Sample files

Unit files for trying the library out: a plain service, continued lines, regions,
malformed lines, lines ended by `\r\n`, and two mkosi files.
-/

namespace UnitFile

/-- A file of a given name. -/
structure Sample where
  name : String
  text : String
deriving DecidableEq

namespace Sample

/-- The dialect of a sample, by its name. -/
def dialect (s : Sample) : Dialect :=
  Dialect.ofPath s.name

/-- The tokens of a sample. -/
def tokens (s : Sample) : List Token :=
  (tokenize s.dialect s.text).tokens

/-- A plain service. -/
def basic : Sample where
  name := "basic.service"
  text :=
    "# Basic web service\n[Unit]\nDescription=Example web server\n" ++
    "Documentation=man:nginx(8)\nAfter=network-online.target\nWants=network-online.target\n\n" ++
    "[Service]\nType=forking\nPIDFile=/run/nginx.pid\nExecStartPre=/usr/sbin/nginx -t\n" ++
    "ExecStart=/usr/sbin/nginx\nExecReload=/usr/sbin/nginx -s reload\nRestart=on-failure\n\n" ++
    "[Install]\nWantedBy=multi-user.target\n"

/-- A service with lines carried on by a backslash. -/
def continuation : Sample where
  name := "continuation.service"
  text :=
    "[Unit]\nDescription=Service with continued command lines\n\n[Service]\n" ++
    "ExecStart=/usr/bin/daemon \\\n    --config /etc/daemon.conf \\\n" ++
    "    # the next flag is optional\n    --verbose\nEnvironment=\"A=1\" \\\n  \"B=2\"\n" ++
    "ExecStop=/bin/kill \\\n\nRestart=always\n"

/-- A service with regions. -/
def regions : Sample where
  name := "regions.service"
  text :=
    ";region networking\n[Unit]\n; ordering\n; dependencies\nAfter=network.target\n" ++
    "Requires=network.target\n;endregion\n\n# region runtime\n[Service]\n" ++
    "ExecStart=/usr/bin/app\n# endregion\n"

/-- A service with malformed lines. -/
def malformed : Sample where
  name := "malformed.service"
  text :=
    "[Unit\nDescription=missing bracket above\n=orphan value\nJustAKey\n" ++
    "[Service] trailing junk\nKey==double\n  ; indented comment\n[]\n"

/-- A service with lines ended by `\r\n`. -/
def crlf : Sample where
  name := "crlf.service"
  text :=
    "[Unit]\r\nDescription=CRLF service\r\n# comment\r\nExecStart=/bin/true \\\r\n  --flag\r\n" ++
    "\r\n[Install]\r\nWantedBy=default.target\r\n"

/-- A mkosi file with indented values. -/
def mkosi : Sample where
  name := "mkosi.conf"
  text :=
    "[Distribution]\nDistribution=fedora\nRelease=40\n\n[Content]\n# Packages to install\n" ++
    "Packages=\n    systemd\n    # editors\n    vim\n    git\nBootable=yes\n" ++
    "KernelCommandLine=console=ttyS0\n    quiet\n\n[Output]\nFormat=disk\n"

/-- A mkosi file in a directory of its own. -/
def mkosiDropIn : Sample where
  name := "mkosi.conf.d/10-debug.conf"
  text :=
    "[Match]\nProfiles=debug\n\n[Content]\nPackages=gdb\n         strace\n" ++
    "; not a comment in mkosi\n"

/-- Every sample. -/
def all : List Sample :=
  [basic, continuation, regions, malformed, crlf, mkosi, mkosiDropIn]

/-- The sample with a given name. -/
def find? (name : String) : Option Sample :=
  all.find? fun s => s.name == name

/-- The wording for a name that no sample has. -/
def unknownMessage (name : String) : String :=
  s!"unknown fixture {name}"

end Sample

end UnitFile
