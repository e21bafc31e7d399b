import UnitFile.Text.Bytes
/-!
# Text — characters and line breaks

A text is read as a list of symbols: line breaks, `\n` or `\r\n`, and the
characters between them. A `\r` that no `\n` follows is a character like any
other. `flatMap_chars_symbols` says that reading loses nothing.
-/

namespace UnitFile

/-- How a line is ended. -/
inductive LineBreak where
  | lf
  | crlf
deriving DecidableEq

namespace LineBreak

/-- The characters of a line break. -/
def chars : LineBreak → List Char
  | lf => ['\n']
  | crlf => ['\r', '\n']

/-- The number of bytes of a line break. -/
def width : LineBreak → Nat
  | lf => 1
  | crlf => 2

end LineBreak

/-- A line break, or a character within a line. -/
inductive Symbol where
  | char (c : Char)
  | lineBreak (b : LineBreak)
deriving DecidableEq

namespace Symbol

/-- The characters a symbol stands for. -/
def chars : Symbol → List Char
  | char c => [c]
  | lineBreak b => b.chars

end Symbol

/-- The symbols of a text. -/
def symbols : List Char → List Symbol
  | [] => []
  | '\r' :: '\n' :: cs => .lineBreak .crlf :: symbols cs
  | '\n' :: cs => .lineBreak .lf :: symbols cs
  | c :: cs => .char c :: symbols cs

/-- **Reading symbols loses nothing.** -/
theorem flatMap_chars_symbols (cs : List Char) : (symbols cs).flatMap Symbol.chars = cs := by
  fun_induction symbols cs <;> simp_all [Symbol.chars, LineBreak.chars]

/-- **Texts are read piece by piece**, unless a cut goes through a `\r\n`. -/
theorem symbols_append (a b : List Char) (h : a.getLast? = some '\r' → b.head? ≠ some '\n') :
    symbols (a ++ b) = symbols a ++ symbols b := by
  fun_induction symbols a with
  | case1 => simp
  | case2 cs ih => simp [symbols, ih fun hl => h (by simp [List.getLast?_cons, hl])]
  | case3 cs ih => simp [symbols, ih fun hl => h (by simp [List.getLast?_cons, hl])]
  | case4 c cs hcrlf hlf ih =>
    rw [List.cons_append, symbols, ih fun hl => h (by simp [List.getLast?_cons, hl]),
      List.cons_append]
    · intro r hc hr
      cases cs with
      | nil => exact h (by simp [hc]) (by simp_all)
      | cons c' cs =>
        simp only [List.cons_append, List.cons.injEq] at hr
        exact hcrlf cs hc (by rw [hr.1])
    · exact hlf

/-- Spaces and tabs are blank. -/
def isBlank (c : Char) : Bool :=
  c == ' ' || c == '\t'

end UnitFile
