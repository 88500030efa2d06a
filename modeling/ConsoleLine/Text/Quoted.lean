import ConsoleLine.Text.Printable

/-!
# Quoted display form

How a text is shown inside a message: between quotes, with every character
that would not print, and the enclosing quote and the backslash, written as an
escape.

* `enclosing`: single quotes, unless the text holds those and no double ones;
* `escaped`: the written form of one character;
* `quoted`: the whole.
-/

namespace ConsoleLine

def enclosing (t : Text) : Char := if t.contains '\'' && !t.contains '"' then '"' else '\''

/-- `n` in lower-case hexadecimal, at least `width` digits wide. -/
def hex (width n : Nat) : Text := (Nat.toDigits 16 n).leftpad width '0'

/-- A code point by number, in the shortest of the three widths that holds it. -/
def numbered (n : Nat) : Text :=
  if n < 0x100 then '\\' :: 'x' :: hex 2 n
  else if n < 0x10000 then '\\' :: 'u' :: hex 4 n
  else '\\' :: 'U' :: hex 8 n

def escaped (quote c : Char) : Text :=
  if c = quote ∨ c = '\\' then ['\\', c]
  else if c = '\t' then ['\\', 't']
  else if c = '\n' then ['\\', 'n']
  else if c = '\r' then ['\\', 'r']
  else if isPrintable c then [c]
  else numbered c.toNat

def quoted (t : Text) : String :=
  let quote := enclosing t
  String.ofList (quote :: t.flatMap (escaped quote) ++ [quote])

end ConsoleLine
