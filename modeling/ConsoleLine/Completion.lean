import ConsoleLine.Cursor
import ConsoleLine.Text.Blank

/-!
# Completion

Which part of a line tab completion works on.

* `Target.ofCursor`: the text from the last operator that matters to the cursor;
* `Target.word`: the word being typed;
* `Target.isCommand`: whether that word names a command.
-/

namespace ConsoleLine

/-- The text to complete, where it starts in the line, and whether it is the file
that a redirection asks for. -/
structure Target where
  offset : Int
  text : Text
  afterRedirection : Bool := false
  deriving DecidableEq, Repr

namespace Target

/-- The last word of the text; after a blank a new one has not been started. -/
def word (t : Target) : Text :=
  if endsBlank t.text then [] else (words t.text).getLast?.getD []

/-- The first word of a command is still being typed. -/
def isCommand (t : Target) : Bool :=
  !t.afterRedirection && !(skipBlanks t.text).any isBlank

/-- The text starts after the last `|`, `|&` or `;` before the cursor, or after the
last redirection when that ends later. `2>&1` asks for no file and moves nothing. -/
def ofCursor (line : Text) (cursor : Int) : Target :=
  let c := clamp line cursor
  let pipelineStop := lastPipelineOrEndStop line cursor
  let file := (Matcher.redirection.last? line cursor).filter fun m =>
    decide (pipelineStop < m.stop) && m.symbol != .overwriteOutAndErr
  let offset := min (file.elim pipelineStop Match.stop) c
  ⟨offset, (line.take c).drop offset, file.isSome⟩

end Target

/-- The word at the cursor. -/
def currentWord (line : Text) (cursor : Int) : Text := (Target.ofCursor line cursor).word

end ConsoleLine
