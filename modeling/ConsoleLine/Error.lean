import ConsoleLine.Text.Quoted

/-!
# Errors

What can be wrong with a token, a name or a list of tokens that a caller gives.
-/

namespace ConsoleLine

inductive Error where
  /-- No operator has this token. -/
  | unknownToken (t : Text)
  /-- No operator has this name. -/
  | unknownName (n : String)
  /-- A matcher over no token at all, or over an empty one. -/
  | unusableTokens
  deriving DecidableEq, Repr

def Error.message : Error → String
  | unknownToken t => quoted t ++ " is not a valid ControlOperator"
  | unknownName n => quoted n.toList
  | unusableTokens => "matcher needs at least one non-empty token"

end ConsoleLine
