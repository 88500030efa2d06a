import ConsoleLine.Error

/-!
# Control operators

The operators that end a segment of a console line, with their tokens, their
names and their classes.

* `Operator.all`: every operator, in the order of the catalog;
* `Operator.byPriority`: those with a token, each before the shorter ones that
  start it;
* `ofToken_token`, `ofName_name`: token and name both identify the operator.
-/

namespace ConsoleLine

inductive Operator where
  /-- Ends the part of a line that no operator ends. -/
  | unterminated
  | overwriteOut
  | appendOut
  | overwriteErr
  | appendErr
  | overwriteOutAndErr
  | overwriteIn
  | pipe
  | pipeOutAndErr
  | orElse
  | andThen
  | ampersand
  | semicolon
  deriving DecidableEq, Repr

namespace Operator

def all : List Operator :=
  [unterminated, overwriteOut, appendOut, overwriteErr, appendErr, overwriteOutAndErr,
   overwriteIn, pipe, pipeOutAndErr, orElse, andThen, ampersand, semicolon]

theorem mem_all (o : Operator) : o ∈ all := by cases o <;> decide

def token : Operator → Text
  | unterminated => []
  | overwriteOut => ['>']
  | appendOut => ['>', '>']
  | overwriteErr => ['2', '>']
  | appendErr => ['2', '>', '>']
  | overwriteOutAndErr => ['2', '>', '&', '1']
  | overwriteIn => ['<']
  | pipe => ['|']
  | pipeOutAndErr => ['|', '&']
  | orElse => ['|', '|']
  | andThen => ['&', '&']
  | ampersand => ['&']
  | semicolon => [';']

instance : Spelled Operator := ⟨token⟩

@[simp] theorem spelled_token (o : Operator) : Spelled.token o = o.token := rfl

/-- The name by which messages and callers know the operator. -/
def name : Operator → String
  | unterminated => "NONE"
  | overwriteOut => "OVERWRITE_OUT"
  | appendOut => "APPEND_OUT"
  | overwriteErr => "OVERWRITE_ERR"
  | appendErr => "APPEND_ERR"
  | overwriteOutAndErr => "OVERWRITE_OUT_AND_ERR"
  | overwriteIn => "OVERWRITE_IN"
  | pipe => "PIPE"
  | pipeOutAndErr => "PIPE_OUT_AND_ERR"
  | orElse => "OR"
  | andThen => "AND"
  | ampersand => "AMP"
  | semicolon => "END"

def ofToken (t : Text) : Except Error Operator :=
  (all.find? (·.token == t)).elim (.error (.unknownToken t)) .ok

def ofName (n : String) : Except Error Operator :=
  (all.find? (·.name == n)).elim (.error (.unknownName n)) .ok

theorem ofToken_token (o : Operator) : ofToken o.token = .ok o := by cases o <;> rfl

theorem ofName_name (o : Operator) : ofName o.name = .ok o := by cases o <;> rfl

theorem eq_of_token_eq {o p : Operator} (h : o.token = p.token) : o = p := by
  have hok := ofToken_token o
  rw [h, ofToken_token p] at hok
  exact (Except.ok.inj hok).symm

theorem eq_of_name_eq {o p : Operator} (h : o.name = p.name) : o = p := by
  have hok := ofName_name o
  rw [h, ofName_name p] at hok
  exact (Except.ok.inj hok).symm

/-! ## Lists -/

def redirections : List Operator :=
  [overwriteOutAndErr, appendErr, overwriteErr, appendOut, overwriteOut, overwriteIn]

/-- A token comes before every shorter token that starts it. -/
def byPriority : List Operator :=
  redirections ++ [pipeOutAndErr, orElse, pipe, semicolon, andThen, ampersand]

/-- The operators after which a new command is completed. -/
def pipelineAndEnd : List Operator := [pipeOutAndErr, pipe, semicolon]

/-! ## Classes -/

def isRedirection (o : Operator) : Bool := redirections.contains o

/-- Redirects what a command writes. -/
def isRedirectionOut (o : Operator) : Bool := o.isRedirection && o != overwriteIn

/-- Redirects the error output. -/
def isRedirectionErr (o : Operator) : Bool :=
  [overwriteErr, appendErr, overwriteOutAndErr].contains o

def isPipe (o : Operator) : Bool := [pipe, pipeOutAndErr].contains o

/-- Separates the commands of a list. -/
def isListSeparator (o : Operator) : Bool := [semicolon, ampersand, andThen, orElse].contains o

end Operator

end ConsoleLine
