import ConsoleLine.Text.Basic

/-!
# Quotes

The two quote characters and which of them is open.

* `QuoteState.toggle`: a quote closes its own kind, opens it when nothing is
  open, and is plain text inside the other kind;
* `QuoteState.feed`, `QuoteState.trace`: the same for any text, of which all but
  the two quotes change nothing;
* `QuoteState.ofText`: the state after a text that is read on its own, where a
  quote after a backslash is plain text.
-/

namespace ConsoleLine

inductive Quote where
  | double
  | single
  deriving DecidableEq, Repr

namespace Quote

def char : Quote → Char
  | double => '"'
  | single => '\''

def token (q : Quote) : Text := [q.char]

instance : Spelled Quote := ⟨token⟩

@[simp] theorem spelled_token (q : Quote) : Spelled.token q = q.token := rfl

def all : List Quote := [double, single]

def ofToken? (t : Text) : Option Quote := all.find? (·.token == t)

theorem ofToken_token (q : Quote) : ofToken? q.token = some q := by cases q <;> decide

end Quote

/-- Starts a character that has no effect of its own. -/
def escape : Char := '\\'

/-- One flag for each kind of quote. From the closed state at most one is ever set. -/
structure QuoteState where
  single : Bool := false
  double : Bool := false
  deriving DecidableEq, Repr

namespace QuoteState

def active (s : QuoteState) : Bool := s.single || s.double

/-- Flips the flag of `q` unless the other kind is open. -/
def toggle (s : QuoteState) : Quote → QuoteState
  | .double => if s.single then s else { s with double := !s.double }
  | .single => if s.double then s else { s with single := !s.single }

/-- A text other than a quote changes nothing. -/
def feed (s : QuoteState) (t : Text) : QuoteState :=
  match Quote.ofToken? t with
  | some q => s.toggle q
  | none => s

/-- The states that a sequence of texts goes through, the first one included. -/
def trace (s : QuoteState) : List Text → List QuoteState
  | [] => [s]
  | t :: r => s :: trace (s.feed t) r

/-- Reads on from `s`, where `before` is the character just read. -/
def read (s : QuoteState) (before : Option Char) : Text → QuoteState
  | [] => s
  | c :: r => (if before = some escape then s else s.feed [c]).read (some c) r

def ofText (t : Text) : QuoteState := ({} : QuoteState).read none t

end QuoteState

end ConsoleLine
