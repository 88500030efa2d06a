import ConsoleLine.Matcher

/-!
# Operators near a cursor

Questions about a line as it is being typed. The raw line is searched: quotes
and escapes have no effect here.

* `clamp`: a cursor may be given anywhere, and counts as the nearest offset of
  the line;
* `Matcher.last?`, `Matcher.lastStop`: the last match that starts at the cursor
  or before it, and where it ends;
* the queries for redirections and for operators that start a new command.
-/

namespace ConsoleLine

variable {α : Type} [Spelled α]

def clamp (line : Text) (cursor : Int) : Nat := min cursor.toNat line.length

/-- The last match that starts at the cursor or before it; it may end after it. -/
def Matcher.last? (mr : Matcher α) (line : Text) (cursor : Int) : Option (Match α) :=
  let c := clamp line cursor
  ((mr.findAll line).takeWhile (·.start ≤ c)).getLast?

/-- Where that match ends, 0 if there is none. -/
def Matcher.lastStop (mr : Matcher α) (line : Text) (cursor : Int) : Nat :=
  (mr.last? line cursor).elim 0 Match.stop

/-! ## Queries -/

def containsRedirection (line : Text) : Bool := (Matcher.redirection.find? line).isSome

def containsPipelineOrEnd (line : Text) : Bool := (Matcher.pipelineAndEnd.find? line).isSome

/-- The offset just past the first redirection, 0 if there is none. -/
def firstRedirectionStop (line : Text) : Nat :=
  (Matcher.redirection.find? line).elim 0 Match.stop

def lastPipelineOrEndStop (line : Text) (cursor : Int) : Nat :=
  Matcher.pipelineAndEnd.lastStop line cursor

def lastRedirectionStop (line : Text) (cursor : Int) : Nat :=
  Matcher.redirection.lastStop line cursor

theorem clamp_mono (line : Text) {c₁ c₂ : Int} (h : c₁ ≤ c₂) : clamp line c₁ ≤ clamp line c₂ := by
  simp only [clamp]
  omega

end ConsoleLine
