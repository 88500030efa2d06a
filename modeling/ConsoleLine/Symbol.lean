import ConsoleLine.Operator
import ConsoleLine.Quote

/-!
# Symbols

What a line is searched for when it is split: operators and quotes.

* `Symbol.byPriority`: the operators by priority, then the quotes;
* `ofToken_token`: a symbol is identified by its token.
-/

namespace ConsoleLine

inductive Symbol where
  | operator (o : Operator)
  | quote (q : Quote)
  deriving DecidableEq, Repr

namespace Symbol

def token : Symbol → Text
  | operator o => o.token
  | quote q => q.token

instance : Spelled Symbol := ⟨token⟩

@[simp] theorem spelled_token (s : Symbol) : Spelled.token s = s.token := rfl

def byPriority : List Symbol := Operator.byPriority.map operator ++ Quote.all.map quote

/-- Reads a token; one that is no quote has to be an operator's. -/
def ofToken (t : Text) : Except Error Symbol :=
  match Quote.ofToken? t with
  | some q => .ok (quote q)
  | none => (Operator.ofToken t).map operator

theorem ofToken_token (s : Symbol) : ofToken s.token = .ok s := by
  cases s with
  | operator o => cases o <;> rfl
  | quote q => cases q <;> rfl

end Symbol

end ConsoleLine
