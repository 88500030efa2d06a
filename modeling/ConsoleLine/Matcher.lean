import ConsoleLine.Symbol

/-!
# Matchers

A matcher looks for the tokens of a list of symbols. The leftmost occurrence
wins and, of tokens that occur at one place, the earliest in the list.

* `first?`: the symbol whose token starts a text;
* `cut`: a text taken apart at the matches that do not overlap, from left to
  right, so that nothing of it is lost (`text_cut`);
* `findAll`, `find?`: all those matches, and the first one from an offset on;
* `control`, `redirection`, `pipelineAndEnd`: the standard matchers.
-/

namespace ConsoleLine

variable {α : Type} [Spelled α]

/-- A symbol whose token starts at an offset of the text searched. -/
structure Match (α : Type) where
  symbol : α
  start : Nat
  deriving DecidableEq, Repr

def Match.token (m : Match α) : Text := Spelled.token m.symbol

/-- The offset just past a token; a start that a caller gives may be negative. -/
def stopOf (start : Int) (t : Text) : Int := start + t.length

def Match.stop (m : Match α) : Nat := m.start + m.token.length

/-! ## Cuts -/

/-- A match, with the text between it and the match before. -/
structure Piece (α : Type) where
  gap : Text
  symbol : α
  deriving DecidableEq, Repr

/-- A text as its pieces and what follows the last of them. -/
structure Cut (α : Type) where
  pieces : List (Piece α)
  tail : Text
  deriving DecidableEq, Repr

def Piece.text (p : Piece α) : Text := p.gap ++ token p.symbol

def Cut.text (c : Cut α) : Text := c.pieces.flatMap Piece.text ++ c.tail

/-- The first character of the text; no token is empty. -/
def Cut.head? (c : Cut α) : Option Char :=
  match c.pieces with
  | [] => c.tail.head?
  | p :: _ => p.gap.head? <|> (token p.symbol).head?

theorem Cut.text_cons (p : Piece α) (ps : List (Piece α)) (tail : Text) :
    Cut.text ⟨p :: ps, tail⟩ = p.gap ++ (token p.symbol ++ Cut.text ⟨ps, tail⟩) := by
  simp [Cut.text, Piece.text]

/-- The matches of pieces that start at offset `i`. -/
def locate (i : Nat) : List (Piece α) → List (Match α)
  | [] => []
  | p :: ps =>
    let m : Match α := ⟨p.symbol, i + p.gap.length⟩
    m :: locate m.stop ps

/-! ## Searching -/

/-- The characters with which a token of the list starts. -/
def leads (l : List α) : List Char := (l.filterMap fun s => (token s).head?).eraseDups

structure Matcher (α : Type) [Spelled α] where
  symbols : List α
  leading : List Char := leads symbols
  leading_eq : leading = leads symbols := by rfl
  symbols_ne_nil : symbols ≠ [] := by decide
  token_ne_nil : ∀ s ∈ symbols, token s ≠ [] := by decide

namespace Matcher

/-- An empty token would occur everywhere and never let a search go on. -/
def ofSymbols (l : List α) : Except Error (Matcher α) :=
  if h : l ≠ [] ∧ ∀ s ∈ l, token s ≠ [] then
    .ok { symbols := l, symbols_ne_nil := h.1, token_ne_nil := h.2 }
  else .error .unusableTokens

/-- The first symbol of the list whose token starts the text. A character that
starts no token is passed over at once. -/
def first? (mr : Matcher α) : Text → Option α
  | [] => none
  | c :: r =>
    if mr.leading.contains c then mr.symbols.find? fun s => (token s).isPrefixOf (c :: r)
    else none

/-- Skips the first `skip` characters, which belong to the match before; `gap`
holds what follows that match, last character first. -/
def cutFrom (mr : Matcher α) (skip : Nat) (gap : Text) : Text → Cut α
  | [] => ⟨[], gap.reverse⟩
  | c :: r =>
    match skip with
    | skip + 1 => cutFrom mr skip gap r
    | 0 =>
      match mr.first? (c :: r) with
      | none => cutFrom mr 0 (c :: gap) r
      | some s =>
        let rest := cutFrom mr ((token s).length - 1) [] r
        ⟨⟨gap.reverse, s⟩ :: rest.pieces, rest.tail⟩

def cut (mr : Matcher α) (t : Text) : Cut α := mr.cutFrom 0 [] t

/-- The matches that do not overlap, from left to right. -/
def findAll (mr : Matcher α) (t : Text) : List (Match α) := locate 0 (mr.cut t).pieces

/-- The first match in a text that starts at offset `i`. -/
def findFrom? (mr : Matcher α) (i : Nat) : Text → Option (Match α)
  | [] => none
  | c :: r =>
    match mr.first? (c :: r) with
    | some s => some ⟨s, i⟩
    | none => findFrom? mr (i + 1) r

/-- The first match that starts at `pos` or after it. -/
def find? (mr : Matcher α) (t : Text) (pos : Int := 0) : Option (Match α) :=
  mr.findFrom? pos.toNat (t.drop pos.toNat)

def tokens (mr : Matcher α) : List Text := mr.symbols.map token

def describe (mr : Matcher α) : String :=
  "OperatorMatcher([" ++ ", ".intercalate (mr.tokens.map quoted) ++ "])"

/-! ## The standard matchers -/

/-- Everything that matters when a line is split. -/
def control : Matcher Symbol := { symbols := Symbol.byPriority }

def redirection : Matcher Operator := { symbols := Operator.redirections }

def pipelineAndEnd : Matcher Operator := { symbols := Operator.pipelineAndEnd }

end Matcher

/-! ## Nothing is passed over and nothing is lost -/

theorem mem_leads {l : List α} {s : α} {c : Char} {r : Text} (hs : s ∈ l)
    (ht : token s = c :: r) : c ∈ leads l := by
  simp only [leads, List.mem_eraseDups, List.mem_filterMap]
  exact ⟨s, hs, by simp [ht]⟩

namespace Matcher

theorem first?_eq (mr : Matcher α) (t : Text) :
    mr.first? t = mr.symbols.find? fun s => (token s).isPrefixOf t := by
  have hnone : ∀ t, (∀ c r, t = c :: r → c ∉ mr.leading) →
      mr.symbols.find? (fun s => (token s).isPrefixOf t) = none := by
    intro t ht
    rw [List.find?_eq_none]
    intro s hs hp
    cases hk : token s with
    | nil => exact mr.token_ne_nil s hs hk
    | cons c k =>
      obtain ⟨u, rfl⟩ := List.isPrefixOf_iff_prefix.1 (hk ▸ hp)
      exact ht c (k ++ u) rfl (mr.leading_eq ▸ mem_leads hs hk)
  cases t with
  | nil => exact (hnone [] (by simp)).symm
  | cons c r =>
    by_cases hc : c ∈ mr.leading
    · simp [first?, hc]
    · simp only [first?, List.contains_iff_mem, hc, ↓reduceIte]
      exact (hnone _ (by rintro _ _ ⟨⟩; exact hc)).symm

theorem prefix_of_first? {mr : Matcher α} {t : Text} {s : α} (h : mr.first? t = some s) :
    s ∈ mr.symbols ∧ token s <+: t := by
  rw [first?_eq] at h
  exact ⟨List.mem_of_find?_eq_some h,
    List.isPrefixOf_iff_prefix.1 (List.find?_some (p := fun s => (token s).isPrefixOf t) h)⟩

theorem text_cutFrom (mr : Matcher α) (skip : Nat) (gap t : Text) :
    (mr.cutFrom skip gap t).text = gap.reverse ++ t.drop skip := by
  induction t generalizing skip gap with
  | nil => simp [cutFrom, Cut.text]
  | cons c r ih =>
    cases skip with
    | succ skip => simp [cutFrom, ih]
    | zero =>
      cases h : mr.first? (c :: r) with
      | none => simp [cutFrom, h, ih]
      | some s =>
        obtain ⟨hs, u, hu⟩ := prefix_of_first? h
        have hrest := ih ((token s).length - 1) []
        simp only [Cut.text, List.reverse_nil, List.nil_append] at hrest
        simp only [cutFrom, h, Cut.text, Piece.text, List.flatMap_cons, List.append_assoc, hrest,
          List.drop_zero, List.append_cancel_left_eq]
        cases hk : token s with
        | nil => exact absurd hk (mr.token_ne_nil s hs)
        | cons d k =>
          rw [hk] at hu
          obtain ⟨rfl, rfl⟩ := List.cons.inj hu
          simp

theorem text_cut (mr : Matcher α) (t : Text) : (mr.cut t).text = t := by
  simp [cut, text_cutFrom]

end Matcher

end ConsoleLine
