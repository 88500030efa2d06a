import ConsoleLine.Quote

/-!
# Reading quotes

The quotes of a text are read from left to right, and a backslash takes out the
quote after it.

* `ofText_append`: reading goes on from the state and the last character;
* `ofText_append_plain`: text without quotes changes nothing;
* `ofText_append_quote`: what one more quote does.
-/

namespace ConsoleLine

/-- No character of the text is a quote. -/
def Plain (t : Text) : Prop := ∀ c ∈ t, Quote.ofToken? [c] = none

theorem Quote.eq_char_of_ofToken? {c : Char} {q : Quote} (h : Quote.ofToken? [c] = some q) :
    c = q.char := by
  have hq := List.find?_some h
  rw [beq_iff_eq] at hq
  exact (List.cons.inj hq).1.symm

namespace QuoteState

theorem feed_plain {c : Char} (s : QuoteState) (h : Quote.ofToken? [c] = none) :
    s.feed [c] = s := by
  rw [feed, h]

theorem feed_char (s : QuoteState) (q : Quote) : s.feed [q.char] = s.toggle q := by
  have h := q.ofToken_token
  rw [Quote.token] at h
  rw [feed, h]

/-- Just `q` is open. -/
def opened (q : Quote) : QuoteState := ({} : QuoteState).toggle q

theorem active_opened (q : Quote) : (opened q).active = true := by cases q <;> rfl

theorem toggle_opened (q : Quote) : (opened q).toggle q = {} := by cases q <;> rfl

theorem toggle_opened_of_ne {q r : Quote} (h : r ≠ q) : (opened q).toggle r = opened q := by
  cases q <;> cases r <;> first | exact absurd rfl h | rfl

theorem read_append (s : QuoteState) (before : Option Char) (t r : Text) :
    s.read before (t ++ r) = (s.read before t).read (t.getLast?.or before) r := by
  induction t generalizing s before with
  | nil => rfl
  | cons c t ih =>
    have hlast : (c :: t).getLast?.or before = t.getLast?.or (some c) := by
      cases ht : t.getLast? <;> simp [List.getLast?_cons, ht]
    rw [hlast, List.cons_append, read, ih, read]

theorem read_plain (s : QuoteState) (before : Option Char) {t : Text} (h : Plain t) :
    s.read before t = s := by
  induction t generalizing before with
  | nil => rfl
  | cons c t ih =>
    have hc := s.feed_plain (h c List.mem_cons_self)
    rw [read, hc, ite_self]
    exact ih _ fun d hd => h d (List.mem_cons_of_mem c hd)

theorem ofText_append (t r : Text) : ofText (t ++ r) = (ofText t).read t.getLast? r := by
  rw [ofText, read_append, Option.or_none, ofText]

theorem ofText_append_plain (t : Text) {r : Text} (h : Plain r) : ofText (t ++ r) = ofText t := by
  rw [ofText_append, read_plain _ _ h]

theorem ofText_append_quote (t : Text) (q : Quote) :
    ofText (t ++ q.token) =
      if t.getLast? = some escape then ofText t else (ofText t).toggle q := by
  rw [ofText_append, Quote.token, read, read, feed_char]

theorem eq_empty_of_not_active {s : QuoteState} (h : s.active = false) : s = {} := by
  obtain ⟨hs, hd⟩ := Bool.or_eq_false_iff.mp h
  exact congr (congrArg mk hs) hd

end QuoteState

end ConsoleLine
