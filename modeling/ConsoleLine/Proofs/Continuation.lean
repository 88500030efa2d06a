import ConsoleLine.Proofs.Enclosed
import ConsoleLine.Proofs.RoundTrip
import ConsoleLine.Proofs.TypingOn

/-!
# Lines that go on

What a semicolon or a quote does at the end of a line depends only on the quotes that are
open in the text that the last split leaves over.

* `start_ne_of_active`: behind an open quote an operator ends no segment;
* `ended_append_semicolon`: behind closed quotes a semicolon joins two lines that are split
  each on its own, behind an open one it does not split;
* `Quote.guarded_cons`: a text in which each `q` comes after a backslash, one character at a
  time;
* `splitLine_append_guarded`: nothing splits behind a quote that is not closed again.
-/

namespace ConsoleLine

/-! ## A semicolon -/

theorem start_lt_length {line : Text} {f : Finding} (h : f ∈ (survey line).findings) :
    f.start < line.length :=
  Nat.lt_of_lt_of_le (start_lt_stop (place_mem_findAll h)) (stop_le_length (place_mem_findAll h))

/-- **An operator behind an open quote ends no segment.** -/
theorem start_ne_of_active {a t : Text} {o : Operator}
    (hapart : Matcher.control.Apart a (o.token ++ t))
    (hfirst : Matcher.control.first? (o.token ++ t) = some (.operator o))
    (hopen : (QuoteState.ofText (remainder a)).active = true) :
    ∀ l ∈ locateSegments 0 (ended (a ++ (o.token ++ t))), l.1 ≠ a.length := by
  obtain ⟨ho, -⟩ := Matcher.prefix_of_first? hfirst
  have hpos : 0 < o.token.length := List.length_pos_iff.mpr (Matcher.control.token_ne_nil _ ho)
  rw [remainder_eq] at hopen
  have hstep := surveyAt_symbol a.length (unsplit a) (s := .operator o) hfirst
  rw [judge_unsplit_of_active o t.head? hopen] at hstep
  have hhead := Operator.head?_append_ne (Matcher.ne_unterminated_of_mem ho) t
  rw [locateSegments_ended, survey_append hapart hhead]
  simp only [Symbol.token] at hstep
  rw [hstep]
  intro l hl
  obtain ⟨f, hf, hlocated⟩ := List.mem_filterMap.mp hl
  obtain ⟨s, hs, rfl⟩ := Option.map_eq_some_iff.mp hlocated
  rcases List.mem_append.mp hf with hf | hf
  · exact Nat.ne_of_lt (start_lt_length hf)
  · rcases List.mem_cons.mp hf with rfl | hf
    · cases hs
    · have hstart := start_of_mem_surveyAt hf
      simp only
      omega

/-- **Lines joined by a semicolon are split each on its own**, unless the first one leaves a
quote open: then the semicolon does not split. -/
theorem ended_append_semicolon (a b : Text) :
    (QuoteState.ofText (remainder a) = {} →
      ended (a ++ ';' :: b) = ended a ++ ⟨.semicolon, remainder a⟩ :: ended b ∧
        remainder (a ++ ';' :: b) = remainder b) ∧
    ((QuoteState.ofText (remainder a)).active = true →
      ∀ l ∈ locateSegments 0 (ended (a ++ ';' :: b)), l.1 ≠ a.length) := by
  have hline : ';' :: b = Operator.semicolon.token ++ b := rfl
  have hapart := Matcher.apart_semicolon a b
  have hfirst := Matcher.first?_semicolon b
  rw [hline]
  exact ⟨fun hclosed => ended_append_operator hapart hfirst hclosed rfl,
    start_ne_of_active hapart hfirst⟩

/-- An arrow head and a backslash before the semicolon do not matter; a quote that is open
there does. -/
theorem ended_append_semicolon_backslash :
    QuoteState.ofText (remainder ['w', '|', 'x', '=', '>', '\\']) = {} ∧
      ended (['w', '|', 'x', '=', '>', '\\'] ++ ';' :: ['|', 'y', '&']) =
        ended ['w', '|', 'x', '=', '>', '\\'] ++
          ⟨.semicolon, remainder ['w', '|', 'x', '=', '>', '\\']⟩ :: ended ['|', 'y', '&'] ∧
      remainder (['w', '|', 'x', '=', '>', '\\'] ++ ';' :: ['|', 'y', '&']) =
        remainder ['|', 'y', '&'] ∧
      (QuoteState.ofText (remainder ['w', '|', '\'', '"'])).active = true ∧
      ∀ l ∈ locateSegments 0 (ended (['w', '|', '\'', '"'] ++ ';' :: ['\'', '>', 'f'])),
        l.1 ≠ ['w', '|', '\'', '"'].length := by
  have hclosed : QuoteState.ofText (remainder ['w', '|', 'x', '=', '>', '\\']) = {} := by decide
  have hopen : (QuoteState.ofText (remainder ['w', '|', '\'', '"'])).active = true := by decide
  obtain ⟨hended, hremainder⟩ := (ended_append_semicolon _ ['|', 'y', '&']).1 hclosed
  exact ⟨hclosed, hended, hremainder, hopen, (ended_append_semicolon _ _).2 hopen⟩

/-! ## A quote that is not closed again -/

namespace Quote

theorem guarded_nil (q : Quote) (before : Option Char) : q.Guarded before [] := by
  intro x y h
  exact absurd h.symm (List.append_ne_nil_of_right_ne_nil x (List.cons_ne_nil _ _))

theorem guarded_cons {q : Quote} {before : Option Char} {c : Char} {b : Text} :
    q.Guarded before (c :: b) ↔
      (c = q.char → before = some escape) ∧ q.Guarded (some c) b := by
  have hlast : ∀ x : Text, (c :: x).getLast?.or before = x.getLast?.or (some c) := by
    intro x
    rw [List.getLast?_cons, Option.some_or, Option.or_some]
  constructor
  · intro h
    refine ⟨fun hc => h [] b (by rw [hc]; rfl), fun x y hb => ?_⟩
    rw [← hlast]
    exact h (c :: x) y (by rw [hb]; rfl)
  · rintro ⟨hc, hb⟩ x y h
    cases x with
    | nil => exact hc (List.cons.inj h).1
    | cons d x =>
      obtain ⟨rfl, hy⟩ := List.cons.inj h
      rw [hlast]
      exact hb x y hy

instance decidableGuarded (q : Quote) (before : Option Char) :
    (b : Text) → Decidable (q.Guarded before b)
  | [] => isTrue (q.guarded_nil before)
  | c :: b =>
    haveI := decidableGuarded q (some c) b
    decidable_of_iff _ guarded_cons.symm

end Quote

/-- Before a longer text each `q` still comes after a backslash. -/
theorem Quote.Guarded.of_none {q : Quote} {b : Text} (h : q.Guarded none b)
    (before : Option Char) : q.Guarded before b := by
  intro x y hb
  have hlast := h x y hb
  rw [Option.or_none] at hlast
  rw [hlast, Option.some_or]

/-- Behind a quote that is not closed again nothing splits. -/
theorem ended_append_guarded {q : Quote} {a b : Text}
    (hclosed : QuoteState.ofText (remainder a) = {})
    (hlast : (remainder a).getLast? ≠ some escape) (hb : q.Guarded none b) :
    ended (a ++ (q.token ++ b)) = ended a := by
  have hquotes : (unsplit a).quotes = {} := by rw [quotes_unsplit, ← remainder_eq, hclosed]
  have hapart : Matcher.control.Apart b [] := Matcher.apart_of_head? b (by simp)
  rw [← last?_unsplit] at hlast
  obtain ⟨fs, hfs, hopen⟩ := surveyAt_open a.length hquotes hlast (hb.of_none _) hapart
  have hnone : fs.filterMap Finding.segment? = [] := List.filterMap_eq_nil_iff.mpr hfs
  rw [List.append_nil] at hopen
  rw [ended_eq, ended_eq, survey_append_quote, hopen, Survey.prepend_prepend,
    Survey.segments_prepend, List.filterMap_append, hnone, List.append_nil]
  exact List.append_nil _

/-- **A quote that is not closed again keeps the rest of the line in one piece.** -/
theorem splitLine_append_guarded {q : Quote} {a b : Text}
    (hclosed : QuoteState.ofText (remainder a) = {})
    (hlast : (remainder a).getLast? ≠ some escape) (hb : q.Guarded none b) :
    ended (a ++ (q.token ++ b)) = ended a ∧
      splitLine (a ++ (q.token ++ b)) =
        ended a ++ List.replicate (if ended a = [] then 2 else 1)
          ⟨.unterminated, remainder a ++ (q.token ++ b)⟩ := by
  have hended := ended_append_guarded hclosed hlast hb
  have hrest := remainder_append hended
  refine ⟨hended, ?_⟩
  rw [splitLine_eq, ← ended_eq, ← remainder_eq, hended, hrest, not_allBlank_of_quote]
  split <;> rfl

/-- Operators, a quote of the other kind and an escaped one behind the open quote, and an
operator before it that stands at the end of its line. -/
theorem splitLine_append_guarded_escaped :
    QuoteState.ofText (remainder ['w', ';', 'x', '>']) = {} ∧
      (remainder ['w', ';', 'x', '>']).getLast? ≠ some escape ∧
      Quote.double.Guarded none ['|', '\\', '"', '\'', ';'] ∧
      ended (['w', ';', 'x', '>'] ++ (Quote.double.token ++ ['|', '\\', '"', '\'', ';'])) =
        ended ['w', ';', 'x', '>'] ∧
      splitLine
          (['w', ';', 'x', '>'] ++ (Quote.double.token ++ ['|', '\\', '"', '\'', ';'])) =
        ended ['w', ';', 'x', '>'] ++
          List.replicate (if ended ['w', ';', 'x', '>'] = [] then 2 else 1)
            ⟨.unterminated, remainder ['w', ';', 'x', '>'] ++
              (Quote.double.token ++ ['|', '\\', '"', '\'', ';'])⟩ := by
  have hclosed : QuoteState.ofText (remainder ['w', ';', 'x', '>']) = {} := by decide
  have hlast : (remainder ['w', ';', 'x', '>']).getLast? ≠ some escape := by decide
  have hb : Quote.double.Guarded none ['|', '\\', '"', '\'', ';'] := by decide
  exact ⟨hclosed, hlast, hb, splitLine_append_guarded hclosed hlast hb⟩

end ConsoleLine
