import ConsoleLine.Proofs.Token
import ConsoleLine.Segment

/-!
# Surveys in parts

A survey carries one state along, the text since the last split and the quotes
open in it, so it can be taken apart at any piece of a cut.

* `surveyFrom_shift`: only the offsets depend on where a survey starts;
* `surveyFrom_append`: a survey of some pieces, and of those after them from the
  state that the first ones leave;
* `Settled`: the open quotes are always those of the text since the last split,
  read on its own (`Settled.through`), also at the end of a line (`quotes_unsplit`).
-/

namespace ConsoleLine

/-! ## Offsets -/

def Finding.shift (k : Nat) (f : Finding) : Finding := ⟨f.start + k, f.verdict⟩

def Notice.shift (k : Nat) : Notice → Notice
  | split o start => split o (start + k)
  | ignored o start => ignored o (start + k)

theorem filterMap_segment?_shift (k : Nat) (fs : List Finding) :
    (fs.map (Finding.shift k)).filterMap Finding.segment? = fs.filterMap Finding.segment? := by
  rw [List.filterMap_map]
  rfl

theorem filterMap_notice?_shift (k : Nat) (fs : List Finding) :
    (fs.map (Finding.shift k)).filterMap Finding.notice? =
      (fs.filterMap Finding.notice?).map (Notice.shift k) := by
  have hshift : ∀ f : Finding, (f.shift k).notice? = f.notice?.map (Notice.shift k) := by
    rintro ⟨i, v⟩
    cases v <;> rfl
  rw [List.filterMap_map, List.map_filterMap]
  exact congrArg (fun g => List.filterMap g fs) (funext hshift)

theorem surveyFrom_shift (k i : Nat) (u : Unsplit) (tail : Text) (ps : List (Piece Symbol)) :
    surveyFrom (i + k) u tail ps =
      ⟨(surveyFrom i u tail ps).findings.map (Finding.shift k),
        (surveyFrom i u tail ps).rest⟩ := by
  induction ps generalizing i u with
  | nil => rfl
  | cons p ps ih =>
    have hstart : i + k + p.gap.length = i + p.gap.length + k := by omega
    have hnext : i + p.gap.length + k + p.symbol.token.length =
        i + p.gap.length + p.symbol.token.length + k := by omega
    simp only [surveyFrom, hstart, hnext, ih, List.map_cons, Finding.shift]

/-- The verdict on a symbol is about the place where the symbol stands. -/
theorem place_judge (i : Nat) (u : Unsplit) (next : Option Char) (s : Symbol) :
    Finding.place ⟨i, u.judge next s⟩ = ⟨s, i⟩ := by
  rw [Finding.place, Unsplit.symbol_judge]

theorem place_mem_findAll {line : Text} {f : Finding} (h : f ∈ (survey line).findings) :
    f.place ∈ Matcher.control.findAll line := by
  rw [← map_place_survey]
  exact List.mem_map_of_mem h

theorem segment?_judge_quote (i : Nat) (u : Unsplit) (next : Option Char) (q : Quote) :
    Finding.segment? ⟨i, u.judge next (.quote q)⟩ = none := by
  rw [Unsplit.judge]
  split <;> rfl

/-! ## The next character -/

theorem Operator.admits_congr (o : Operator) (before : Option Char) {next next' : Option Char}
    (h : next = some equals ↔ next' = some equals) :
    o.admits before next = o.admits before next' := by
  have hne : (next != some equals) = (next' != some equals) := by
    rw [Bool.eq_iff_iff, bne_iff_ne, bne_iff_ne, Ne, Ne, h]
  cases o <;> simp only [admits, hne]

theorem Unsplit.judge_congr (u : Unsplit) (s : Symbol) {next next' : Option Char}
    (h : next = some equals ↔ next' = some equals) : u.judge next s = u.judge next' s := by
  cases s with
  | quote q => rfl
  | operator o => simp only [judge, o.admits_congr u.last? h]

theorem Cut.head?_eq {ps : List (Piece Symbol)} (tail : Text)
    (h : ∀ p ∈ ps, token p.symbol ≠ []) : Cut.head? ⟨ps, tail⟩ = (Cut.text ⟨ps, tail⟩).head? := by
  cases ps with
  | nil => rfl
  | cons p ps =>
    have hp := h p List.mem_cons_self
    rw [Cut.text_cons, List.head?_append, List.head?_append]
    cases ht : (token p.symbol).head? with
    | none => exact absurd (List.head?_eq_none_iff.mp ht) hp
    | some c =>
      change (p.gap.head? <|> (token p.symbol).head?) = _
      rw [ht]
      cases p.gap.head? <;> rfl

theorem Matcher.token_ne_nil_of_greedy {tail : Text} {ps : List (Piece Symbol)}
    (h : control.Greedy tail ps) : ∀ p ∈ ps, token p.symbol ≠ [] :=
  fun _ hp => control.token_ne_nil _ (symbol_mem_of_greedy h hp)

theorem Matcher.head?_cut (t : Text) : (control.cut t).head? = t.head? :=
  (Cut.head?_eq _ (token_ne_nil_of_greedy (control.greedy_cut t))).trans
    (congrArg List.head? (control.text_cut t))

/-! ## One part after another -/

namespace Unsplit

/-- What the pieces before `tail` leave unsplit. -/
def through (u : Unsplit) (tail : Text) : List (Piece Symbol) → Unsplit
  | [] => u
  | p :: ps =>
    let u := u.push p.gap
    (u.after (u.judge (Cut.head? ⟨ps, tail⟩) p.symbol)).through tail ps

end Unsplit

theorem rest_surveyFrom (i : Nat) (u : Unsplit) (tail : Text) (ps : List (Piece Symbol)) :
    (surveyFrom i u tail ps).rest = ((u.through tail ps).push tail).text := by
  induction ps generalizing i u with
  | nil => rfl
  | cons p ps ih => exact ih _ _

/-- **A survey in two parts.** Only whether `=` comes next reaches across the border. -/
theorem surveyFrom_append (i : Nat) (u : Unsplit) {tail border : Text}
    {qs : List (Piece Symbol)}
    (h : Cut.head? ⟨qs, tail⟩ = some equals ↔ border.head? = some equals)
    (ps : List (Piece Symbol)) :
    surveyFrom i u tail (ps ++ qs) =
      let s := surveyFrom (i + (ps.flatMap Piece.text).length) (u.through border ps) tail qs
      ⟨(surveyFrom i u border ps).findings ++ s.findings, s.rest⟩ := by
  induction ps generalizing i u with
  | nil => rfl
  | cons p ps ih =>
    have hhead : Cut.head? ⟨ps ++ qs, tail⟩ = some equals ↔
        Cut.head? ⟨ps, border⟩ = some equals := by
      cases ps with
      | nil => exact h
      | cons q ps => rfl
    have hv := (u.push p.gap).judge_congr p.symbol hhead
    have hi : i + p.gap.length + p.symbol.token.length + (ps.flatMap Piece.text).length =
        i + ((p :: ps).flatMap Piece.text).length := by
      simp [Piece.text]; omega
    simp only [List.cons_append, surveyFrom, Unsplit.through, hv, ih, hi]

/-! ## Open quotes -/

namespace Unsplit

/-- The open quotes are those of the unsplit text, read on its own. -/
def Settled (u : Unsplit) : Prop := u.quotes = QuoteState.ofText u.text

theorem settled_empty : Settled {} := rfl

theorem last?_eq (u : Unsplit) : u.last? = u.text.getLast? := by
  rw [last?, text, List.getLast?_reverse]

theorem Settled.push {u : Unsplit} (h : u.Settled) {t : Text} (ht : Plain t) :
    (u.push t).Settled := by
  rw [Settled, text_push, QuoteState.ofText_append_plain _ ht]
  exact h

/-- One symbol keeps the quotes in step with the text. -/
theorem Settled.after_judge {u : Unsplit} (h : u.Settled) (next : Option Char) (s : Symbol) :
    (u.after (u.judge next s)).Settled := by
  cases s with
  | quote q =>
    have htext := QuoteState.ofText_append_quote u.text q
    rw [← last?_eq, ← h] at htext
    by_cases hq : u.last? = some escape
    · rw [if_pos hq] at htext
      have hpush : (u.push q.token).Settled := by
        rw [Settled, text_push]; exact htext.symm
      rw [judge, if_pos hq]
      exact hpush
    · rw [if_neg hq] at htext
      rw [judge, if_neg hq, after, Settled]
      change u.quotes.toggle q = QuoteState.ofText (u.push q.token).text
      rw [text_push, htext]
  | operator o =>
    have hpush : (u.push o.token).Settled := h.push (Matcher.plain_token o)
    rw [judge]
    cases u.quotes.active with
    | true => exact hpush
    | false =>
      cases o.admits u.last? next with
      | true => exact settled_empty
      | false => exact hpush

/-- A split happens outside quotes. -/
theorem closed_of_judge {u : Unsplit} {next : Option Char} {s : Symbol} {o : Operator}
    {t : Text} (h : u.judge next s = .splits o t) : u.quotes = {} := by
  obtain ⟨rfl, -⟩ := eq_of_judge_eq_splits h
  apply QuoteState.eq_empty_of_not_active
  cases hq : u.quotes.active with
  | false => rfl
  | true => rw [judge, hq] at h; cases h

theorem Settled.through {u : Unsplit} (h : u.Settled) {tail : Text} {ps : List (Piece Symbol)}
    (hg : Matcher.control.Greedy tail ps) : (u.through tail ps).Settled := by
  induction ps generalizing u with
  | nil => exact h
  | cons p ps ih =>
    exact ih ((h.push (Matcher.plain_of_passes hg.1)).after_judge _ _) hg.2.2

end Unsplit

/-- What the last split leaves over, as a state. -/
def unsplit (line : Text) : Unsplit :=
  let c := Matcher.control.cut line
  (({} : Unsplit).through c.tail c.pieces).push c.tail

theorem text_unsplit (line : Text) : (unsplit line).text = (survey line).rest :=
  (rest_surveyFrom 0 {} _ _).symm

theorem plain_tail_of_greedy {tail : Text} {ps : List (Piece Symbol)}
    (h : Matcher.control.Greedy tail ps) : Plain tail := by
  induction ps with
  | nil => exact Matcher.plain_of_passes h
  | cons p ps ih => exact ih h.2.2

theorem settled_unsplit (line : Text) : (unsplit line).Settled := by
  have hg := Matcher.control.greedy_cut line
  exact (Unsplit.settled_empty.through hg).push (plain_tail_of_greedy hg)

theorem quotes_unsplit (line : Text) :
    (unsplit line).quotes = QuoteState.ofText (survey line).rest := by
  rw [settled_unsplit line, text_unsplit]

end ConsoleLine
