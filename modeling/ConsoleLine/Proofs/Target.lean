import ConsoleLine.Completion
import ConsoleLine.Proofs.LastMatch

/-!
# The target and the operators before it

The text to complete begins behind the last operator that starts a command, or behind a
redirection to a file if that is the last operator of all. Behind `2>&1`, which asks for no
file, an earlier redirection does not count either.

* `ofCursor_cases`: the two ways in which a target comes about;
* `placed_ofCursor`: the target ends at the cursor, begins behind an operator, and holds
  no other that counts;
* `not_covers_both`: a redirection and an operator that starts a command never share a
  character, so which of two ends later is which of them starts later;
* `ofCursor_latest`: the target by the operator that starts last.
-/

namespace ConsoleLine

open Matcher (redirection pipelineAndEnd)

/-! ## Where a target begins -/

/-- The text from offset `k` to the cursor at `c`, empty if the cursor comes first. -/
def Target.upTo (line : Text) (k c : Nat) (file : Bool) : Target :=
  ⟨(min k c : Nat), (line.take c).drop (min k c), file⟩

/-- **A target begins behind the last redirection**, if that goes to a file and ends after
the last operator that starts a command, **and else behind the latter**. -/
theorem ofCursor_cases (line : Text) (cursor : Int) :
    (∃ m, redirection.last? line cursor = some m ∧ m.symbol ≠ .overwriteOutAndErr ∧
        lastPipelineOrEndStop line cursor < m.stop ∧
        Target.ofCursor line cursor = .upTo line m.stop (clamp line cursor) true) ∨
      ((∀ m, redirection.last? line cursor = some m →
          lastPipelineOrEndStop line cursor < m.stop → m.symbol = .overwriteOutAndErr) ∧
        Target.ofCursor line cursor =
          .upTo line (lastPipelineOrEndStop line cursor) (clamp line cursor) false) := by
  cases hfile : (redirection.last? line cursor).filter fun m =>
      decide (lastPipelineOrEndStop line cursor < m.stop) && m.symbol != .overwriteOutAndErr with
  | some m =>
    left
    obtain ⟨hlast, hcounts⟩ := Option.filter_eq_some_iff.mp hfile
    simp only [Bool.and_eq_true, decide_eq_true_eq, bne_iff_ne, ne_eq] at hcounts
    refine ⟨m, hlast, hcounts.2, hcounts.1, ?_⟩
    simp [Target.ofCursor, Target.upTo, hfile]
  | none =>
    right
    refine ⟨fun m hlast hstop => ?_, by simp [Target.ofCursor, Target.upTo, hfile]⟩
    have hno := Option.filter_eq_none_iff.mp hfile m hlast
    simpa [hstop] using hno

/-! ## The text -/

theorem Target.mem_upTo {t : Text} {k c : Nat} {file : Bool} {x : Char}
    (h : x ∈ (upTo t k c file).text) : ∃ j, k ≤ j ∧ j < c ∧ t[j]? = some x := by
  obtain ⟨i, hi⟩ := List.mem_iff_getElem?.mp h
  simp only [upTo, List.getElem?_drop, List.getElem?_take] at hi
  split at hi
  · exact ⟨min k c + i, by omega, by omega, hi⟩
  · cases hi

theorem Target.take_append_text_upTo (line : Text) (k c : Nat) (file : Bool) :
    line.take (upTo line k c file).offset.toNat ++ (upTo line k c file).text = line.take c := by
  have hmin : min (min k c) c = min k c := by omega
  calc
    line.take (min k c) ++ (line.take c).drop (min k c)
      = (line.take c).take (min k c) ++ (line.take c).drop (min k c) := by
        rw [List.take_take, hmin]
    _ = line.take c := List.take_append_drop _ _

/-- A character of the text stands behind the last operator that starts a command, and
behind the last redirection if the target is its file. -/
theorem mem_ofCursor {t : Text} {cursor : Int} {x : Char}
    (h : x ∈ (Target.ofCursor t cursor).text) :
    ∃ j, j ≤ clamp t cursor ∧ t[j]? = some x ∧ lastPipelineOrEndStop t cursor ≤ j ∧
      ((Target.ofCursor t cursor).afterRedirection = true →
        lastRedirectionStop t cursor ≤ j) := by
  rcases ofCursor_cases t cursor with ⟨m, hlast, -, hstop, htarget⟩ | ⟨-, htarget⟩
  · rw [htarget] at h ⊢
    obtain ⟨j, hj, hc, hx⟩ := Target.mem_upTo h
    refine ⟨j, Nat.le_of_lt hc, hx, by omega, fun _ => ?_⟩
    rw [lastRedirectionStop, Matcher.lastStop_of_last? hlast]
    exact hj
  · rw [htarget] at h ⊢
    obtain ⟨j, hj, hc, hx⟩ := Target.mem_upTo h
    exact ⟨j, Nat.le_of_lt hc, hx, hj, fun hfile => absurd hfile Bool.false_ne_true⟩

/-- No operator of one character that starts a command is in the text. -/
theorem not_mem_ofCursor {o : Operator} {x : Char} (ho : o ∈ Operator.pipelineAndEnd)
    (hx : o.token = [x]) (line : Text) (cursor : Int) :
    x ∉ (Target.ofCursor line cursor).text := by
  intro h
  obtain ⟨j, hj, hchar, hstop, -⟩ := mem_ofCursor h
  have hlt : j < lastPipelineOrEndStop line cursor :=
    Matcher.lt_lastStop_of_char (s := o) ho hx hchar hj
  omega

/-- With a redirection in the text, the last one before the cursor asks for no file. -/
theorem last?_of_mem_ofCursor {o : Operator} {x : Char} (ho : o ∈ Operator.redirections)
    (hx : o.token = [x]) {line : Text} {cursor : Int}
    (h : x ∈ (Target.ofCursor line cursor).text) :
    (Target.ofCursor line cursor).afterRedirection = false ∧
      ∃ m, redirection.last? line cursor = some m ∧ m.symbol = .overwriteOutAndErr := by
  obtain ⟨j, hj, hchar, hpipeline, hfile⟩ := mem_ofCursor h
  have hlt : j < lastRedirectionStop line cursor :=
    Matcher.lt_lastStop_of_char (s := o) ho hx hchar hj
  rcases ofCursor_cases line cursor with ⟨m, -, -, -, htarget⟩ | ⟨hother, htarget⟩
  · have hle := hfile (by rw [htarget]; rfl)
    omega
  · have hpos : 0 < lastRedirectionStop line cursor := by omega
    obtain ⟨m, hlast, hstop⟩ := Matcher.exists_last?_of_lastStop_pos hpos
    have hbehind : lastPipelineOrEndStop line cursor < m.stop := by
      rw [hstop]
      exact Nat.lt_of_le_of_lt hpipeline hlt
    exact ⟨by rw [htarget]; rfl, m, hlast, hother m hlast hbehind⟩

theorem Target.stop_eq_offset_upTo {mr : Matcher Operator} {line : Text} {c : Nat} {file : Bool}
    {m : Match Operator} (hm : m ∈ mr.findAll line) (h : (upTo line m.stop c file).offset < c) :
    m.stop = (upTo line m.stop c file).offset ∧
      m.token <:+ line.take (upTo line m.stop c file).offset.toNat := by
  have hmin : min m.stop c = m.stop := by
    simp only [upTo] at h
    omega
  simp only [upTo, hmin, Int.toNat_natCast, take_stop hm, List.suffix_append, and_self]

/-- The match behind which the target begins. -/
theorem exists_stop_eq_offset {line : Text} {cursor : Int}
    (hpos : 0 < (Target.ofCursor line cursor).offset)
    (hlt : (Target.ofCursor line cursor).offset < clamp line cursor) :
    ∃ m ∈ redirection.findAll line ++ pipelineAndEnd.findAll line,
      m.stop = (Target.ofCursor line cursor).offset ∧
        m.token <:+ line.take (Target.ofCursor line cursor).offset.toNat := by
  rcases ofCursor_cases line cursor with ⟨m, hlast, -, -, htarget⟩ | ⟨-, htarget⟩
  · have hm := (Matcher.last?_spec hlast).1
    rw [htarget] at hlt ⊢
    exact ⟨m, List.mem_append_left _ hm, Target.stop_eq_offset_upTo hm hlt⟩
  · have hstop : 0 < lastPipelineOrEndStop line cursor := by
      simp only [htarget, Target.upTo] at hpos
      omega
    obtain ⟨m, hlast, heq⟩ := Matcher.exists_last?_of_lastStop_pos hstop
    have hm := (Matcher.last?_spec hlast).1
    rw [lastPipelineOrEndStop, ← heq] at htarget
    rw [htarget] at hlt ⊢
    exact ⟨m, List.mem_append_right _ hm, Target.stop_eq_offset_upTo hm hlt⟩

/-- How a target stands in its line when the cursor is at `c`. -/
structure Target.Placed (line : Text) (c : Nat) (T : Target) : Prop where
  offset_nonneg : 0 ≤ T.offset
  offset_le : T.offset ≤ c
  /-- The text goes on from the offset to the cursor. -/
  take_append_text : line.take T.offset.toNat ++ T.text = line.take c
  no_command : '|' ∉ T.text ∧ ';' ∉ T.text
  /-- With a redirection in the text, the last one before the cursor asks for no file. -/
  no_file : '<' ∈ T.text ∨ '>' ∈ T.text →
    T.afterRedirection = false ∧
      ∃ m, ((redirection.findAll line).filter (·.start ≤ c)).getLast? = some m ∧
        m.symbol = .overwriteOutAndErr
  /-- The text begins right behind an operator, at the start of the line or at the cursor. -/
  behind : 0 < T.offset → T.offset < c →
    ∃ m ∈ redirection.findAll line ++ pipelineAndEnd.findAll line,
      m.stop = T.offset ∧ m.token <:+ line.take T.offset.toNat

/-- **At every cursor the target stands between an operator and the cursor.** -/
theorem placed_ofCursor (line : Text) (cursor : Int) :
    (Target.ofCursor line cursor).Placed line (clamp line cursor) where
  offset_nonneg := Int.natCast_nonneg _
  offset_le := Int.ofNat_le.mpr (Nat.min_le_right _ _)
  take_append_text := by
    rcases ofCursor_cases line cursor with ⟨m, -, -, -, htarget⟩ | ⟨-, htarget⟩
    · rw [htarget, Target.take_append_text_upTo]
    · rw [htarget, Target.take_append_text_upTo]
  no_command := ⟨not_mem_ofCursor (o := .pipe) (by decide) rfl line cursor,
    not_mem_ofCursor (o := .semicolon) (by decide) rfl line cursor⟩
  no_file := by
    rw [← Matcher.last?_eq_filter]
    rintro (h | h)
    · exact last?_of_mem_ofCursor (o := .overwriteIn) (by decide) rfl h
    · exact last?_of_mem_ofCursor (o := .overwriteOut) (by decide) rfl h
  behind := exists_stop_eq_offset

/-- The earlier redirection goes to a file, but is not the last one. -/
example : Target.ofCursor ['a', '>', 'f', ' ', '2', '>', '&', '1', ' '] 9 =
    ⟨0, ['a', '>', 'f', ' ', '2', '>', '&', '1', ' '], false⟩ := by decide

/-! ## The operator that starts last -/

/-- **A redirection and an operator that starts a command never share a character.** -/
theorem not_covers_both {line : Text} {m n : Match Operator} (hm : m ∈ redirection.findAll line)
    (hn : n ∈ pipelineAndEnd.findAll line) (k : Nat) : ¬ (m.Covers k ∧ n.Covers k) := by
  -- An ampersand is in tokens of both kinds, but behind `>` in one and behind `|` in the other.
  have hshared : ∀ o ∈ redirection.symbols, ∀ p ∈ pipelineAndEnd.symbols,
      ∀ i < o.token.length, ∀ j < p.token.length, o.token[i]? = p.token[j]? →
        0 < i ∧ 0 < j ∧ o.token[i - 1]? ≠ p.token[j - 1]? := by decide
  rintro ⟨hmk, hnk⟩
  have hchar : m.token[k - m.start]? = n.token[k - n.start]? :=
    (getElem?_of_covers hm hmk).trans (getElem?_of_covers hn hnk).symm
  obtain ⟨hi, hj, hne⟩ := hshared _ (symbol_mem_findAll hm) _ (symbol_mem_findAll hn)
    _ hmk.lt_length _ hnk.lt_length hchar
  have hmpred : m.Covers (k - 1) := ⟨by omega, Nat.lt_of_le_of_lt (Nat.sub_le k 1) hmk.2⟩
  have hnpred : n.Covers (k - 1) := ⟨by omega, Nat.lt_of_le_of_lt (Nat.sub_le k 1) hnk.2⟩
  have hpred : m.token[k - 1 - m.start]? = n.token[k - 1 - n.start]? :=
    (getElem?_of_covers hm hmpred).trans (getElem?_of_covers hn hnpred).symm
  rw [Nat.sub_right_comm k 1, Nat.sub_right_comm k 1] at hpred
  exact hne hpred

section

variable {line : Text} {cursor : Int} {m n : Match Operator}

/-- So one of the two ends before the other starts. -/
theorem stop_le_start_or (hm : m ∈ redirection.findAll line)
    (hn : n ∈ pipelineAndEnd.findAll line) : m.stop ≤ n.start ∨ n.stop ≤ m.start := by
  by_contra hoverlap
  have hmlt := start_lt_stop hm
  have hnlt := start_lt_stop hn
  refine not_covers_both hm hn (max m.start n.start) ⟨⟨?_, ?_⟩, ?_, ?_⟩
  all_goals omega

theorem stop_ne_stop (hm : m ∈ redirection.findAll line)
    (hn : n ∈ pipelineAndEnd.findAll line) : m.stop ≠ n.stop := by
  have hmlt := start_lt_stop hm
  have hnlt := start_lt_stop hn
  rcases stop_le_start_or hm hn with h | h
  · omega
  · omega

/-- **Comparing where they end is comparing where they start.** -/
theorem stop_lt_stop_iff (hm : m ∈ redirection.findAll line)
    (hn : n ∈ pipelineAndEnd.findAll line) : n.stop < m.stop ↔ n.start < m.start := by
  have hmlt := start_lt_stop hm
  have hnlt := start_lt_stop hn
  rcases stop_le_start_or hm hn with h | h
  · omega
  · omega

/-- The last ones of both kinds end at one place only if there are none. -/
theorem lastStop_eq_zero_of_eq
    (h : lastRedirectionStop line cursor = lastPipelineOrEndStop line cursor) :
    lastRedirectionStop line cursor = 0 := by
  by_contra hne
  have hpos : 0 < lastRedirectionStop line cursor := Nat.pos_of_ne_zero hne
  obtain ⟨m, hm, hmstop⟩ := Matcher.exists_last?_of_lastStop_pos hpos
  rw [h] at hpos
  obtain ⟨n, hn, hnstop⟩ := Matcher.exists_last?_of_lastStop_pos hpos
  refine stop_ne_stop (Matcher.last?_spec hm).1 (Matcher.last?_spec hn).1 ?_
  rw [hmstop, hnstop]
  exact h

/-- Of the redirections and the operators that start a command, up to offset `c`, the one
that starts last. -/
structure Match.Latest (line : Text) (c : Nat) (m : Match Operator) : Prop where
  mem : m ∈ redirection.findAll line ++ pipelineAndEnd.findAll line
  start_le : m.start ≤ c
  start_lt : ∀ n ∈ redirection.findAll line ++ pipelineAndEnd.findAll line, n.start ≤ c →
    n = m ∨ n.start < m.start

/-- A redirection that ends after the last operator that starts a command starts after all
of these. -/
theorem latest_of_last? (h : redirection.last? line cursor = some m)
    (hstop : lastPipelineOrEndStop line cursor < m.stop) :
    m.Latest line (clamp line cursor) := by
  obtain ⟨hm, hstart, hlast⟩ := Matcher.last?_spec h
  refine ⟨List.mem_append_left _ hm, hstart, fun n hn hle => ?_⟩
  rcases List.mem_append.mp hn with hn | hn
  · exact (hlast n hn hle).imp_right fun hbefore => Nat.lt_of_lt_of_le (start_lt_stop hn) hbefore
  · have hnstop : n.stop ≤ lastPipelineOrEndStop line cursor := Matcher.stop_le_lastStop hn hle
    exact Or.inr ((stop_lt_stop_iff hm hn).mp (Nat.lt_of_le_of_lt hnstop hstop))

/-- A redirection that starts last ends last. -/
theorem Match.Latest.last? (h : m.Latest line (clamp line cursor))
    (hm : m.symbol.isRedirection = true) :
    redirection.last? line cursor = some m ∧ lastPipelineOrEndStop line cursor < m.stop := by
  have hother : ∀ o ∈ pipelineAndEnd.symbols, o.isRedirection = false := by decide
  have hmem : m ∈ redirection.findAll line := by
    rcases List.mem_append.mp h.mem with hmem | hmem
    · exact hmem
    · rw [hother _ (symbol_mem_findAll hmem)] at hm
      cases hm
  constructor
  · refine Matcher.last?_eq_some_iff.mpr ⟨hmem, h.start_le, fun n hn hle => ?_⟩
    rcases h.start_lt n (List.mem_append_left _ hn) hle with rfl | hlt
    · exact Nat.le_refl _
    · exact Nat.le_of_lt hlt
  · by_contra hle
    have hmlt := start_lt_stop hmem
    have hpos : 0 < lastPipelineOrEndStop line cursor := by omega
    obtain ⟨n, hlast, hstop⟩ := Matcher.exists_last?_of_lastStop_pos hpos
    obtain ⟨hn, hstart, -⟩ := Matcher.last?_spec hlast
    rcases h.start_lt n (List.mem_append_right _ hn) hstart with rfl | hlt
    · exact stop_ne_stop hmem hn rfl
    · have hbefore := (stop_lt_stop_iff hmem hn).mpr hlt
      rw [hstop] at hbefore
      exact hle hbefore

/-- The target behind a redirection to a file that starts last. -/
theorem ofCursor_of_latest (h : m.Latest line (clamp line cursor))
    (hm : m.symbol.isRedirection = true) (hne : m.symbol ≠ .overwriteOutAndErr) :
    Target.ofCursor line cursor = .upTo line m.stop (clamp line cursor) true := by
  obtain ⟨hlast, hstop⟩ := h.last? hm
  rcases ofCursor_cases line cursor with ⟨n, hn, -, -, htarget⟩ | ⟨hother, -⟩
  · obtain rfl : m = n := Option.some.inj (hlast.symm.trans hn)
    exact htarget
  · exact absurd (hother m hlast hstop) hne

theorem afterRedirection_iff :
    (Target.ofCursor line cursor).afterRedirection = true ↔
      ∃ m : Match Operator, m.Latest line (clamp line cursor) ∧ m.symbol.isRedirection = true ∧
        m.symbol ≠ .overwriteOutAndErr := by
  constructor
  · intro hfile
    rcases ofCursor_cases line cursor with ⟨m, hlast, hne, hstop, -⟩ | ⟨-, htarget⟩
    · have hlisted : ∀ o ∈ redirection.symbols, o.isRedirection = true := by decide
      exact ⟨m, latest_of_last? hlast hstop,
        hlisted _ (symbol_mem_findAll (Matcher.last?_spec hlast).1), hne⟩
    · rw [htarget] at hfile
      cases hfile
  · rintro ⟨m, hlatest, hm, hne⟩
    rw [ofCursor_of_latest hlatest hm hne]
    rfl

end

/-- **The target is told by the operator that starts last**: no place belongs to operators
of both kinds, and so comparing where they end is comparing where they start. -/
theorem ofCursor_latest (line : Text) (cursor : Int) :
    (∀ m ∈ redirection.findAll line, ∀ n ∈ pipelineAndEnd.findAll line, ∀ k,
        ¬ (m.Covers k ∧ n.Covers k)) ∧
      (lastRedirectionStop line cursor = lastPipelineOrEndStop line cursor →
        lastRedirectionStop line cursor = 0 ∧ lastPipelineOrEndStop line cursor = 0) ∧
      ((Target.ofCursor line cursor).afterRedirection = true ↔
        ∃ m : Match Operator, m.Latest line (clamp line cursor) ∧ m.symbol.isRedirection = true ∧
          m.symbol ≠ .overwriteOutAndErr) ∧
      (∀ m : Match Operator, m.Latest line (clamp line cursor) → m.symbol.isRedirection = true →
        m.symbol ≠ .overwriteOutAndErr →
          (Target.ofCursor line cursor).offset = min m.stop (clamp line cursor)) ∧
      ((Target.ofCursor line cursor).afterRedirection = false →
        (Target.ofCursor line cursor).offset =
          min (((pipelineAndEnd.findAll line).filter
            (·.start ≤ clamp line cursor)).getLast?.elim 0 Match.stop) (clamp line cursor)) := by
  refine ⟨fun m hm n hn => not_covers_both hm hn, fun h => ?_, afterRedirection_iff,
    fun m hlatest hm hne => ?_, fun hfile => ?_⟩
  · have hzero := lastStop_eq_zero_of_eq h
    exact ⟨hzero, h.symm.trans hzero⟩
  · simp only [ofCursor_of_latest hlatest hm hne, Target.upTo]
  · rcases ofCursor_cases line cursor with ⟨m, -, -, -, htarget⟩ | ⟨-, htarget⟩
    · rw [htarget] at hfile
      cases hfile
    · rw [htarget, ← Matcher.last?_eq_filter]
      simp only [Target.upTo, lastPipelineOrEndStop, Matcher.lastStop]

end ConsoleLine
