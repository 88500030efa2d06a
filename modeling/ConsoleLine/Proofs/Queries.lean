import ConsoleLine.Proofs.Canonical
import ConsoleLine.Proofs.LastMatch
import ConsoleLine.Proofs.Priority
import ConsoleLine.Proofs.Projection

/-!
# Queries in closed form

What a query finds by all the matches of a line is told by a few characters of the line.

* `cons_prefix_drop_iff`: a token that stands at an offset, one character at a time;
* `find?_eq_head?`, `findAll_ne_nil_iff`, `firstStop_le_lastStop`: the first match of a line,
  when there is one, and that it does not end behind the last one;
* `stop_pipelineAndEnd`, `last?_pipelineAndEnd`: where an operator that starts a command ends,
  and which one is the last before a cursor;
* `lastPipelineOrEndStop_closed`: the offset behind that operator, from the last `|` or `;`
  at the cursor or before it;
* `tokenAt_redirection_iff`, `stop_of_find?`: where a redirection stands, and where the first one
  ends;
* `firstRedirectionStop_closed`: the offset behind it, from the first `<` or `>`, and the same
  answer from every query whether there is a redirection.
-/

namespace ConsoleLine

theorem cons_prefix_drop_iff {c : Char} {k t : Text} {i : Nat} :
    c :: k <+: t.drop i ↔ t[i]? = some c ∧ k <+: t.drop (i + 1) := by
  rw [← List.drop_drop, ← List.head?_drop]
  cases t.drop i with
  | nil => simp
  | cons d r => simp [List.cons_prefix_cons, eq_comm]

namespace Matcher

variable {α : Type} [Spelled α]

theorem find?_eq_head? (mr : Matcher α) (t : Text) : mr.find? t = (mr.findAll t).head? := by
  have h := mr.resumes_findAll t
  generalize mr.findAll t = ms at h ⊢
  cases h with
  | done hnone => exact hnone
  | found hsome _ => exact hsome

theorem findAll_ne_nil_iff {mr : Matcher α} {t : Text} :
    mr.findAll t ≠ [] ↔ ∃ i, mr.TokenAt t i := by
  constructor
  · intro hne
    obtain ⟨m, hm⟩ := List.exists_mem_of_ne_nil _ hne
    exact ⟨m.start, tokenAt_of_first? (first?_of_mem_findAll hm)⟩
  · rintro ⟨i, s, hs, hp⟩
    obtain ⟨m, hm, -⟩ := exists_covers hs hp
    exact List.ne_nil_of_mem hm

theorem firstStop_pos_iff {mr : Matcher α} {t : Text} :
    0 < (mr.find? t).elim 0 Match.stop ↔ mr.findAll t ≠ [] := by
  rw [find?_eq_head?]
  cases h : mr.findAll t with
  | nil => simp
  | cons m ms =>
    have hlt : m.start < m.stop := start_lt_stop (h ▸ List.mem_cons_self)
    exact iff_of_true (Nat.zero_lt_of_lt hlt) (List.cons_ne_nil m ms)

/-- **The first match of a line does not end behind the last one.** -/
theorem firstStop_le_lastStop (mr : Matcher α) (t : Text) :
    (mr.find? t).elim 0 Match.stop ≤ mr.lastStop t t.length := by
  rw [find?_eq_head?]
  cases h : (mr.findAll t).head? with
  | none => exact Nat.zero_le _
  | some m =>
    have hm := List.mem_of_head? h
    have hlt := start_lt_stop hm
    have hle := stop_le_length hm
    refine stop_le_lastStop hm ?_
    simp only [clamp, Int.toNat_natCast, Nat.min_self]
    omega

theorem lastStop_length_pos_iff {mr : Matcher α} {t : Text} :
    0 < mr.lastStop t t.length ↔ mr.findAll t ≠ [] := by
  constructor
  · intro h
    obtain ⟨m, hm, -⟩ := exists_last?_of_lastStop_pos h
    exact List.ne_nil_of_mem (last?_spec hm).1
  · intro h
    exact Nat.lt_of_lt_of_le (firstStop_pos_iff.mpr h) (mr.firstStop_le_lastStop t)

/-- No longer token stands where a longest one does. -/
theorem Longest.not_prefix {mr : Matcher α} {t : Text} {m : Match α} (h : mr.Longest t m) {s : α}
    (hs : s ∈ mr.symbols) (hlt : m.token.length < (token s).length) :
    ¬ token s <+: t.drop m.start := by
  intro hp
  exact Nat.not_le.mpr hlt (h.2.2 s hs hp)

/-- A token begins with the character where it stands. -/
theorem head?_of_prefix {mr : Matcher α} {t : Text} {s : α} {i : Nat} (hs : s ∈ mr.symbols)
    (hp : token s <+: t.drop i) : (token s).head? = t[i]? := by
  obtain ⟨r, hr⟩ := hp
  rw [← List.head?_drop, ← hr, List.head?_append_of_ne_nil _ (mr.token_ne_nil s hs)]

end Matcher

/-! ## Operators that start a command -/

open Matcher (pipelineAndEnd)

/-- A `|` or `;` stands at offset `j`. -/
def StartsCommand (t : Text) (j : Nat) : Prop := t[j]? = some '|' ∨ t[j]? = some ';'

/-- The offset behind that character, and behind the ampersand of `|&`. -/
def commandStop (t : Text) (j : Nat) : Nat :=
  if t[j]? = some '|' ∧ t[j + 1]? = some '&' then j + 2 else j + 1

section

variable {t : Text} {cursor : Int} {m : Match Operator}

theorem pipeOutAndErr_prefix_iff {j : Nat} :
    Operator.pipeOutAndErr.token <+: t.drop j ↔ t[j]? = some '|' ∧ t[j + 1]? = some '&' := by
  simp [Operator.token, cons_prefix_drop_iff]

/-- It is `|&` wherever an ampersand follows, for that is the longest token there. -/
theorem symbol_eq_pipeOutAndErr_iff (hm : m ∈ pipelineAndEnd.findAll t) :
    m.symbol = .pipeOutAndErr ↔ t[m.start]? = some '|' ∧ t[m.start + 1]? = some '&' := by
  rw [← pipeOutAndErr_prefix_iff]
  constructor
  · intro h
    have hp := token_prefix_of_mem_findAll hm
    rw [Match.token, h] at hp
    exact hp
  · intro hp
    have honly : ∀ o ∈ pipelineAndEnd.symbols, 2 ≤ o.token.length → o = .pipeOutAndErr := by decide
    obtain ⟨hmem, -, hlong⟩ := Matcher.longest_of_mem_findAll (by decide) hm
    exact honly _ hmem (hlong .pipeOutAndErr (by decide) hp)

theorem stop_pipelineAndEnd (hm : m ∈ pipelineAndEnd.findAll t) :
    m.stop = commandStop t m.start := by
  have hlength : ∀ o ∈ pipelineAndEnd.symbols,
      o.token.length = if o = .pipeOutAndErr then 2 else 1 := by decide
  have hlen : m.token.length = if m.symbol = .pipeOutAndErr then 2 else 1 :=
    hlength _ (symbol_mem_findAll hm)
  rw [Match.stop, hlen, commandStop]
  simp only [symbol_eq_pipeOutAndErr_iff hm]
  split <;> rfl

/-- **The last of these operators before a cursor** starts at the last `|` or `;` there. -/
theorem last?_pipelineAndEnd (h : pipelineAndEnd.last? t cursor = some m) :
    IsGreatest {j | j ≤ clamp t cursor ∧ StartsCommand t j} m.start := by
  obtain ⟨hm, hstart, hlast⟩ := Matcher.last?_eq_some_iff.mp h
  refine ⟨⟨hstart, Matcher.start_pipelineAndEnd_iff.mp ⟨m, hm, rfl⟩⟩, ?_⟩
  rintro j ⟨hj, hstarts⟩
  obtain ⟨n, hn, rfl⟩ := Matcher.start_pipelineAndEnd_iff.mpr hstarts
  exact hlast n hn hj

theorem not_startsCommand_of_none (h : pipelineAndEnd.last? t cursor = none) :
    ∀ j ≤ clamp t cursor, ¬ StartsCommand t j := by
  intro j hj hstarts
  obtain ⟨n, hn, rfl⟩ := Matcher.start_pipelineAndEnd_iff.mpr hstarts
  exact absurd hj (Nat.not_le.mpr (Matcher.last?_eq_none_iff.mp h n hn))

end

theorem containsPipelineOrEnd_iff (t : Text) :
    containsPipelineOrEnd t = true ↔ '|' ∈ t ∨ ';' ∈ t := by
  have hstarts : pipelineAndEnd.findAll t ≠ [] ↔ ∃ j, StartsCommand t j := by
    constructor
    · intro hne
      obtain ⟨m, hm⟩ := List.exists_mem_of_ne_nil _ hne
      exact ⟨m.start, Matcher.start_pipelineAndEnd_iff.mp ⟨m, hm, rfl⟩⟩
    · rintro ⟨j, hj⟩
      obtain ⟨m, hm, -⟩ := Matcher.start_pipelineAndEnd_iff.mpr hj
      exact List.ne_nil_of_mem hm
  rw [containsPipelineOrEnd, Matcher.find?_eq_head?, List.isSome_head?, hstarts,
    List.mem_iff_getElem?, List.mem_iff_getElem?, ← exists_or]
  rfl

/-- **Behind the last operator that starts a command** is right behind the last `|` or `;` at the
cursor or before it, or behind the ampersand that follows a `|`, and 0 where there is none.
Each `|` of `||` is such an operator by itself. -/
theorem lastPipelineOrEndStop_closed (t : Text) (cursor : Int) :
    ((∃ j, IsGreatest {j | j ≤ clamp t cursor ∧ StartsCommand t j} j ∧
        lastPipelineOrEndStop t cursor = commandStop t j) ∨
      ((∀ j ≤ clamp t cursor, ¬ StartsCommand t j) ∧ lastPipelineOrEndStop t cursor = 0)) ∧
      (∀ j, (∃ m ∈ pipelineAndEnd.findAll t, m.start = j) ↔ StartsCommand t j) ∧
      (containsPipelineOrEnd t = true ↔ '|' ∈ t ∨ ';' ∈ t) := by
  refine ⟨?_, fun j => Matcher.start_pipelineAndEnd_iff, containsPipelineOrEnd_iff t⟩
  rw [lastPipelineOrEndStop]
  cases h : pipelineAndEnd.last? t cursor with
  | none => exact .inr ⟨not_startsCommand_of_none h, Matcher.lastStop_of_none h⟩
  | some m =>
    refine .inl ⟨m.start, last?_pipelineAndEnd h, ?_⟩
    rw [Matcher.lastStop_of_last? h]
    exact stop_pipelineAndEnd (Matcher.last?_spec h).1

/-- The cursor on either half of `||`, the second of which takes an ampersand with it. -/
example :
    lastPipelineOrEndStop ['a', '|', '|', '&', 'b'] 1 = 2 ∧
      lastPipelineOrEndStop ['a', '|', '|', '&', 'b'] 2 = 4 := by decide

/-! ## Redirections -/

open Matcher (redirection)

/-- A `<` or `>` stands at offset `j`. -/
def Redirects (t : Text) (j : Nat) : Prop := t[j]? = some '<' ∨ t[j]? = some '>'

/-- The offset behind a redirection whose first `<` or `>` stands at offset `j`. -/
def redirectionStop (t : Text) (j : Nat) : Nat :=
  if 1 ≤ j ∧ ['2', '>', '&', '1'] <+: t.drop (j - 1) then j + 3
  else if ['>', '>'] <+: t.drop j then j + 2
  else j + 1

section

variable {t : Text} {o : Operator} {i : Nat}

/-- A redirection begins with such a character, or with a `2` and then a `>`. -/
theorem tokenAt_redirection_iff :
    redirection.TokenAt t i ↔ Redirects t i ∨ t[i]? = some '2' ∧ t[i + 1]? = some '>' := by
  constructor
  · rintro ⟨o, ho, hp⟩
    have hshape : ∀ o ∈ redirection.symbols,
        ['<'] <+: o.token ∨ ['>'] <+: o.token ∨ ['2', '>'] <+: o.token := by decide
    rcases hshape o ho with h | h | h
    · exact .inl (.inl (cons_prefix_drop_iff.mp (h.trans hp)).1)
    · exact .inl (.inr (cons_prefix_drop_iff.mp (h.trans hp)).1)
    · obtain ⟨htwo, hsign⟩ := cons_prefix_drop_iff.mp (h.trans hp)
      exact .inr ⟨htwo, (cons_prefix_drop_iff.mp hsign).1⟩
  · rintro ((h | h) | ⟨htwo, hsign⟩)
    · exact ⟨.overwriteIn, by decide, singleton_prefix_drop h⟩
    · exact ⟨.overwriteOut, by decide, singleton_prefix_drop h⟩
    · exact ⟨.overwriteErr, by decide,
        cons_prefix_drop_iff.mpr ⟨htwo, singleton_prefix_drop hsign⟩⟩

theorem findAll_redirection_ne_nil_iff :
    redirection.findAll t ≠ [] ↔ '<' ∈ t ∨ '>' ∈ t := by
  simp only [Matcher.findAll_ne_nil_iff, tokenAt_redirection_iff, List.mem_iff_getElem?, ← exists_or]
  constructor
  · rintro ⟨i, h | ⟨-, hsign⟩⟩
    · exact ⟨i, h⟩
    · exact ⟨i + 1, .inr hsign⟩
  · rintro ⟨j, h⟩
    exact ⟨j, .inl h⟩

/-- The end of the longest token that begins with a `2` at offset `i`. -/
theorem stop_of_two (h : redirection.Longest t ⟨o, i⟩) (htwo : t[i]? = some '2') :
    i + o.token.length = redirectionStop t (i + 1) := by
  have ho : o ∈ redirection.symbols := h.1
  have hp : o.token <+: t.drop i := h.2.1
  have hshape : ∀ o ∈ redirection.symbols, o.token.head? = some '2' →
      o = .overwriteOutAndErr ∨ o = .appendErr ∨ o = .overwriteErr := by decide
  have hbegins : 1 ≤ i + 1 ∧ ['2', '>', '&', '1'] <+: t.drop (i + 1 - 1) ↔
      ['2', '>', '&', '1'] <+: t.drop i := and_iff_right (Nat.le_add_left 1 i)
  have hother : o.token.length < 4 → ¬ ['2', '>', '&', '1'] <+: t.drop i :=
    h.not_prefix (s := .overwriteOutAndErr) (by decide)
  simp only [redirectionStop, hbegins]
  rcases hshape o ho ((Matcher.head?_of_prefix ho hp).trans htwo) with rfl | rfl | rfl
  · exact (if_pos hp).symm
  · have hdouble : ['>', '>'] <+: t.drop (i + 1) := (cons_prefix_drop_iff.mp hp).2
    rw [if_neg (hother (by decide)), if_pos hdouble]
    rfl
  · have hsingle : ¬ ['>', '>'] <+: t.drop (i + 1) := by
      intro hdouble
      have hlonger : Operator.overwriteErr.token.length < Operator.appendErr.token.length := by
        decide
      exact h.not_prefix (s := .appendErr) (by decide) hlonger
        (cons_prefix_drop_iff.mpr ⟨htwo, hdouble⟩)
    rw [if_neg (hother (by decide)), if_neg hsingle]
    rfl

/-- The end of the longest token that begins with `<` or `>` at offset `i`. -/
theorem stop_of_redirects (h : redirection.Longest t ⟨o, i⟩) (hsign : Redirects t i)
    (hnot : ¬ (1 ≤ i ∧ ['2', '>', '&', '1'] <+: t.drop (i - 1))) :
    i + o.token.length = redirectionStop t i := by
  have ho : o ∈ redirection.symbols := h.1
  have hp : o.token <+: t.drop i := h.2.1
  have hshape : ∀ o ∈ redirection.symbols, o.token.head? = some '<' ∨ o.token.head? = some '>' →
      o = .appendOut ∨ o.token.length = 1 := by decide
  have hhead : o.token.head? = t[i]? := Matcher.head?_of_prefix ho hp
  rw [Redirects, ← hhead] at hsign
  rw [redirectionStop, if_neg hnot]
  rcases hshape o ho hsign with rfl | hlen
  · exact (if_pos hp).symm
  · have hshorter : o.token.length < 2 := by omega
    have hsingle : ¬ ['>', '>'] <+: t.drop i :=
      h.not_prefix (s := .appendOut) (by decide) hshorter
    rw [if_neg hsingle, hlen]

/-- **The first redirection** is the one that the first `<` or `>` belongs to. -/
theorem stop_of_find? {m : Match Operator} (h : redirection.find? t = some m) :
    ∃ j, IsLeast {j | Redirects t j} j ∧ m.stop = redirectionStop t j := by
  obtain ⟨⟨⟨-, htoken⟩, hleast⟩, -⟩ := Matcher.find?_eq_some_iff.mp h
  have hlong : redirection.Longest t m := Matcher.findsLongest_iff.mpr (by decide) t 0 m h
  have hle : ∀ k, redirection.TokenAt t k → m.start ≤ k := fun k hk => hleast ⟨by simp, hk⟩
  have hsigns : ∀ k, Redirects t k → m.start ≤ k := fun k hk =>
    hle k (tokenAt_redirection_iff.mpr (.inl hk))
  rcases tokenAt_redirection_iff.mp htoken with hsign | ⟨htwo, hnext⟩
  · refine ⟨m.start, ⟨hsign, hsigns⟩, stop_of_redirects hlong hsign ?_⟩
    rintro ⟨hpos, hp⟩
    have hbefore := hle (m.start - 1) ⟨.overwriteOutAndErr, by decide, hp⟩
    omega
  · refine ⟨m.start + 1, ⟨.inr hnext, fun k hk => ?_⟩, stop_of_two hlong htwo⟩
    have hne : m.start ≠ k := by
      rintro rfl
      rcases hk with hk | hk
      · simp [hk] at htwo
      · simp [hk] at htwo
    exact Nat.lt_of_le_of_ne (hsigns k hk) hne

end

/-- **Behind the first redirection** is right behind the first `<` or `>`, or one place further
for `>>` and two for a `2>&1`, and 0 where there is none. Whether there is one, all queries
tell alike, and the last redirection ends there or later. -/
theorem firstRedirectionStop_closed (t : Text) :
    ((∃ j, IsLeast {j | Redirects t j} j ∧ firstRedirectionStop t = redirectionStop t j) ∨
      ((∀ j, ¬ Redirects t j) ∧ firstRedirectionStop t = 0)) ∧
      (containsRedirection t = true ↔ '<' ∈ t ∨ '>' ∈ t) ∧
      (0 < firstRedirectionStop t ↔ '<' ∈ t ∨ '>' ∈ t) ∧
      (0 < lastRedirectionStop t t.length ↔ '<' ∈ t ∨ '>' ∈ t) ∧
      firstRedirectionStop t ≤ lastRedirectionStop t t.length := by
  refine ⟨?_, ?_, Matcher.firstStop_pos_iff.trans findAll_redirection_ne_nil_iff,
    Matcher.lastStop_length_pos_iff.trans findAll_redirection_ne_nil_iff,
    redirection.firstStop_le_lastStop t⟩
  · rw [firstRedirectionStop]
    cases h : redirection.find? t with
    | none =>
      refine .inr ⟨fun j hj => ?_, rfl⟩
      exact Matcher.find?_eq_none_iff.mp h j (by simp) (tokenAt_redirection_iff.mpr (.inl hj))
    | some m => exact .inl (stop_of_find? h)
  · rw [containsRedirection, Matcher.find?_eq_head?, List.isSome_head?,
      findAll_redirection_ne_nil_iff]

/-- Two redirections in one run of signs, the second of which begins with its own `2`. -/
example :
    firstRedirectionStop ['a', '>', '>', '2', '>', '&', '1'] = 3 ∧
      lastRedirectionStop ['a', '>', '>', '2', '>', '&', '1'] 7 = 7 := by decide

end ConsoleLine
