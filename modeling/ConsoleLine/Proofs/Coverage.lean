import ConsoleLine.Proofs.Token

/-!
# What matches cover

A match covers every place of its text from its start to its stop.

* `findAll_char`, `findAll_symbol`: the matches of a text, one character or one
  symbol at a time;
* `first?_of_mem_findAll`: a match is what is found at its start;
* `cut_take_start`: the text before a match is cut as in the whole text;
* `exists_covers`, `eq_of_covers`: where a token stands, one match covers the place,
  and never more than one covers any place;
* `mem_findAll_iff`: where no token goes on with a character that starts one, each
  token that stands anywhere makes a match there.
-/

namespace ConsoleLine

variable {α : Type}

@[simp] theorem Match.start_shift (k : Nat) (m : Match α) : (m.shift k).start = m.start + k := rfl

variable [Spelled α]

def Match.Covers (m : Match α) (k : Nat) : Prop := m.start ≤ k ∧ k < m.stop

/-- The place is one of the token's. -/
theorem Match.Covers.lt_length {m : Match α} {k : Nat} (h : m.Covers k) :
    k - m.start < m.token.length := by
  obtain ⟨hstart, hstop⟩ := h
  simp only [Match.stop] at hstop
  omega

/-! ## Steps -/

@[simp] theorem Match.stop_shift (k : Nat) (m : Match α) : (m.shift k).stop = m.stop + k := by
  show m.start + k + m.token.length = m.start + m.token.length + k
  omega

theorem Match.shift_covers {m : Match α} {i k : Nat} (h : m.Covers k) :
    (m.shift i).Covers (i + k) := by
  obtain ⟨hstart, hstop⟩ := h
  simp only [Covers, start_shift, stop_shift]
  omega

theorem locate_shift (k i : Nat) (ps : List (Piece α)) :
    locate (i + k) ps = (locate i ps).map (Match.shift k) := by
  induction ps generalizing i with
  | nil => rfl
  | cons p ps ih =>
    have hstart : i + k + p.gap.length = i + p.gap.length + k := by omega
    have hstop : i + p.gap.length + k + (token p.symbol).length =
        i + p.gap.length + (token p.symbol).length + k := by omega
    simp only [locate, Match.stop, Match.token, hstart, hstop, ih, List.map_cons, Match.shift]

namespace Matcher

theorem findAll_nil (mr : Matcher α) : mr.findAll [] = [] := rfl

theorem findAll_char {mr : Matcher α} {c : Char} {r : Text} (h : mr.first? (c :: r) = none) :
    mr.findAll (c :: r) = (mr.findAll r).map (Match.shift 1) := by
  rw [findAll, cut_of_none h, locate_prepend]
  exact locate_shift 1 0 _

theorem findAll_symbol {mr : Matcher α} {s : α} {r : Text}
    (h : mr.first? (token s ++ r) = some s) :
    mr.findAll (token s ++ r) = ⟨s, 0⟩ :: (mr.findAll r).map (Match.shift (token s).length) := by
  rw [findAll, cut_token h, locate_cons]
  exact congrArg _ (locate_shift (token s).length 0 _)

end Matcher

/-! ## Matches stand where they were found -/

/-- **A match is what is found at its start.** -/
theorem first?_of_mem_findAll {mr : Matcher α} {t : Text} {m : Match α} (h : m ∈ mr.findAll t) :
    mr.first? (t.drop m.start) = some m.symbol := by
  induction t using mr.scan_induction generalizing m with
  | nil => simp [Matcher.findAll_nil] at h
  | char c r hc ih =>
    rw [Matcher.findAll_char hc] at h
    obtain ⟨n, hn, rfl⟩ := List.mem_map.mp h
    exact ih hn
  | symbol s r hs ih =>
    rw [Matcher.findAll_symbol hs] at h
    rcases List.mem_cons.mp h with rfl | h
    · exact hs
    · obtain ⟨n, hn, rfl⟩ := List.mem_map.mp h
      have hdrop : (token s ++ r).drop (n.start + (token s).length) = r.drop n.start := by
        rw [Nat.add_comm, ← List.drop_drop, List.drop_left]
      rw [Match.start_shift, hdrop]
      exact ih hn

theorem token_prefix_of_mem_findAll {mr : Matcher α} {t : Text} {m : Match α}
    (h : m ∈ mr.findAll t) : m.token <+: t.drop m.start :=
  (Matcher.prefix_of_first? (first?_of_mem_findAll h)).2

theorem take_stop {mr : Matcher α} {t : Text} {m : Match α} (h : m ∈ mr.findAll t) :
    t.take m.stop = t.take m.start ++ m.token := by
  obtain ⟨r, hr⟩ := token_prefix_of_mem_findAll h
  rw [Match.stop, List.take_add, ← hr, List.take_left]

/-- A place that a match covers shows a character of the token. -/
theorem getElem?_of_covers {mr : Matcher α} {t : Text} {m : Match α} {k : Nat}
    (h : m ∈ mr.findAll t) (hk : m.Covers k) : m.token[k - m.start]? = t[k]? := by
  obtain ⟨r, hr⟩ := token_prefix_of_mem_findAll h
  calc
    m.token[k - m.start]? = (m.token ++ r)[k - m.start]? :=
      (List.getElem?_append_left hk.lt_length).symm
    _ = (t.drop m.start)[k - m.start]? := by rw [hr]
    _ = t[k]? := by rw [List.getElem?_drop, Nat.add_sub_cancel' hk.1]

theorem singleton_prefix_drop {t : Text} {k : Nat} {c : Char} (h : t[k]? = some c) :
    [c] <+: t.drop k := by
  obtain ⟨hk, rfl⟩ := List.getElem?_eq_some_iff.mp h
  rw [List.drop_eq_getElem_cons hk]
  exact ⟨t.drop (k + 1), rfl⟩

/-! ## The text before a match -/

theorem Cut.text_append (ps : List (Piece α)) (p : Piece α) (qs : List (Piece α)) (tail : Text) :
    Cut.text ⟨ps ++ p :: qs, tail⟩ =
      Cut.text ⟨ps, p.gap⟩ ++ (token p.symbol ++ Cut.text ⟨qs, tail⟩) := by
  simp [Cut.text, Piece.text]

theorem Matcher.Passes.of_append {mr : Matcher α} {g a b : Text} (h : mr.Passes g (a ++ b)) :
    mr.Passes g a := by
  intro i hi
  apply Matcher.first?_none_of_append (b := b)
  rw [← List.drop_append_of_le_length, List.append_assoc]
  · exact h i hi
  · rw [List.length_append]; omega

/-- The pieces before a match are those of the text before it. -/
theorem Matcher.greedy_cut_off {mr : Matcher α} {tail : Text} {ps qs : List (Piece α)}
    {p : Piece α} (h : mr.Greedy tail (ps ++ p :: qs)) : mr.Greedy p.gap ps := by
  induction ps with
  | nil => exact Passes.of_append (a := []) h.1
  | cons p' ps ih =>
    rw [List.cons_append, Greedy, Cut.text_append, ← List.append_assoc] at h
    obtain ⟨hg, hs, hr⟩ := h
    exact ⟨hg.of_append, Matcher.first?_some_of_append hs (List.prefix_append _ _), ih hr⟩

theorem exists_piece_of_mem_locate {i : Nat} {l : List (Piece α)} {m : Match α}
    (h : m ∈ locate i l) :
    ∃ ps gap qs, l = ps ++ ⟨gap, m.symbol⟩ :: qs ∧ m.start = i + (Cut.text ⟨ps, gap⟩).length := by
  induction l generalizing i with
  | nil => cases h
  | cons p l ih =>
    rcases List.mem_cons.mp h with rfl | h
    · exact ⟨[], p.gap, l, rfl, rfl⟩
    · obtain ⟨ps, gap, qs, rfl, hstart⟩ := ih h
      refine ⟨p :: ps, gap, qs, rfl, ?_⟩
      simp only [hstart, Match.stop, Match.token, Cut.text_cons, List.length_append, Nat.add_assoc]

/-- **The text before a match is cut as in the whole text.** -/
theorem cut_take_start {mr : Matcher α} {t : Text} {m : Match α} (h : m ∈ mr.findAll t) :
    ∃ ps gap qs, (mr.cut t).pieces = ps ++ ⟨gap, m.symbol⟩ :: qs ∧
      m.start = (Cut.text ⟨ps, gap⟩).length ∧ mr.cut (t.take m.start) = ⟨ps, gap⟩ := by
  obtain ⟨ps, gap, qs, hl, hstart⟩ := exists_piece_of_mem_locate h
  rw [Nat.zero_add] at hstart
  refine ⟨ps, gap, qs, hl, hstart, ?_⟩
  have hg := mr.greedy_cut t
  have ht : Cut.text ⟨(mr.cut t).pieces, (mr.cut t).tail⟩ = t := mr.text_cut t
  rw [hl] at hg ht
  rw [Cut.text_append] at ht
  rw [hstart, ← ht, List.take_left]
  exact Matcher.cut_eq_iff.mpr ⟨rfl, Matcher.greedy_cut_off hg⟩

/-! ## One match for each place -/

/-- **Where a token stands, a match covers the place.** -/
theorem exists_covers {mr : Matcher α} {t : Text} {s : α} {k : Nat} (hs : s ∈ mr.symbols)
    (hp : token s <+: t.drop k) : ∃ m ∈ mr.findAll t, m.Covers k := by
  induction t using mr.scan_induction generalizing k with
  | nil =>
    rw [List.drop_nil, List.prefix_nil] at hp
    exact absurd hp (mr.token_ne_nil s hs)
  | char c r hc ih =>
    rw [Matcher.findAll_char hc]
    cases k with
    | zero => exact absurd hp (Matcher.first?_eq_none_iff.mp hc s hs)
    | succ k =>
      obtain ⟨m, hm, hcovers⟩ := ih hp
      exact ⟨m.shift 1, List.mem_map_of_mem hm, Nat.add_comm 1 k ▸ m.shift_covers hcovers⟩
  | symbol s' r hs' ih =>
    rw [Matcher.findAll_symbol hs']
    -- A token may begin inside the one that is found; the search goes on only behind it.
    by_cases hk : k < (token s').length
    · refine ⟨⟨s', 0⟩, List.mem_cons_self, Nat.zero_le k, ?_⟩
      rw [Match.stop, Nat.zero_add]
      exact hk
    · obtain ⟨j, rfl⟩ := Nat.exists_eq_add_of_le (Nat.le_of_not_lt hk)
      rw [← List.drop_drop, List.drop_left] at hp
      obtain ⟨m, hm, hcovers⟩ := ih hp
      exact ⟨m.shift (token s').length, List.mem_cons_of_mem _ (List.mem_map_of_mem hm),
        m.shift_covers hcovers⟩

/-- Of two matches in order one comes after the other. -/
theorem eq_or_stop_le {ms : List (Match α)} (h : ms.Pairwise fun m n => m.stop ≤ n.start)
    {m n : Match α} (hm : m ∈ ms) (hn : n ∈ ms) :
    m = n ∨ m.stop ≤ n.start ∨ n.stop ≤ m.start := by
  have hpairs := List.pairwise_iff_getElem.mp h
  obtain ⟨i, hi, rfl⟩ := List.mem_iff_getElem.mp hm
  obtain ⟨j, hj, rfl⟩ := List.mem_iff_getElem.mp hn
  rcases Nat.lt_trichotomy i j with hij | rfl | hij
  · exact Or.inr (Or.inl (hpairs i j hi hj hij))
  · exact Or.inl rfl
  · exact Or.inr (Or.inr (hpairs j i hj hi hij))

theorem stop_le_or_stop_le {mr : Matcher α} {t : Text} {m n : Match α} (hm : m ∈ mr.findAll t)
    (hn : n ∈ mr.findAll t) : m = n ∨ m.stop ≤ n.start ∨ n.stop ≤ m.start :=
  eq_or_stop_le (pairwise_locate 0 (mr.cut t).pieces) hm hn

theorem Match.covers_start {mr : Matcher α} {t : Text} {m : Match α} (h : m ∈ mr.findAll t) :
    m.Covers m.start := ⟨Nat.le_refl _, start_lt_stop h⟩

/-- **No place is covered twice.** -/
theorem eq_of_covers {mr : Matcher α} {t : Text} {m n : Match α} {k : Nat}
    (hm : m ∈ mr.findAll t) (hn : n ∈ mr.findAll t) (hmk : m.Covers k) (hnk : n.Covers k) :
    m = n := by
  obtain ⟨hmstart, hmstop⟩ := hmk
  obtain ⟨hnstart, hnstop⟩ := hnk
  rcases stop_le_or_stop_le hm hn with h | h | h
  · exact h
  · omega
  · omega

/-! ## Tokens that never run into one another -/

theorem exists_leading {mr : Matcher α} {t : Text} {s : α} {k : Nat} (hs : s ∈ mr.symbols)
    (hp : token s <+: t.drop k) : ∃ c ∈ mr.leading, t[k]? = some c := by
  cases hk : token s with
  | nil => exact absurd hk (mr.token_ne_nil s hs)
  | cons c u =>
    obtain ⟨r, hr⟩ := hk ▸ hp
    refine ⟨c, mr.leading_eq ▸ mem_leads hs hk, ?_⟩
    rw [← Nat.add_zero k, ← List.getElem?_drop, ← hr]
    rfl

/-- A place that a match covers behind its start shows a later character of the token. -/
theorem mem_later_of_covers {mr : Matcher α} {t : Text} {m : Match α} {k : Nat} {c : Char}
    (h : m ∈ mr.findAll t) (hk : m.Covers k) (hlt : m.start < k) (hc : t[k]? = some c) :
    c ∈ mr.later := by
  rw [← getElem?_of_covers h hk] at hc
  refine List.mem_flatMap.mpr ⟨m.symbol, symbol_mem_findAll h, ?_⟩
  refine List.mem_of_getElem? (i := k - m.start - 1) ?_
  rw [List.getElem?_tail, Nat.sub_add_cancel (by omega)]
  exact hc

/-- **Each token that stands in the text makes a match** where no token goes on with a
character that starts one. -/
theorem mem_findAll_iff {mr : Matcher α} (h : mr.leading.all fun c => !mr.later.contains c)
    {t : Text} {m : Match α} :
    m ∈ mr.findAll t ↔ mr.first? (t.drop m.start) = some m.symbol := by
  constructor
  · exact first?_of_mem_findAll
  · intro hfirst
    obtain ⟨hs, hp⟩ := Matcher.prefix_of_first? hfirst
    obtain ⟨n, hn, hcovers⟩ := exists_covers hs hp
    obtain ⟨c, hc, hchar⟩ := exists_leading hs hp
    rcases Nat.eq_or_lt_of_le hcovers.1 with hstart | hlt
    · have hsymbol := first?_of_mem_findAll hn
      rw [hstart, hfirst] at hsymbol
      obtain rfl : n = m := congr (congrArg Match.mk (Option.some.inj hsymbol).symm) hstart
      exact hn
    · have hlater := mem_later_of_covers hn hcovers hlt hchar
      have hnot := List.all_eq_true.mp h c hc
      simp [hlater] at hnot

end ConsoleLine
