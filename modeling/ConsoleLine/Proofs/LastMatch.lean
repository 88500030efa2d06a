import ConsoleLine.Cursor
import ConsoleLine.Proofs.Coverage

/-!
# The last match before a cursor

* `last?_eq_filter`: it is the last of all matches that start at the cursor or before
  it, so no match counts after one that does not;
* `last?_eq_some_iff`, `last?_eq_none_iff`: which match it is, and when there is none;
* `exists_last?_of_lastStop_pos`: there is one if its end is not 0;
* `lt_lastStop`: it ends behind every token that stands before the cursor.
-/

namespace ConsoleLine

variable {α : Type} [Spelled α]

/-- Matches come in order, so those up to an offset come first. -/
theorem takeWhile_locate (i c : Nat) (ps : List (Piece α)) :
    (locate i ps).takeWhile (·.start ≤ c) = (locate i ps).filter (·.start ≤ c) := by
  induction ps generalizing i with
  | nil => rfl
  | cons p ps ih =>
    by_cases hc : i + p.gap.length ≤ c
    · simp [locate, hc, ih]
    · have hlater : ∀ m ∈ locate (i + p.gap.length + (token p.symbol).length) ps,
          c < m.start := by
        intro m hm
        have hstart := le_start_of_mem_locate hm
        omega
      simpa [locate, hc, Match.stop, Match.token] using hlater

namespace Matcher

variable {mr : Matcher α} {line : Text} {cursor : Int} {m : Match α}

theorem last?_eq_filter (mr : Matcher α) (line : Text) (cursor : Int) :
    mr.last? line cursor =
      ((mr.findAll line).filter (·.start ≤ clamp line cursor)).getLast? :=
  congrArg List.getLast? (takeWhile_locate 0 (clamp line cursor) (mr.cut line).pieces)

theorem last?_eq_none_iff :
    mr.last? line cursor = none ↔ ∀ m ∈ mr.findAll line, clamp line cursor < m.start := by
  simp [last?_eq_filter]

/-- What is found starts at the cursor or before it, and every other such match ends
before that one starts. -/
theorem last?_spec (h : mr.last? line cursor = some m) :
    m ∈ mr.findAll line ∧ m.start ≤ clamp line cursor ∧
      ∀ n ∈ mr.findAll line, n.start ≤ clamp line cursor → n = m ∨ n.stop ≤ m.start := by
  rw [last?_eq_filter] at h
  have hpairs := (pairwise_locate 0 (mr.cut line).pieces).filter (·.start ≤ clamp line cursor)
  obtain ⟨hm, hstart⟩ := List.mem_filter.mp (List.mem_of_getLast? h)
  refine ⟨hm, by simpa using hstart, fun n hn hle => ?_⟩
  obtain ⟨ns, hns⟩ := List.getLast?_eq_some_iff.mp h
  have hmem : n ∈ ns ++ [m] := hns ▸ List.mem_filter.mpr ⟨hn, by simpa using hle⟩
  rw [← findAll, hns] at hpairs
  rcases List.mem_append.mp hmem with hmem | hmem
  · exact Or.inr ((List.pairwise_append.mp hpairs).2.2 n hmem m (List.mem_singleton_self m))
  · exact Or.inl (List.mem_singleton.mp hmem)

/-- **The last match before a cursor** is the one that starts last. -/
theorem last?_eq_some_iff :
    mr.last? line cursor = some m ↔ m ∈ mr.findAll line ∧ m.start ≤ clamp line cursor ∧
      ∀ n ∈ mr.findAll line, n.start ≤ clamp line cursor → n.start ≤ m.start := by
  constructor
  · intro h
    obtain ⟨hm, hstart, hlast⟩ := last?_spec h
    refine ⟨hm, hstart, fun n hn hle => ?_⟩
    rcases hlast n hn hle with rfl | hstop
    · exact Nat.le_refl _
    · have hlt := start_lt_stop hn
      omega
  · rintro ⟨hm, hstart, hlast⟩
    cases h : mr.last? line cursor with
    | none =>
      have hlt := last?_eq_none_iff.mp h m hm
      omega
    | some m' =>
      obtain ⟨hm', hstart', hlast'⟩ := last?_spec h
      rcases hlast' m hm hstart with rfl | hstop
      · rfl
      · have hlt := start_lt_stop hm
        have hle := hlast m' hm' hstart'
        omega

theorem lastStop_of_last? (h : mr.last? line cursor = some m) :
    mr.lastStop line cursor = m.stop := by
  rw [lastStop, h]
  rfl

theorem lastStop_of_none (h : mr.last? line cursor = none) : mr.lastStop line cursor = 0 := by
  rw [lastStop, h]
  rfl

theorem exists_last?_of_lastStop_pos (h : 0 < mr.lastStop line cursor) :
    ∃ m, mr.last? line cursor = some m ∧ m.stop = mr.lastStop line cursor := by
  cases hlast : mr.last? line cursor with
  | none =>
    rw [lastStop_of_none hlast] at h
    cases h
  | some m => exact ⟨m, rfl, (lastStop_of_last? hlast).symm⟩

theorem lastStop_le_length (mr : Matcher α) (line : Text) (cursor : Int) :
    mr.lastStop line cursor ≤ line.length := by
  cases h : mr.last? line cursor with
  | none =>
    rw [lastStop_of_none h]
    exact Nat.zero_le _
  | some m =>
    rw [lastStop_of_last? h]
    exact stop_le_length (last?_spec h).1

/-- No match that starts at the cursor or before it ends later. -/
theorem stop_le_lastStop (hm : m ∈ mr.findAll line) (hstart : m.start ≤ clamp line cursor) :
    m.stop ≤ mr.lastStop line cursor := by
  cases h : mr.last? line cursor with
  | none =>
    have hlt := last?_eq_none_iff.mp h m hm
    omega
  | some n =>
    obtain ⟨hn, -, hlast⟩ := last?_spec h
    rw [lastStop_of_last? h]
    rcases hlast m hm hstart with rfl | hstop
    · exact Nat.le_refl _
    · have hlt := start_lt_stop hn
      omega

/-- **A token that stands before the cursor lies before the end of the last match**, at
least where it begins. -/
theorem lt_lastStop {s : α} {k : Nat} (hs : s ∈ mr.symbols) (hp : token s <+: line.drop k)
    (hk : k ≤ clamp line cursor) : k < mr.lastStop line cursor := by
  obtain ⟨m, hm, hstart, hstop⟩ := exists_covers hs hp
  exact Nat.lt_of_lt_of_le hstop (stop_le_lastStop hm (Nat.le_trans hstart hk))

theorem lt_lastStop_of_char {t : Text} {s : α} {x : Char} {k : Nat} (hs : s ∈ mr.symbols)
    (hx : token s = [x]) (hchar : t[k]? = some x) (hk : k ≤ clamp t cursor) :
    k < mr.lastStop t cursor :=
  lt_lastStop hs (hx ▸ singleton_prefix_drop hchar) hk

end Matcher

end ConsoleLine
