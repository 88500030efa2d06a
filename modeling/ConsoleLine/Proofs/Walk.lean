import ConsoleLine.Proofs.Canonical
import ConsoleLine.Proofs.LastMatch

/-!
# Walking to a cursor

To find the last match before a cursor it is enough to search behind each match until one
starts after the cursor; no match behind that one counts.

* `Walks`: these searches, one after the other, with the last match so far in hand;
* `Walks.of_resumes`, `Walks.eq`: they come to an end, and to one only;
* `lastStop_mono`: where the last match ends, as the cursor moves;
* `last?_walk`: all of these, and that the last of all matches up to the cursor is found.
-/

namespace ConsoleLine

variable {α : Type}

/-- A match up to `c` takes the place of the one before. -/
theorem getLast?_takeWhile_or {c : Nat} {m : Match α} (hle : m.start ≤ c) (ms : List (Match α))
    (last : Option (Match α)) :
    ((m :: ms).takeWhile (·.start ≤ c)).getLast?.or last =
      (ms.takeWhile (·.start ≤ c)).getLast?.or (some m) := by
  simp only [List.takeWhile_cons, decide_eq_true hle, if_true, List.getLast?_cons]
  cases (ms.takeWhile (·.start ≤ c)).getLast? <;> rfl

variable [Spelled α]

namespace Matcher

/-- A walk from offset `i` up to a cursor at `c`, with the match `last` in hand, comes out
with `r`. -/
inductive Walks (mr : Matcher α) (t : Text) (c : Nat) :
    Nat → Option (Match α) → Option (Match α) → Prop
  | done {i : Nat} {last : Option (Match α)} (h : mr.find? t i = none) :
      Walks mr t c i last last
  | stopped {i : Nat} {last : Option (Match α)} {m : Match α} (h : mr.find? t i = some m)
      (hlt : c < m.start) : Walks mr t c i last last
  | found {i : Nat} {last r : Option (Match α)} {m : Match α} (h : mr.find? t i = some m)
      (hle : m.start ≤ c) (hrest : Walks mr t c m.stop (some m) r) : Walks mr t c i last r

variable {mr : Matcher α} {t : Text} {c i : Nat} {last r r' : Option (Match α)}

/-! ## The end of a walk -/

/-- A walk is a part of the searches that find all matches. -/
theorem Walks.of_resumes {ms : List (Match α)} (h : mr.Resumes t i ms) (c : Nat)
    (last : Option (Match α)) :
    mr.Walks t c i last ((ms.takeWhile (·.start ≤ c)).getLast?.or last) := by
  induction h generalizing last with
  | done hnone => exact .done hnone
  | @found i m ms hsome hrest ih =>
    rcases Nat.lt_or_ge c m.start with hlt | hle
    · rw [List.takeWhile_cons_of_neg (by simpa using hlt)]
      exact .stopped hsome hlt
    · rw [getLast?_takeWhile_or hle]
      exact .found hsome hle (ih (some m))

theorem walks_last? (mr : Matcher α) (line : Text) (cursor : Int) :
    mr.Walks line (clamp line cursor) 0 none (mr.last? line cursor) := by
  have h := Walks.of_resumes (mr.resumes_findAll line) (clamp line cursor) none
  rwa [Option.or_none] at h

/-- Each search has one result, and so has the walk. -/
theorem Walks.eq (h : mr.Walks t c i last r) (h' : mr.Walks t c i last r') : r = r' := by
  induction h with
  | done hnone =>
    cases h' with
    | done => rfl
    | stopped => rfl
    | found hsome => rw [hnone] at hsome; cases hsome
  | stopped hsome hlt =>
    cases h' with
    | done => rfl
    | stopped => rfl
    | found hsome' hle =>
      obtain rfl := Option.some.inj (hsome.symm.trans hsome')
      exact absurd hlt (Nat.not_lt.mpr hle)
  | found hsome hle _ ih =>
    cases h' with
    | done hnone => rw [hnone] at hsome; cases hsome
    | stopped hsome' hlt =>
      obtain rfl := Option.some.inj (hsome.symm.trans hsome')
      exact absurd hlt (Nat.not_lt.mpr hle)
    | found hsome' _ hrest' =>
      obtain rfl := Option.some.inj (hsome.symm.trans hsome')
      exact ih hrest'

/-! ## The cursor moves -/

/-- **With a later cursor the last match ends no earlier.** -/
theorem lastStop_mono (mr : Matcher α) (line : Text) {c₁ c₂ : Int} (hle : c₁ ≤ c₂) :
    mr.lastStop line c₁ ≤ mr.lastStop line c₂ := by
  cases h : mr.last? line c₁ with
  | none =>
    rw [lastStop_of_none h]
    exact Nat.zero_le _
  | some m =>
    obtain ⟨hm, hstart, -⟩ := last?_spec h
    rw [lastStop_of_last? h]
    exact stop_le_lastStop hm (Nat.le_trans hstart (clamp_mono line hle))

/-! ## Walk and query -/

/-- **The walk finds the last of all matches up to the cursor**: the match at which it stops
early, and every match behind that one, starts after the cursor. As the cursor moves on the
last match ends no earlier, and always within the line. -/
theorem last?_walk (mr : Matcher α) (line : Text) :
    (∀ cursor r, mr.Walks line (clamp line cursor) 0 none r ↔ r = mr.last? line cursor) ∧
      (∀ cursor, mr.last? line cursor =
        ((mr.findAll line).filter (·.start ≤ clamp line cursor)).getLast?) ∧
      (∀ c₁ c₂ : Int, c₁ ≤ c₂ → mr.lastStop line c₁ ≤ mr.lastStop line c₂) ∧
      ∀ cursor, mr.lastStop line cursor ≤ line.length := by
  refine ⟨fun cursor r => ⟨fun h => h.eq (mr.walks_last? line cursor), ?_⟩,
    mr.last?_eq_filter line, fun _ _ hle => mr.lastStop_mono line hle, mr.lastStop_le_length line⟩
  rintro rfl
  exact mr.walks_last? line cursor

/-- The match that the cursor stands in counts, and the one behind it ends the walk. -/
theorem last?_walk_stopped :
    redirection.Walks ['a', '2', '>', '>', '>', 'f'] 3 0 none (some ⟨.appendErr, 1⟩) ∧
      (3 : Int) ≤ 9 ∧
      redirection.lastStop ['a', '2', '>', '>', '>', 'f'] 3 ≤
        redirection.lastStop ['a', '2', '>', '>', '>', 'f'] 9 := by
  obtain ⟨hwalk, -, hmono, -⟩ := redirection.last?_walk ['a', '2', '>', '>', '>', 'f']
  exact ⟨(hwalk 3 _).mpr (by decide), by decide, hmono 3 9 (by decide)⟩

end Matcher

end ConsoleLine
