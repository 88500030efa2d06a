import Mathlib.Algebra.GroupWithZero.Nat
import Mathlib.Data.List.Sort
import ConsoleLine.Proofs.Search

/-!
# The canonical cover of a text

The matches of a text are found by searching again behind each match, and they are the only
list of matches that is in order, takes the earliest symbol at each place and leaves no token
uncovered.

* `Resumes`, `resumes_findAll`: the searches one after the other, which come to an end;
* `Covering`, `covering_findAll`: a cover of the places where tokens stand;
* `Covering.mem_of_mem`, `Covering.eq`: two covers of a text are one;
* `findAll_canonical`: the matches of a text are its cover;
* `findAll_of_apart`: where no token crosses the border between two texts, the matches of
  both are those of the first and then those of the second.
-/

namespace ConsoleLine

variable {α : Type} [Spelled α]

namespace Matcher

/-! ## Searching behind each match -/

/-- A search from offset `i` and, as long as a match is found, another one behind it. -/
inductive Resumes (mr : Matcher α) (t : Text) : Nat → List (Match α) → Prop
  | done {i : Nat} (h : mr.find? t i = none) : Resumes mr t i []
  | found {i : Nat} {m : Match α} {ms : List (Match α)} (h : mr.find? t i = some m)
      (hrest : Resumes mr t m.stop ms) : Resumes mr t i (m :: ms)

variable {mr : Matcher α} {t : Text}

/-- Where nothing is found the search goes on with the next character. -/
theorem find?_of_none {i : Nat} (h : mr.first? (t.drop i) = none) :
    mr.find? t i = mr.find? t ((i + 1 : Nat) : Int) := by
  rw [find?, find?, Int.toNat_natCast, Int.toNat_natCast]
  cases hr : t.drop i with
  | nil => rw [← List.drop_drop, hr]; rfl
  | cons c r =>
    have hnext : t.drop (i + 1) = r := by rw [← List.drop_drop, hr]; rfl
    rw [hr] at h
    rw [hnext, findFrom?, h]

theorem Resumes.of_none {i : Nat} {ms : List (Match α)} (h : mr.first? (t.drop i) = none)
    (hms : mr.Resumes t (i + 1) ms) : mr.Resumes t i ms := by
  cases hms with
  | done hnone => exact .done ((find?_of_none h).trans hnone)
  | found hsome hrest => exact .found ((find?_of_none h).trans hsome) hrest

theorem resumes_locate (mr : Matcher α) (a r : Text) :
    mr.Resumes (a ++ r) a.length (locate a.length (mr.cut r).pieces) := by
  induction r using mr.scan_induction generalizing a with
  | nil =>
    refine .done ?_
    rw [find?, Int.toNat_natCast, List.drop_left]
    rfl
  | char c r hc ih =>
    have hnone : mr.first? ((a ++ c :: r).drop a.length) = none := by rwa [List.drop_left]
    refine .of_none hnone ?_
    rw [cut_of_none hc, locate_prepend]
    simpa using ih (a ++ [c])
  | symbol s r hs ih =>
    have hsome : mr.first? ((a ++ (token s ++ r)).drop a.length) = some s := by
      rwa [List.drop_left]
    rw [cut_token hs, locate_cons]
    refine .found (find?_of_first? hsome) ?_
    simpa [Match.stop, Match.token] using ih (a ++ token s)

/-- **The searches come to an end**, and have found the matches of the text. -/
theorem resumes_findAll (mr : Matcher α) (t : Text) : mr.Resumes t 0 (mr.findAll t) :=
  mr.resumes_locate [] t

/-! ## Covers -/

/-- Matches that cover each place where a token stands. -/
structure Covering (mr : Matcher α) (t : Text) (ms : List (Match α)) : Prop where
  earliest : ∀ m ∈ ms, Earliest mr.symbols (t.drop m.start) m.symbol
  /-- Each match ends before the next one starts, or where it does. -/
  apart : ms.IsChain fun m n => m.stop ≤ n.start
  covered : ∀ k, mr.TokenAt t k → ∃ m ∈ ms, m.Covers k
  sum_le : (ms.map fun m => m.token.length).sum ≤ t.length

theorem sum_length_locate (i : Nat) (ps : List (Piece α)) :
    ((locate i ps).map fun m => m.token.length).sum ≤ (ps.flatMap Piece.text).length := by
  induction ps generalizing i with
  | nil => exact Nat.le_refl 0
  | cons p ps ih =>
    have hrest := ih (i + p.gap.length + (token p.symbol).length)
    simp only [locate, Match.stop, Match.token, List.map_cons, List.sum_cons, List.flatMap_cons,
      Piece.text, List.length_append] at hrest ⊢
    omega

theorem covering_findAll (mr : Matcher α) (t : Text) : mr.Covering t (mr.findAll t) where
  earliest _ hm := first?_eq_some_iff_earliest.mp (first?_of_mem_findAll hm)
  apart := (pairwise_locate 0 (mr.cut t).pieces).isChain
  covered := fun _ ⟨_, hs, hp⟩ => exists_covers hs hp
  sum_le := by
    have hsum := sum_length_locate 0 (mr.cut t).pieces
    have hlen := mr.length_cut t
    rw [findAll]
    omega

namespace Covering

variable {ms ns : List (Match α)} {m : Match α}

theorem first? (h : mr.Covering t ms) (hm : m ∈ ms) : mr.first? (t.drop m.start) = some m.symbol :=
  first?_eq_some_iff_earliest.mpr (h.earliest m hm)

theorem start_lt_stop (h : mr.Covering t ms) (hm : m ∈ ms) : m.start < m.stop :=
  lt_stop_of_mem (prefix_of_first? (h.first? hm)).1

theorem pairwise (h : mr.Covering t ms) : ms.Pairwise fun m n => m.stop ≤ n.start := by
  have : IsTrans (Match α) fun m n => m.stop ≤ n.start := ⟨fun m n k hmn hnk =>
    Nat.le_trans hmn (Nat.le_trans (Nat.le_add_right n.start n.token.length) hnk)⟩
  exact List.isChain_iff_pairwise.mp h.apart

theorem pairwise_start (h : mr.Covering t ms) : ms.Pairwise fun m n => m.start < n.start :=
  h.pairwise.imp_of_mem fun hm _ hle => Nat.lt_of_lt_of_le (h.start_lt_stop hm) hle

/-- **A match of one cover is in every other.** The induction is on where it starts: the match
that covers this place in the other cover cannot start before it, or the first cover would
have that match too and the two would overlap there. -/
theorem mem_of_mem (h : mr.Covering t ms) (h' : mr.Covering t ns) (hm : m ∈ ms) : m ∈ ns := by
  induction hk : m.start using Nat.strongRecOn generalizing m ms ns with
  | ind k ih =>
    obtain ⟨n, hn, hstart, hstop⟩ := h'.covered m.start (tokenAt_of_first? (h.first? hm))
    rcases Nat.eq_or_lt_of_le hstart with heq | hlt
    · have hsymbol := h'.first? hn
      rw [heq, h.first? hm] at hsymbol
      obtain rfl : n = m := congr (congrArg Match.mk (Option.some.inj hsymbol).symm) heq
      exact hn
    · have hn' : n ∈ ms := ih n.start (hk ▸ hlt) h' h hn rfl
      have hpos := h.start_lt_stop hm
      rcases eq_or_stop_le h.pairwise hm hn' with rfl | hle | hle
      · exact hn
      · omega
      · omega

/-- **A text has one cover.** -/
theorem eq (h : mr.Covering t ms) (h' : mr.Covering t ns) : ms = ns := by
  have hne {l : List (Match α)} (hl : l.Pairwise fun m n => m.start < n.start) : l.Nodup :=
    hl.imp fun hlt heq => Nat.ne_of_lt hlt (congrArg Match.start heq)
  have hperm : ms.Perm ns := (List.perm_ext_iff_of_nodup (hne h.pairwise_start)
    (hne h'.pairwise_start)).mpr fun m => ⟨h.mem_of_mem h', h'.mem_of_mem h⟩
  refine List.Perm.eq_of_pairwise ?_ h.pairwise_start h'.pairwise_start hperm
  intro m n _ _ hmn hnm
  omega

end Covering

/-- **The matches of a text are its only cover**, and searching behind each match finds them. -/
theorem findAll_canonical (mr : Matcher α) (t : Text) :
    mr.Resumes t 0 (mr.findAll t) ∧ ∀ ms, mr.Covering t ms ↔ ms = mr.findAll t := by
  refine ⟨mr.resumes_findAll t, fun ms => ⟨fun h => h.eq (mr.covering_findAll t), ?_⟩⟩
  rintro rfl
  exact mr.covering_findAll t

/-- A place where a token is hidden by the match before it is covered all the same. -/
example :
    findAll { symbols := [['a', 'a'], ['a'], ['a', 'b']] } ['b', 'a', 'a', 'a', 'b'] =
      [⟨['a', 'a'], 1⟩, ⟨['a'], 3⟩] := by decide

/-! ## Two texts -/

/-- **Where no token crosses the border, the matches of two texts are those of each.** -/
theorem findAll_of_apart {a b : Text} (h : mr.Apart a b) :
    mr.findAll (a ++ b) = mr.findAll a ++ (mr.findAll b).map (Match.shift a.length) := by
  have hshift := locate_shift a.length 0 (mr.cut b).pieces
  rw [Nat.zero_add] at hshift
  rw [findAll_append h, hshift]
  rfl

/-- The first text ends in a character with which a token starts, and a longer token than
those before it follows the border. -/
theorem findAll_of_apart_redirections :
    redirection.Apart ['2', '>', '>', '2'] ['2', '>', '&', '1'] ∧
      redirection.findAll (['2', '>', '>', '2'] ++ ['2', '>', '&', '1']) =
        redirection.findAll ['2', '>', '>', '2'] ++
          (redirection.findAll ['2', '>', '&', '1']).map (Match.shift 4) := by
  have h : redirection.Apart ['2', '>', '>', '2'] ['2', '>', '&', '1'] := by
    unfold Apart
    decide
  exact ⟨h, findAll_of_apart h⟩

/-- A token across the border is in neither text. -/
example :
    redirection.findAll (['a', '2'] ++ ['>', 'b']) = [⟨.overwriteErr, 1⟩] ∧
      redirection.findAll ['a', '2'] = [] ∧
      redirection.findAll ['>', 'b'] = [⟨.overwriteOut, 0⟩] := by decide

end Matcher

end ConsoleLine
