import Mathlib.Data.List.Find
import ConsoleLine.Matcher

/-!
# Greedy cuts

A matcher takes a text apart greedily: no match starts in a gap, and the symbol
of each piece is the first of the list whose token stands there.

* `cut_eq_iff`: the cut of a text is its only greedy cut;
* `scan_induction`: induction over what a cut does at the start of a text;
* `cut_append`: where no token crosses the border between two texts, they are
  cut together as they are cut apart;
* `pairwise_locate`, `stop_le_length`: matches follow one another, do not overlap
  and lie inside the text.
-/

namespace ConsoleLine

variable {α : Type}

/-! ## Putting cuts together -/

namespace Cut

/-- Text in front of a cut belongs to its first gap. -/
def prepend (g : Text) (c : Cut α) : Cut α :=
  match c.pieces with
  | [] => ⟨[], g ++ c.tail⟩
  | p :: ps => ⟨⟨g ++ p.gap, p.symbol⟩ :: ps, c.tail⟩

/-- A symbol in front of a cut, with nothing before it. -/
def cons (s : α) (c : Cut α) : Cut α := ⟨⟨[], s⟩ :: c.pieces, c.tail⟩

/-- One cut after the other. -/
def append (c d : Cut α) : Cut α :=
  ⟨c.pieces ++ (d.prepend c.tail).pieces, (d.prepend c.tail).tail⟩

theorem prepend_nil (c : Cut α) : c.prepend [] = c := by
  obtain ⟨ps, t⟩ := c
  cases ps <;> rfl

theorem prepend_prepend (g h : Text) (c : Cut α) :
    (c.prepend h).prepend g = c.prepend (g ++ h) := by
  obtain ⟨ps, t⟩ := c
  cases ps <;> simp [prepend]

theorem prepend_append (g : Text) (c d : Cut α) :
    (c.prepend g).append d = (c.append d).prepend g := by
  obtain ⟨ps, t⟩ := c
  cases ps with
  | nil =>
    simp only [prepend, append, List.nil_append]
    exact (prepend_prepend g t d).symm
  | cons p ps => rfl

theorem cons_append (s : α) (c d : Cut α) : (c.cons s).append d = (c.append d).cons s := rfl

end Cut

variable [Spelled α]

namespace Matcher

/-! ## Equations -/

theorem cutFrom_eq (mr : Matcher α) (skip : Nat) (gap t : Text) :
    mr.cutFrom skip gap t = (mr.cut (t.drop skip)).prepend gap.reverse := by
  induction t generalizing skip gap with
  | nil => simp [cut, cutFrom, Cut.prepend]
  | cons c r ih =>
    cases skip with
    | succ skip => simp only [cutFrom, ih, List.drop_succ_cons]
    | zero =>
      rw [List.drop_zero, cut]
      cases h : mr.first? (c :: r) with
      | none =>
        simp only [cutFrom, h, ih, Cut.prepend_prepend, List.reverse_cons, List.reverse_nil,
          List.nil_append]
      | some s => simp [cutFrom, h, Cut.prepend]

theorem cut_nil (mr : Matcher α) : mr.cut [] = ⟨[], []⟩ := rfl

theorem cut_of_none {mr : Matcher α} {c : Char} {r : Text} (h : mr.first? (c :: r) = none) :
    mr.cut (c :: r) = (mr.cut r).prepend [c] := by
  rw [cut, cutFrom, h]
  exact mr.cutFrom_eq 0 [c] r

theorem cut_token {mr : Matcher α} {s : α} {r : Text} (h : mr.first? (token s ++ r) = some s) :
    mr.cut (token s ++ r) = (mr.cut r).cons s := by
  have hs := mr.token_ne_nil s (prefix_of_first? h).1
  cases hk : token s with
  | nil => exact absurd hk hs
  | cons c k =>
    rw [hk, List.cons_append] at h
    rw [List.cons_append, cut, cutFrom, h]
    simp [hk, cutFrom_eq, Cut.prepend_nil, Cut.cons]

/-- **Induction along a cut**: over one character at which nothing is found, or over
one token that is found, at a time. -/
@[elab_as_elim]
theorem scan_induction (mr : Matcher α) {motive : Text → Prop} (nil : motive [])
    (char : ∀ c r, mr.first? (c :: r) = none → motive r → motive (c :: r))
    (symbol : ∀ s r, mr.first? (token s ++ r) = some s → motive r → motive (token s ++ r))
    (t : Text) : motive t := by
  induction hn : t.length using Nat.strongRecOn generalizing t with
  | ind n ih =>
    cases t with
    | nil => exact nil
    | cons c r =>
      cases h : mr.first? (c :: r) with
      | none => exact char c r h (ih r.length (by simp at hn; omega) r rfl)
      | some s =>
        obtain ⟨hs, u, hu⟩ := prefix_of_first? h
        have hlen : 0 < (token s).length := List.length_pos_iff.mpr (mr.token_ne_nil s hs)
        rw [← hu] at h hn ⊢
        rw [List.length_append] at hn
        exact symbol s u h (ih u.length (by omega) u rfl)

/-! ## The greedy cut -/

/-- No match starts in `g` when `r` follows it. -/
def Passes (mr : Matcher α) (g r : Text) : Prop :=
  ∀ i < g.length, mr.first? ((g ++ r).drop i) = none

theorem passes_cons {mr : Matcher α} {c : Char} {g r : Text} :
    mr.Passes (c :: g) r ↔ mr.first? (c :: (g ++ r)) = none ∧ mr.Passes g r := by
  rw [Passes, List.length_cons, Nat.forall_lt_succ_left]
  rfl

theorem cut_passes {mr : Matcher α} {g r : Text} (h : mr.Passes g r) :
    mr.cut (g ++ r) = (mr.cut r).prepend g := by
  induction g with
  | nil => exact (Cut.prepend_nil _).symm
  | cons c g ih =>
    obtain ⟨hc, hg⟩ := passes_cons.mp h
    rw [List.cons_append, cut_of_none hc, ih hg, Cut.prepend_prepend, List.singleton_append]

/-- No match starts with a character that starts no token. -/
theorem passes_of_leading {mr : Matcher α} {g : Text} (r : Text)
    (h : g.all fun c => !mr.leading.contains c) : mr.Passes g r := by
  induction g with
  | nil => exact fun _ hi => absurd hi (Nat.not_lt_zero _)
  | cons c g ih =>
    rw [List.all_cons, Bool.and_eq_true, Bool.not_eq_true'] at h
    refine passes_cons.mpr ⟨?_, ih h.2⟩
    rw [first?, h.1, if_neg Bool.false_ne_true]

/-- Nothing is found in a text in which no token occurs. -/
theorem cut_of_not_infix {mr : Matcher α} {t : Text}
    (h : ∀ s ∈ mr.symbols, ¬ token s <:+: t) : mr.cut t = ⟨[], t⟩ := by
  have hpasses : mr.Passes t [] := by
    intro i _
    rw [List.append_nil, first?_eq, List.find?_eq_none]
    intro s hs hp
    exact h s hs ((List.isPrefixOf_iff_prefix.mp hp).isInfix.trans (List.drop_suffix i t).isInfix)
  have hcut := cut_passes hpasses
  rwa [List.append_nil, cut_nil, Cut.prepend, List.append_nil] at hcut

/-- Nothing is found in a gap, and each symbol is the one found where it stands. -/
def Greedy (mr : Matcher α) (tail : Text) : List (Piece α) → Prop
  | [] => mr.Passes tail []
  | p :: ps =>
    mr.Passes p.gap (token p.symbol ++ Cut.text ⟨ps, tail⟩) ∧
      mr.first? (token p.symbol ++ Cut.text ⟨ps, tail⟩) = some p.symbol ∧ Greedy mr tail ps

theorem greedy_prepend {mr : Matcher α} {a : Char} {c : Cut α}
    (ha : mr.first? (a :: c.text) = none) (h : mr.Greedy c.tail c.pieces) :
    mr.Greedy (c.prepend [a]).tail (c.prepend [a]).pieces := by
  obtain ⟨ps, t⟩ := c
  cases ps with
  | nil =>
    rw [Cut.text, List.flatMap_nil, List.nil_append] at ha
    exact passes_cons.mpr ⟨by rwa [List.append_nil], h⟩
  | cons p ps =>
    rw [Cut.text_cons] at ha
    exact ⟨passes_cons.mpr ⟨ha, h.1⟩, h.2⟩

theorem greedy_cut (mr : Matcher α) (t : Text) : mr.Greedy (mr.cut t).tail (mr.cut t).pieces := by
  induction t using mr.scan_induction with
  | nil => intro i hi; simp [cut_nil] at hi
  | char c r h ih =>
    rw [cut_of_none h]
    refine greedy_prepend ?_ ih
    rwa [text_cut]
  | symbol s r h ih =>
    rw [cut_token h]
    refine ⟨by intro i hi; simp at hi, ?_, ih⟩
    exact (congrArg (fun t => mr.first? (token s ++ t)) (mr.text_cut r)).trans h

theorem cut_text_of_greedy {mr : Matcher α} {tail : Text} {ps : List (Piece α)}
    (h : mr.Greedy tail ps) : mr.cut (Cut.text ⟨ps, tail⟩) = ⟨ps, tail⟩ := by
  induction ps with
  | nil =>
    have ht := cut_passes h
    rw [List.append_nil] at ht
    simpa [Cut.text, cut_nil, Cut.prepend] using ht
  | cons p ps ih =>
    obtain ⟨hg, hs, hr⟩ := h
    rw [Cut.text_cons, cut_passes hg, cut_token hs, ih hr]
    simp [Cut.cons, Cut.prepend]

/-- **A text has exactly one greedy cut.** -/
theorem cut_eq_iff {mr : Matcher α} {t : Text} {c : Cut α} :
    mr.cut t = c ↔ c.text = t ∧ mr.Greedy c.tail c.pieces := by
  constructor
  · rintro rfl
    exact ⟨mr.text_cut t, mr.greedy_cut t⟩
  · rintro ⟨rfl, h⟩
    exact cut_text_of_greedy h

theorem symbol_mem_of_greedy {mr : Matcher α} {tail : Text} {ps : List (Piece α)}
    (h : mr.Greedy tail ps) {p : Piece α} (hp : p ∈ ps) : p.symbol ∈ mr.symbols := by
  induction ps with
  | nil => simp at hp
  | cons q qs ih =>
    rcases List.mem_cons.mp hp with rfl | hp
    · exact (prefix_of_first? h.2.1).1
    · exact ih h.2.2 hp

/-! ## Borders -/

/-- The characters of a token that another one of it follows. -/
def inner (mr : Matcher α) : List Char := mr.symbols.flatMap fun s => (token s).dropLast

/-- The characters of a token that follow another one of it. -/
def later (mr : Matcher α) : List Char := mr.symbols.flatMap fun s => (token s).tail

/-- No token crosses the border between the two texts. -/
def Apart (mr : Matcher α) (a b : Text) : Prop :=
  ∀ s ∈ mr.symbols, ∀ i < a.length,
    a.length < i + (token s).length → ¬ token s <+: (a ++ b).drop i

theorem Apart.of_append {mr : Matcher α} {a a' b : Text} (h : mr.Apart (a ++ a') b) :
    mr.Apart a' b := by
  intro s hs i hi hlen hp
  refine h s hs (a.length + i) ?_ ?_ ?_
  · simpa using hi
  · rw [List.length_append]; omega
  · rwa [List.append_assoc, ← List.drop_drop, List.drop_left]

/-- What stands after `a` changes nothing at its start if no token there reaches so far. -/
theorem first?_append_of_fits {mr : Matcher α} {a b : Text}
    (h : ∀ s ∈ mr.symbols, token s <+: a ++ b → (token s).length ≤ a.length) :
    mr.first? (a ++ b) = mr.first? a := by
  rw [first?_eq, first?_eq]
  apply List.find?_congr
  intro s hs
  rw [Bool.eq_iff_iff, List.isPrefixOf_iff_prefix, List.isPrefixOf_iff_prefix]
  constructor
  · intro hp
    exact List.prefix_of_prefix_length_le hp (List.prefix_append a b) (h s hs hp)
  · intro hp
    exact hp.trans (List.prefix_append a b)

theorem Apart.first?_append {mr : Matcher α} {a b : Text} (h : mr.Apart a b) (ha : a ≠ []) :
    mr.first? (a ++ b) = mr.first? a :=
  first?_append_of_fits fun s hs hp =>
    Nat.le_of_not_lt fun hlt => h s hs 0 (List.length_pos_iff.mpr ha) (by omega) hp

theorem Apart.first?_char {mr : Matcher α} {c : Char} {r b : Text} (h : mr.Apart (c :: r) b)
    (hc : mr.first? (c :: r) = none) : mr.first? (c :: (r ++ b)) = none :=
  (h.first?_append (List.cons_ne_nil c r)).trans hc

theorem Apart.first?_symbol {mr : Matcher α} {s : α} {r b : Text} (h : mr.Apart (token s ++ r) b)
    (hs : mr.first? (token s ++ r) = some s) : mr.first? (token s ++ (r ++ b)) = some s := by
  have hne : token s ++ r ≠ [] :=
    List.append_ne_nil_of_left_ne_nil (mr.token_ne_nil s (prefix_of_first? hs).1) r
  rw [← List.append_assoc, h.first?_append hne, hs]

/-- A token that crosses the border ends the first text and begins the second. -/
theorem apart_of_parts {mr : Matcher α} {a b : Text}
    (h : ∀ s ∈ mr.symbols, ∀ x y, token s = x ++ y → x ≠ [] → y ≠ [] → x <:+ a → ¬ y <+: b) :
    mr.Apart a b := by
  intro s hs i hi hlen hp
  rw [List.drop_append_of_le_length (Nat.le_of_lt hi)] at hp
  have hcross : a.drop i <+: token s := by
    apply List.prefix_of_prefix_length_le (List.prefix_append _ b) hp
    rw [List.length_drop]; omega
  obtain ⟨y, hy⟩ := hcross
  rw [← hy, List.prefix_append_right_inj] at hp
  refine h s hs (a.drop i) y hy.symm (by simpa using hi) ?_ (List.drop_suffix i a) hp
  rintro rfl
  rw [← hy, List.append_nil, List.length_drop] at hlen; omega

theorem apart_of_getLast? {mr : Matcher α} {a : Text} (b : Text)
    (h : ∀ c, a.getLast? = some c → c ∉ mr.inner) : mr.Apart a b := by
  refine apart_of_parts fun s hs x y hxy hx hy hsuffix _ => ?_
  refine h (x.getLast hx) ?_ (List.mem_flatMap.mpr ⟨s, hs, ?_⟩)
  · obtain ⟨w, rfl⟩ := hsuffix
    rw [List.getLast?_append, List.getLast?_eq_some_getLast hx, Option.some_or]
  · rw [hxy, List.dropLast_append_of_ne_nil hy]
    exact List.mem_append_left _ (List.getLast_mem hx)

theorem apart_of_head? {mr : Matcher α} (a : Text) {b : Text}
    (h : ∀ c, b.head? = some c → c ∉ mr.later) : mr.Apart a b := by
  refine apart_of_parts fun s hs x y hxy hx hy _ hprefix => ?_
  obtain ⟨c, y, rfl⟩ := List.exists_cons_of_ne_nil hy
  obtain ⟨r, rfl⟩ := hprefix
  refine h c rfl (List.mem_flatMap.mpr ⟨s, hs, ?_⟩)
  rw [hxy, List.tail_append_of_ne_nil hx]
  exact List.mem_append_right _ List.mem_cons_self

/-- **Where no token crosses the border, each side is cut on its own.** -/
theorem cut_append {mr : Matcher α} {a b : Text} (h : mr.Apart a b) :
    mr.cut (a ++ b) = (mr.cut a).append (mr.cut b) := by
  induction a using mr.scan_induction with
  | nil => exact (Cut.prepend_nil _).symm
  | char c r hc ih =>
    rw [List.cons_append, cut_of_none (h.first?_char hc), cut_of_none hc,
      ih (h.of_append (a := [c])), Cut.prepend_append]
  | symbol s r hs ih =>
    rw [List.append_assoc, cut_token (h.first?_symbol hs), cut_token hs, ih h.of_append,
      Cut.cons_append]

end Matcher

/-! ## Places -/

/-- The match as it stands `k` characters further on. -/
def Match.shift (k : Nat) (m : Match α) : Match α := { m with start := m.start + k }

theorem locate_prepend (i : Nat) (g : Text) (c : Cut α) :
    locate i (c.prepend g).pieces = locate (i + g.length) c.pieces := by
  obtain ⟨ps, t⟩ := c
  cases ps with
  | nil => rfl
  | cons p ps => simp only [Cut.prepend, locate, List.length_append, Nat.add_assoc]

theorem locate_cons (i : Nat) (s : α) (c : Cut α) :
    locate i (c.cons s).pieces = ⟨s, i⟩ :: locate (i + (token s).length) c.pieces := rfl

theorem locate_append (i : Nat) (ps qs : List (Piece α)) :
    locate i (ps ++ qs) = locate i ps ++ locate (i + (ps.flatMap Piece.text).length) qs := by
  induction ps generalizing i with
  | nil => rfl
  | cons p ps ih =>
    have hlen : i + p.gap.length + (token p.symbol).length + (ps.flatMap Piece.text).length =
        i + ((p :: ps).flatMap Piece.text).length := by
      simp [Piece.text]; omega
    simp only [List.cons_append, locate, Match.stop, Match.token, ih, hlen]

theorem stop_le_of_mem_locate {i : Nat} {ps : List (Piece α)} {m : Match α}
    (h : m ∈ locate i ps) : m.stop ≤ i + (ps.flatMap Piece.text).length := by
  induction ps generalizing i with
  | nil => simp [locate] at h
  | cons p ps ih =>
    have hlen : i + ((p :: ps).flatMap Piece.text).length =
        i + p.gap.length + (token p.symbol).length + (ps.flatMap Piece.text).length := by
      simp [Piece.text]; omega
    rw [hlen]
    rcases List.mem_cons.mp h with rfl | h
    · exact Nat.le_add_right _ _
    · exact ih h

theorem Matcher.length_cut (mr : Matcher α) (t : Text) :
    ((mr.cut t).pieces.flatMap Piece.text).length + (mr.cut t).tail.length = t.length := by
  rw [← List.length_append]
  exact congrArg List.length (mr.text_cut t)

/-- Every match lies inside the text. -/
theorem stop_le_length {mr : Matcher α} {t : Text} {m : Match α} (h : m ∈ mr.findAll t) :
    m.stop ≤ t.length := by
  have hstop := stop_le_of_mem_locate h
  have hlen := mr.length_cut t
  omega

/-- Where no token crosses the border, each side is searched on its own. -/
theorem Matcher.findAll_append {mr : Matcher α} {a b : Text} (h : mr.Apart a b) :
    mr.findAll (a ++ b) = mr.findAll a ++ locate a.length (mr.cut b).pieces := by
  rw [findAll, cut_append h]
  simp only [Cut.append]
  rw [locate_append, locate_prepend, Nat.zero_add, length_cut]
  rfl

theorem le_start_of_mem_locate {i : Nat} {ps : List (Piece α)} {m : Match α}
    (h : m ∈ locate i ps) : i ≤ m.start := by
  induction ps generalizing i with
  | nil => simp [locate] at h
  | cons p ps ih =>
    rcases List.mem_cons.mp h with rfl | h
    · exact Nat.le_add_right _ _
    · exact Nat.le_trans (Nat.le_trans (Nat.le_add_right _ _) (Nat.le_add_right _ _)) (ih h)

theorem symbol_mem_findAll {mr : Matcher α} {t : Text} {m : Match α} (h : m ∈ mr.findAll t) :
    m.symbol ∈ mr.symbols := by
  have hg := mr.greedy_cut t
  revert hg h
  rw [Matcher.findAll]
  generalize (mr.cut t).pieces = ps, 0 = i
  intro h hg
  induction ps generalizing i with
  | nil => simp [locate] at h
  | cons p ps ih =>
    rcases List.mem_cons.mp h with rfl | h
    · exact Matcher.symbol_mem_of_greedy hg List.mem_cons_self
    · exact ih _ h hg.2.2

/-- **Matches do not overlap.** -/
theorem pairwise_locate (i : Nat) (ps : List (Piece α)) :
    (locate i ps).Pairwise fun m n => m.stop ≤ n.start := by
  induction ps generalizing i with
  | nil => exact List.Pairwise.nil
  | cons p ps ih => exact List.pairwise_cons.mpr ⟨fun n hn => le_start_of_mem_locate hn, ih _⟩

/-- No token is empty. -/
theorem Matcher.lt_stop_of_mem {mr : Matcher α} {m : Match α} (h : m.symbol ∈ mr.symbols) :
    m.start < m.stop := by
  have hlen := List.length_pos_iff.mpr (mr.token_ne_nil _ h)
  simp only [Match.stop, Match.token]
  omega

theorem start_lt_stop {mr : Matcher α} {t : Text} {m : Match α} (h : m ∈ mr.findAll t) :
    m.start < m.stop := Matcher.lt_stop_of_mem (symbol_mem_findAll h)

theorem nodup_findAll (mr : Matcher α) (t : Text) : (mr.findAll t).Nodup := by
  apply (pairwise_locate 0 (mr.cut t).pieces).imp_of_mem
  rintro m n hm - hle rfl
  have hlt := start_lt_stop hm
  omega

end ConsoleLine
