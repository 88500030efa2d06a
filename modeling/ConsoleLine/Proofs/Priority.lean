import ConsoleLine.Proofs.Search

/-!
# Priority and length

Of the tokens that stand at one place the earliest of the list is taken. This is the longest
one at every place of every text just when no token is listed behind one that starts it.

* `Unshadowed`: lists without such a token;
* `Longest`, `FindsLongest`: matches of the longest token at their start, and matchers that
  find no others;
* `findsLongest_iff`: the matchers of unshadowed lists;
* `find?_congr`, `findAll_congr`: what is found depends on what is found at each place;
* `first?_eq_of_same`: the order of an unshadowed list does not matter;
* `longest_by_priority`: both, and that the lists of the standard matchers are unshadowed.
-/

namespace ConsoleLine

variable {α : Type} [Spelled α]

/-- No token has one that starts it in front of its first place in the list. -/
def Unshadowed (l : List Text) : Prop := ∀ k ∈ l, ∀ a ∈ l.takeWhile (· != k), ¬ a <+: k

instance (l : List Text) : Decidable (Unshadowed l) :=
  inferInstanceAs (Decidable (∀ k ∈ l, ∀ a ∈ l.takeWhile (· != k), ¬ a <+: k))

/-! ## In front of the first place -/

theorem mem_takeWhile_of_append {as bs : List Text} {a k : Text} (has : k ∉ as) (ha : a ≠ k) :
    a ∈ (as ++ a :: bs).takeWhile (· != k) := by
  have hpos : ∀ b ∈ as, (b != k) = true := fun b hb =>
    bne_iff_ne.mpr fun heq => has (heq ▸ hb)
  have hstop : (a != k) = true := bne_iff_ne.mpr ha
  rw [List.takeWhile_append_of_pos hpos, List.takeWhile_cons, if_pos hstop]
  exact List.mem_append_right as List.mem_cons_self

theorem mem_of_mem_takeWhile {as bs : List Text} {a k : Text}
    (h : a ∈ (as ++ k :: bs).takeWhile (· != k)) : a ∈ as := by
  induction as with
  | nil => simp at h
  | cons b as ih =>
    rw [List.cons_append, List.takeWhile_cons] at h
    split at h
    next =>
      rcases List.mem_cons.mp h with rfl | h
      · exact List.mem_cons_self
      · exact List.mem_cons_of_mem b (ih h)
    next => cases h

namespace Matcher

/-! ## The longest token -/

/-- No token of the list that stands where the match starts is longer. -/
def Longest (mr : Matcher α) (t : Text) (m : Match α) : Prop :=
  m.symbol ∈ mr.symbols ∧ m.token <+: t.drop m.start ∧
    ∀ s ∈ mr.symbols, token s <+: t.drop m.start → (token s).length ≤ m.token.length

def FindsLongest (mr : Matcher α) : Prop := ∀ t pos m, mr.find? t pos = some m → mr.Longest t m

variable {mr : Matcher α}

theorem tokens_eq_append {as bs : List α} {s : α} (h : mr.symbols = as ++ s :: bs) :
    mr.tokens = as.map token ++ token s :: bs.map token := by
  rw [tokens, h, List.map_append, List.map_cons]

/-- Two tokens that stand at one place start one another, and the one that is listed first is
not the shorter one. -/
theorem length_le_of_first? (h : Unshadowed mr.tokens) {t : Text} {s a : α}
    (hs : mr.first? t = some s) (ha : a ∈ mr.symbols) (hp : token a <+: t) :
    (token a).length ≤ (token s).length := by
  by_contra hlt
  obtain ⟨hstands, as, bs, hl, has⟩ := first?_eq_some_iff.mp hs
  have hpre : token s <+: token a :=
    List.prefix_of_prefix_length_le hstands hp (by omega)
  have hne : token s ≠ token a := fun heq => hlt (Nat.le_of_eq (congrArg List.length heq.symm))
  have hbefore : token a ∉ as.map token := by
    intro hmem
    obtain ⟨b, hb, heq⟩ := List.mem_map.mp hmem
    exact has b hb (heq ▸ hp)
  refine h (token a) (List.mem_map_of_mem ha) (token s) ?_ hpre
  rw [tokens_eq_append hl]
  exact mem_takeWhile_of_append hbefore hne

theorem longest_of_first? (h : Unshadowed mr.tokens) {t : Text} {m : Match α}
    (hm : mr.first? (t.drop m.start) = some m.symbol) : mr.Longest t m := by
  obtain ⟨hs, hp⟩ := prefix_of_first? hm
  exact ⟨hs, hp, fun _ ha hpa => length_le_of_first? h hm ha hpa⟩

theorem longest_of_mem_findAll (h : Unshadowed mr.tokens) {t : Text} {m : Match α}
    (hm : m ∈ mr.findAll t) : mr.Longest t m := longest_of_first? h (first?_of_mem_findAll hm)

/-- A token behind one that starts it is not found where it stands alone. -/
theorem ne_token_of_first? {k a : Text} (ha : a ∈ mr.tokens.takeWhile (· != k)) (hp : a <+: k)
    {s : α} (hs : mr.first? k = some s) : token s ≠ k := by
  rintro rfl
  obtain ⟨-, as, bs, hl, has⟩ := first?_eq_some_iff.mp hs
  rw [tokens_eq_append hl] at ha
  obtain ⟨b, hb, rfl⟩ := List.mem_map.mp (mem_of_mem_takeWhile ha)
  exact has b hb hp

theorem unshadowed_of_findsLongest (h : mr.FindsLongest) : Unshadowed mr.tokens := by
  intro k hk a ha hp
  obtain ⟨s', hs', rfl⟩ := List.mem_map.mp hk
  -- The shadowed token is itself a text in which it stands and another one is found.
  have hstands : mr.first? (token s') ≠ none := fun hnone =>
    first?_eq_none_iff.mp hnone s' hs' (List.prefix_refl _)
  obtain ⟨s, hs⟩ := Option.ne_none_iff_exists'.mp hstands
  have hfound : mr.find? (token s') 0 = some ⟨s, 0⟩ := find?_of_first? (i := 0) hs
  obtain ⟨-, hpre, hlong⟩ := h _ _ _ hfound
  refine ne_token_of_first? ha hp hs (hpre.eq_of_length_le ?_)
  exact hlong s' hs' (List.prefix_refl _)

/-- **The longest token is found everywhere** just when none is listed behind one that starts
it. -/
theorem findsLongest_iff : mr.FindsLongest ↔ Unshadowed mr.tokens := by
  refine ⟨unshadowed_of_findsLongest, fun h t pos m hm => longest_of_first? h ?_⟩
  exact first?_eq_some_iff_earliest.mpr (find?_eq_some_iff.mp hm).2

/-! ## Lists of the same tokens -/

theorem findFrom?_congr {mr nr : Matcher α} (h : ∀ t, mr.first? t = nr.first? t) (i : Nat)
    (t : Text) : mr.findFrom? i t = nr.findFrom? i t := by
  induction t generalizing i with
  | nil => rfl
  | cons c r ih => rw [findFrom?, findFrom?, h, ih]

theorem find?_congr {mr nr : Matcher α} (h : ∀ t, mr.first? t = nr.first? t) (t : Text)
    (pos : Int) : mr.find? t pos = nr.find? t pos := findFrom?_congr h pos.toNat _

theorem findAll_congr {mr nr : Matcher α} (h : ∀ t, mr.first? t = nr.first? t) (t : Text) :
    mr.findAll t = nr.findAll t := by
  induction t using mr.scan_induction with
  | nil => rfl
  | char c r hc ih => rw [findAll_char hc, findAll_char (h _ ▸ hc), ih]
  | symbol s r hs ih => rw [findAll_symbol hs, findAll_symbol (h _ ▸ hs), ih]

/-- The longest token at a place, said of the set of tokens alone. -/
theorem first?_eq_some_iff_longest {mr : Matcher Text} (h : Unshadowed mr.tokens) {t k : Text} :
    mr.first? t = some k ↔
      k ∈ mr.tokens ∧ k <+: t ∧ ∀ a ∈ mr.tokens, a <+: t → a.length ≤ k.length := by
  have htokens : mr.tokens = mr.symbols := List.map_id mr.symbols
  rw [htokens]
  constructor
  · intro hk
    obtain ⟨hmem, hp⟩ := prefix_of_first? hk
    exact ⟨hmem, hp, fun a ha hpa => length_le_of_first? h hk ha hpa⟩
  · rintro ⟨hmem, hp, hlong⟩
    have hstands : mr.first? t ≠ none := fun hnone => first?_eq_none_iff.mp hnone k hmem hp
    obtain ⟨k', hk'⟩ := Option.ne_none_iff_exists'.mp hstands
    obtain ⟨hmem', hp'⟩ := prefix_of_first? hk'
    have hle : k.length ≤ k'.length := length_le_of_first? h hk' hmem hp
    have hpre : k <+: k' := List.prefix_of_prefix_length_le hp hp' hle
    rw [hk', hpre.eq_of_length_le (hlong k' hmem' hp')]

/-- **The order of an unshadowed list does not matter.** -/
theorem first?_eq_of_same {mr nr : Matcher Text} (hsame : ∀ k, k ∈ mr.tokens ↔ k ∈ nr.tokens)
    (hmr : Unshadowed mr.tokens) (hnr : Unshadowed nr.tokens) (t : Text) :
    mr.first? t = nr.first? t := by
  apply Option.ext
  intro k
  rw [first?_eq_some_iff_longest hmr, first?_eq_some_iff_longest hnr]
  simp only [hsame]

/-! ## The standard matchers -/

/-- **Priority is length where no token is shadowed**, and only there. So two such lists of the
same tokens find the same, and the standard matchers find the longest token everywhere. -/
theorem longest_by_priority :
    (∀ mr : Matcher Text, mr.FindsLongest ↔ Unshadowed mr.tokens) ∧
      (∀ mr nr : Matcher Text, (∀ k, k ∈ mr.tokens ↔ k ∈ nr.tokens) → Unshadowed mr.tokens →
        Unshadowed nr.tokens →
          ∀ t, (∀ pos, mr.find? t pos = nr.find? t pos) ∧ mr.findAll t = nr.findAll t) ∧
      (Unshadowed control.tokens ∧ control.FindsLongest ∧
        ∀ t, ∀ m ∈ control.findAll t, control.Longest t m) ∧
      (Unshadowed redirection.tokens ∧ redirection.FindsLongest ∧
        ∀ t, ∀ m ∈ redirection.findAll t, redirection.Longest t m) ∧
      (Unshadowed pipelineAndEnd.tokens ∧ pipelineAndEnd.FindsLongest ∧
        ∀ t, ∀ m ∈ pipelineAndEnd.findAll t, pipelineAndEnd.Longest t m) := by
  have hcontrol : Unshadowed control.tokens := by decide
  have hredirection : Unshadowed redirection.tokens := by decide
  have hpipeline : Unshadowed pipelineAndEnd.tokens := by decide
  refine ⟨fun mr => findsLongest_iff, fun mr nr hsame hmr hnr t => ?_, ?_, ?_, ?_⟩
  · have hfirst := first?_eq_of_same hsame hmr hnr
    exact ⟨find?_congr hfirst t, findAll_congr hfirst t⟩
  · exact ⟨hcontrol, findsLongest_iff.mpr hcontrol, fun _ _ => longest_of_mem_findAll hcontrol⟩
  · exact ⟨hredirection, findsLongest_iff.mpr hredirection,
      fun _ _ => longest_of_mem_findAll hredirection⟩
  · exact ⟨hpipeline, findsLongest_iff.mpr hpipeline, fun _ _ => longest_of_mem_findAll hpipeline⟩

/-- Two orders of three tokens, each with one of them listed twice. -/
theorem longest_by_priority_reordered :
    ∃ mr nr : Matcher Text,
      ofSymbols [['a', 'b'], ['a'], ['b'], ['a']] = .ok mr ∧
        ofSymbols [['b'], ['a', 'b'], ['b'], ['a']] = .ok nr ∧
        (∀ k, k ∈ mr.tokens ↔ k ∈ nr.tokens) ∧ Unshadowed mr.tokens ∧ Unshadowed nr.tokens ∧
        mr.find? ['b', 'a', 'a', 'b'] 1 = nr.find? ['b', 'a', 'a', 'b'] 1 ∧
        mr.findAll ['b', 'a', 'a', 'b'] = nr.findAll ['b', 'a', 'a', 'b'] := by
  refine ⟨{ symbols := [['a', 'b'], ['a'], ['b'], ['a']] },
    { symbols := [['b'], ['a', 'b'], ['b'], ['a']] }, rfl, rfl, ?_⟩
  have hsame : ∀ k : Text, k ∈ [['a', 'b'], ['a'], ['b'], ['a']] ↔
      k ∈ [['b'], ['a', 'b'], ['b'], ['a']] := by
    intro k
    simp only [List.mem_cons, List.not_mem_nil, or_false]
    tauto
  obtain ⟨hfind, hfindAll⟩ := longest_by_priority.2.1
    { symbols := [['a', 'b'], ['a'], ['b'], ['a']] }
    { symbols := [['b'], ['a', 'b'], ['b'], ['a']] }
    hsame (by decide) (by decide) ['b', 'a', 'a', 'b']
  exact ⟨hsame, by decide, by decide, hfind 1, hfindAll⟩

/-- The catalog with `2>` in front of `2>&1` would never find the latter. -/
example : ¬ Unshadowed [['2', '>'], ['2', '>', '&', '1']] := by decide

end Matcher

end ConsoleLine
