import ConsoleLine.Completion
import ConsoleLine.Proofs.LastMatch
import ConsoleLine.Proofs.Projection
import ConsoleLine.Proofs.Resume

/-!
# Where completion starts

With the cursor at the end of a line, completion works on what the last split of
the line leaves over, as long as that text holds no symbol. The line is searched
twice for this, without regard to quotes and guards, and both searches end where
the last split does.

* `findAll_of_last_split`: the operator of the last split is the last symbol found;
* `findAll_pipelineAndEnd`, `findAll_pipelineAndEnd_redirection`: the search for
  operators that start a command, up to one of its own and up to a redirection;
* `ofCursor_command`, `ofCursor_file`: the target behind either kind of operator;
* `ofCursor_last_split`: the text to complete is the remainder;
* `findAll_append_ordinary`, `ofCursor_append_ordinary`: text without operators, typed at the
  end of a line, makes no match and does not move the start.
-/

namespace ConsoleLine

/-! ## The cursor at the end -/

theorem clamp_of_length_le {line : Text} {cursor : Int} (h : line.length ≤ cursor) :
    clamp line cursor = line.length := by
  rw [clamp]; omega

theorem Matcher.last?_of_length_le {α : Type} [Spelled α] (mr : Matcher α) {line : Text}
    {cursor : Int} (h : line.length ≤ cursor) : mr.last? line cursor = (mr.findAll line).getLast? := by
  have hall : ∀ m ∈ mr.findAll line, decide (m.start ≤ line.length) = true := by
    intro m hm
    have hstop := stop_le_length hm
    have hstart := start_lt_stop hm
    rw [decide_eq_true_eq]
    omega
  rw [last?_eq_filter, clamp_of_length_le h, List.filter_eq_self.mpr hall]

/-- The target at the end of a line, from the stop that counts. -/
theorem Target.ofCursor_of_length_le {line : Text} {cursor : Int} {file : Option (Match Operator)}
    {k : Nat} (h : line.length ≤ cursor)
    (hfile : ((Matcher.redirection.last? line cursor).filter fun m =>
      decide (lastPipelineOrEndStop line cursor < m.stop) && m.symbol != .overwriteOutAndErr) = file)
    (hk : file.elim (lastPipelineOrEndStop line cursor) Match.stop = k) (hle : k ≤ line.length) :
    ofCursor line cursor = ⟨k, line.drop k, file.isSome⟩ := by
  simp only [ofCursor, hfile, hk, clamp_of_length_le h, Nat.min_eq_left hle, List.take_length]

/-! ## The last split -/

theorem findAll_eq_nil {α : Type} [Spelled α] {mr : Matcher α} {t : Text}
    (h : ∀ s ∈ mr.symbols, ¬ token s <:+: t) : mr.findAll t = [] := by
  rw [Matcher.findAll, Matcher.cut_of_not_infix h]
  rfl

/-- **The operator of the last split is the last symbol found**, if none follows it. -/
theorem findAll_of_last_split {line : Text} {s : Segment}
    (h : (survey line).segments.getLast? = some s)
    (hfree : Matcher.control.findAll (survey line).rest = []) :
    ∃ a ms, line = a ++ (s.operator.token ++ (survey line).rest) ∧
      Matcher.control.findAll line = ms ++ [⟨.operator s.operator, a.length⟩] := by
  induction hl : (survey line).segments generalizing line with
  | nil => rw [hl] at h; cases h
  | cons s' segs ih =>
    obtain ⟨t, ms, hline, hsegs, hrest, hfound⟩ := after_first_split hl
    rw [← hrest] at hfree ⊢
    cases segs with
    | nil =>
      rw [hl] at h
      obtain rfl : s' = s := Option.some.inj h
      rw [rest_of_segments_nil hsegs] at hfree ⊢
      refine ⟨s'.text, ms, hline, ?_⟩
      rw [hfound, hfree, List.map_nil]
    | cons s₂ segs =>
      rw [hl, List.getLast?_cons_cons, ← hsegs] at h
      obtain ⟨a, ns, ht, hns⟩ := ih h hfree hsegs
      refine ⟨s'.text ++ (s'.operator.token ++ a), ms ++ ⟨.operator s'.operator, s'.text.length⟩ ::
        ns.map (Match.shift (s'.text.length + s'.operator.token.length)), ?_, ?_⟩
      · calc
          line = s'.text ++ (s'.operator.token ++ t) := hline
          _ = s'.text ++ (s'.operator.token ++ (a ++ (s.operator.token ++ (survey t).rest))) :=
            congrArg (fun t => s'.text ++ (s'.operator.token ++ t)) ht
          _ = s'.text ++ (s'.operator.token ++ a) ++ (s.operator.token ++ (survey t).rest) := by
            simp only [List.append_assoc]
      · have hlen : a.length + (s'.text.length + s'.operator.token.length) =
            (s'.text ++ (s'.operator.token ++ a)).length := by
          simp only [List.length_append]; omega
        rw [hfound, hns, List.map_append, List.map_singleton, Match.shift, hlen,
          List.append_assoc, List.cons_append]

/-! ## Operators that start a command -/

theorem Operator.head?_append_ne_ampersand {o : Operator}
    (ho : o ∈ pipelineAndEnd ++ redirections) (t : Text) : (o.token ++ t).head? ≠ some '&' := by
  cases o <;> first | exact absurd ho (by decide) | simp [token]

namespace Matcher

/-- The only longer operator of this search goes on with an ampersand. -/
theorem apart_pipelineAndEnd (a : Text) {t : Text} (h : t.head? ≠ some '&') :
    pipelineAndEnd.Apart a t := by
  have hlater : pipelineAndEnd.later ⊆ ['&'] := by decide
  refine apart_of_head? a fun c hc hmem => ?_
  obtain rfl := List.mem_singleton.mp (hlater hmem)
  exact h hc

theorem first?_pipelineAndEnd {o : Operator} {t : Text} (ho : o ∈ Operator.pipelineAndEnd)
    (ht : t.head? ≠ some '&') : pipelineAndEnd.first? (o.token ++ t) = some o := by
  have horder : pipelineAndEnd.symbols.Pairwise fun a b => ¬ token a <+: token b := by decide
  have hextends : ∀ a ∈ pipelineAndEnd.symbols, ∀ s ∈ pipelineAndEnd.symbols,
      token s <+: token a → (token a)[(token s).length]?.all (['&'].contains ·) := by decide
  refine first?_of_extends horder hextends ho fun c hc hmem => ?_
  obtain rfl := List.mem_singleton.mp hmem
  exact ht hc

variable {a r : Text} {o : Operator}

/-- Up to an operator that starts a command, with no other after it. -/
theorem findAll_pipelineAndEnd (ho : o ∈ Operator.pipelineAndEnd)
    (hr : pipelineAndEnd.cut r = ⟨[], r⟩) (hhead : r.head? ≠ some '&') :
    pipelineAndEnd.findAll (a ++ (o.token ++ r)) =
      pipelineAndEnd.findAll a ++ [⟨o, a.length⟩] := by
  have hstart := Operator.head?_append_ne_ampersand (List.mem_append_left _ ho) r
  have hcut : pipelineAndEnd.cut (o.token ++ r) = (pipelineAndEnd.cut r).cons o :=
    cut_token (s := o) (first?_pipelineAndEnd ho hhead)
  rw [findAll_append (apart_pipelineAndEnd a hstart), hcut, hr]
  rfl

/-- Up to a redirection, with no operator that starts a command after it. -/
theorem findAll_pipelineAndEnd_redirection (ho : o ∈ Operator.redirections)
    (hr : pipelineAndEnd.cut r = ⟨[], r⟩) :
    pipelineAndEnd.findAll (a ++ (o.token ++ r)) = pipelineAndEnd.findAll a := by
  have hleading : ∀ o ∈ Operator.redirections,
      o.token.all fun c => !pipelineAndEnd.leading.contains c := by decide
  have hstart := Operator.head?_append_ne_ampersand (List.mem_append_right _ ho) r
  have hcut := cut_passes (passes_of_leading r (hleading o ho))
  rw [findAll_append (apart_pipelineAndEnd a hstart), hcut, hr]
  exact List.append_nil _

end Matcher

/-! ## The start of the target -/

theorem stop_eq_of_redirection? {m : Match Symbol} {n : Match Operator}
    (h : m.redirection? = some n) : n.stop = m.stop := by
  obtain ⟨s, i⟩ := m
  obtain ⟨o, ho, rfl⟩ := Option.map_eq_some_iff.mp h
  obtain ⟨rfl, -⟩ := Symbol.eq_of_redirection? ho
  rfl

section

variable {line a r : Text} {o : Operator} {ms : List (Match Symbol)} {cursor : Int}

/-- The target that starts behind the operator. -/
theorem ofCursor_behind (hline : line = a ++ (o.token ++ r)) (hcursor : line.length ≤ cursor)
    {f : Option (Match Operator)}
    (hfile : ((Matcher.redirection.last? line cursor).filter fun m =>
      decide (lastPipelineOrEndStop line cursor < m.stop) && m.symbol != .overwriteOutAndErr) = f)
    (hk : f.elim (lastPipelineOrEndStop line cursor) Match.stop = a.length + o.token.length) :
    Target.ofCursor line cursor = ⟨line.length - r.length, r, f.isSome⟩ := by
  have hlen : line.length = a.length + o.token.length + r.length := by
    rw [hline, List.length_append, List.length_append, Nat.add_assoc]
  have hdrop : line.drop (a.length + o.token.length) = r := by
    rw [hline, ← List.append_assoc, ← List.length_append, List.drop_left]
  have hoffset : ((a.length + o.token.length : Nat) : Int) = line.length - r.length := by omega
  rw [Target.ofCursor_of_length_le hcursor hfile hk (by omega), hdrop, hoffset]

/-- **Behind an operator that starts a command** the command is completed. -/
theorem ofCursor_command (hline : line = a ++ (o.token ++ r)) (ho : o ∈ Operator.pipelineAndEnd)
    (hfound : Matcher.control.findAll line = ms ++ [⟨.operator o, a.length⟩])
    (hr : Matcher.pipelineAndEnd.cut r = ⟨[], r⟩) (hhead : r.head? ≠ some '&')
    (hcursor : line.length ≤ cursor) :
    Target.ofCursor line cursor = ⟨line.length - r.length, r, false⟩ := by
  have hstop : lastPipelineOrEndStop line cursor = a.length + o.token.length := by
    rw [lastPipelineOrEndStop, Matcher.lastStop, Matcher.last?_of_length_le _ hcursor, hline,
      Matcher.findAll_pipelineAndEnd ho hr hhead, List.getLast?_concat, Option.elim_some]
    rfl
  have hother : ∀ o ∈ Operator.pipelineAndEnd, (Symbol.operator o).redirection? = none := by decide
  -- A redirection that is found is not the last symbol, so it ends before that one begins.
  have hbefore : ∀ m ∈ Matcher.redirection.findAll line, m.stop ≤ a.length := by
    have horder := pairwise_locate 0 (Matcher.control.cut line).pieces
    rw [← Matcher.findAll, hfound] at horder
    rw [Matcher.findAll_redirection, hfound]
    intro m hm
    obtain ⟨n, hn, hred⟩ := List.mem_filterMap.mp hm
    rw [stop_eq_of_redirection? hred]
    rcases List.mem_append.mp hn with hn | hn
    · exact (List.pairwise_append.mp horder).2.2 n hn _ (List.mem_singleton_self _)
    · rw [List.mem_singleton.mp hn, Match.redirection?, hother o ho] at hred
      cases hred
  refine ofCursor_behind (f := none) hline hcursor ?_ hstop
  rw [Option.filter_eq_none_iff, Matcher.last?_of_length_le _ hcursor]
  intro m hm hcounts
  have hle := hbefore m (List.mem_of_getLast? hm)
  rw [Bool.and_eq_true, decide_eq_true_eq, hstop] at hcounts
  omega

/-- **Behind a redirection to a file** the file is completed. -/
theorem ofCursor_file (hline : line = a ++ (o.token ++ r)) (ho : o ∈ Operator.redirections)
    (hne : o ≠ .overwriteOutAndErr)
    (hfound : Matcher.control.findAll line = ms ++ [⟨.operator o, a.length⟩])
    (hr : Matcher.pipelineAndEnd.cut r = ⟨[], r⟩) (hcursor : line.length ≤ cursor) :
    Target.ofCursor line cursor = ⟨line.length - r.length, r, true⟩ := by
  have hpos : 0 < o.token.length := by
    cases o <;> first | exact absurd ho (by decide) | decide
  have hstop : lastPipelineOrEndStop line cursor ≤ a.length := by
    rw [lastPipelineOrEndStop, Matcher.lastStop, Matcher.last?_of_length_le _ hcursor, hline,
      Matcher.findAll_pipelineAndEnd_redirection ho hr]
    cases h : (Matcher.pipelineAndEnd.findAll a).getLast? with
    | none => exact Nat.zero_le _
    | some m => exact stop_le_length (List.mem_of_getLast? h)
  have hlisted : ∀ o ∈ Operator.redirections, (Symbol.operator o).redirection? = some o := by decide
  have hlast : Matcher.redirection.last? line cursor = some ⟨o, a.length⟩ := by
    rw [Matcher.last?_of_length_le _ hcursor, Matcher.findAll_redirection, hfound,
      List.filterMap_append, List.filterMap_cons, Match.redirection?, hlisted o ho]
    exact List.getLast?_concat
  refine ofCursor_behind (f := some ⟨o, a.length⟩) hline hcursor ?_ rfl
  rw [hlast]
  have hcounts : lastPipelineOrEndStop line cursor < Match.stop (⟨o, a.length⟩ : Match Operator) :=
    Nat.lt_of_le_of_lt hstop (Nat.lt_add_of_pos_right hpos)
  simp [Option.filter, hcounts, hne]

end

/-- **The text to complete at the end of a line is what the last split leaves over.** -/
theorem ofCursor_last_split {line : Text} {s : Segment} {cursor : Int}
    (hlast : (ended line).getLast? = some s)
    (hs : s.operator ∈ [.pipe, .pipeOutAndErr, .semicolon, .overwriteOut, .appendOut,
      .overwriteErr, .appendErr, .overwriteIn])
    (hfree : ∀ sym ∈ Matcher.control.symbols, ¬ token sym <:+: remainder line)
    (hcursor : line.length ≤ cursor) :
    Target.ofCursor line cursor =
      ⟨line.length - (remainder line).length, remainder line, s.operator.isRedirection⟩ := by
  rw [ended_eq] at hlast
  rw [remainder_eq] at hfree ⊢
  obtain ⟨a, ms, hline, hfound⟩ := findAll_of_last_split hlast (findAll_eq_nil hfree)
  have hknown : ∀ o ∈ Matcher.pipelineAndEnd.symbols,
      Symbol.operator o ∈ Matcher.control.symbols := by decide
  have hr : Matcher.pipelineAndEnd.cut (survey line).rest = ⟨[], (survey line).rest⟩ :=
    Matcher.cut_of_not_infix fun o ho => hfree (.operator o) (hknown o ho)
  have hhead : (survey line).rest.head? ≠ some '&' := by
    intro h
    obtain ⟨t, ht⟩ := List.head?_eq_some_iff.mp h
    exact hfree (.operator .ampersand) (by decide) ⟨[], t, ht.symm⟩
  have hkinds : ∀ o ∈ [Operator.pipe, .pipeOutAndErr, .semicolon, .overwriteOut, .appendOut,
      .overwriteErr, .appendErr, .overwriteIn],
      (o ∈ Operator.pipelineAndEnd ∧ o.isRedirection = false) ∨
        (o ∈ Operator.redirections ∧ o ≠ .overwriteOutAndErr ∧ o.isRedirection = true) := by decide
  rcases hkinds _ hs with ⟨ho, hno⟩ | ⟨ho, hne, hyes⟩
  · rw [hno]
    exact ofCursor_command hline ho hfound hr hhead hcursor
  · rw [hyes]
    exact ofCursor_file hline ho hne hfound hr hcursor

/-- A quoted pipe, an escaped one and an arrow head before the last split, and the cursor
past the end of the line. -/
theorem ofCursor_last_split_append :
    (ended ['a', '\'', '|', '\'', '\\', '|', '=', '>', '2', '>', '>', 'f']).getLast? =
        some ⟨.appendErr, ['a', '\'', '|', '\'', '\\', '|', '=', '>']⟩ ∧
      (∀ sym ∈ Matcher.control.symbols,
        ¬ token sym <:+:
          remainder ['a', '\'', '|', '\'', '\\', '|', '=', '>', '2', '>', '>', 'f']) ∧
      Target.ofCursor ['a', '\'', '|', '\'', '\\', '|', '=', '>', '2', '>', '>', 'f'] 20 =
        ⟨11, ['f'], true⟩ := by
  have hlast : (ended ['a', '\'', '|', '\'', '\\', '|', '=', '>', '2', '>', '>', 'f']).getLast? =
      some ⟨.appendErr, ['a', '\'', '|', '\'', '\\', '|', '=', '>']⟩ := by decide
  have hfree : ∀ sym ∈ Matcher.control.symbols, ¬ token sym <:+:
      remainder ['a', '\'', '|', '\'', '\\', '|', '=', '>', '2', '>', '>', 'f'] := by decide
  exact ⟨hlast, hfree, ofCursor_last_split hlast (by decide) hfree (by decide)⟩

/-! ## Text typed at the end -/

section

variable {α : Type} [Spelled α] {line t : Text} {cs ds : List Char}

/-- A text without a character that a token needs does not hold the token. -/
theorem not_infix_of_not_mem {k : Text} (hk : k.any cs.contains) (ht : ∀ c ∈ t, c ∉ cs) :
    ¬ k <:+: t := by
  intro hp
  obtain ⟨c, hc, hcs⟩ := List.any_eq_true.mp hk
  exact ht c (hp.subset hc) (List.contains_iff_mem.mp hcs)

/-- **Text that makes no token leaves the matches as they are**: it has none of the characters
`cs`, of which each token has one, and begins with none of the others that may go on with
one. -/
theorem Matcher.findAll_append_ordinary {mr : Matcher α}
    (hcs : mr.symbols.all fun s => (token s).any cs.contains) (hds : mr.later ⊆ cs ++ ds)
    (ht : ∀ c ∈ t, c ∉ cs) (hhead : ∀ c, t.head? = some c → c ∉ ds) :
    mr.findAll (line ++ t) = mr.findAll line := by
  have hlater : ∀ c, t.head? = some c → c ∉ mr.later := by
    intro c hc hmem
    rcases List.mem_append.mp (hds hmem) with hmem | hmem
    · exact ht c (List.mem_of_head? hc) hmem
    · exact hhead c hc hmem
  have hfree : ∀ s ∈ mr.symbols, ¬ token s <:+: t := fun s hs =>
    not_infix_of_not_mem (List.all_eq_true.mp hcs s hs) ht
  rw [findAll_append (apart_of_head? line hlater), cut_of_not_infix hfree]
  exact List.append_nil _

theorem Matcher.last?_append_ordinary {mr : Matcher α}
    (hcs : mr.symbols.all fun s => (token s).any cs.contains) (hds : mr.later ⊆ cs ++ ds)
    (ht : ∀ c ∈ t, c ∉ cs) (hhead : ∀ c, t.head? = some c → c ∉ ds) :
    mr.last? (line ++ t) (line.length + t.length) = mr.last? line line.length := by
  rw [last?_of_length_le mr (by simp), last?_of_length_le mr (Int.le_refl _),
    findAll_append_ordinary hcs hds ht hhead]

end

/-- The stop that counts lies in the line. -/
theorem stop_le_length_of_filter {line : Text} {cursor : Int} {p : Match Operator → Bool}
    {file : Option (Match Operator)}
    (hfile : (Matcher.redirection.last? line cursor).filter p = file) :
    file.elim (lastPipelineOrEndStop line cursor) Match.stop ≤ line.length := by
  cases file with
  | none => exact Matcher.lastStop_le_length _ line cursor
  | some m =>
    obtain ⟨hlast, -⟩ := Option.filter_eq_some_iff.mp hfile
    exact stop_le_length (Matcher.last?_spec hlast).1

/-- **Typing ordinary text does not move the start of what is completed.** An ampersand or a
`1` is ordinary as well, but not right behind the line, where it may go on with an operator. -/
theorem ofCursor_append_ordinary {line t : Text} (ht : ∀ c ∈ t, c ∉ ['<', '>', '|', ';'])
    (hhead : ∀ c, t.head? = some c → c ∉ ['&', '1']) :
    Target.ofCursor (line ++ t) (line.length + t.length) =
      { Target.ofCursor line line.length with
        text := (Target.ofCursor line line.length).text ++ t } := by
  have hredirection : Matcher.redirection.last? (line ++ t) (line.length + t.length) =
      Matcher.redirection.last? line line.length :=
    Matcher.last?_append_ordinary (by decide) (by decide) ht hhead
  have hpipeline : lastPipelineOrEndStop (line ++ t) (line.length + t.length) =
      lastPipelineOrEndStop line line.length := by
    unfold lastPipelineOrEndStop Matcher.lastStop
    rw [Matcher.last?_append_ordinary (by decide) (by decide) ht hhead]
  obtain ⟨file, hfile⟩ : ∃ file, ((Matcher.redirection.last? line line.length).filter fun m =>
    decide (lastPipelineOrEndStop line line.length < m.stop) &&
      m.symbol != .overwriteOutAndErr) = file := ⟨_, rfl⟩
  have hle := stop_le_length_of_filter hfile
  have hcursor : ((line ++ t).length : Int) ≤ line.length + t.length := by simp
  have hle' : file.elim (lastPipelineOrEndStop line line.length) Match.stop ≤
      (line ++ t).length := by
    rw [List.length_append]
    omega
  rw [Target.ofCursor_of_length_le (Int.le_refl _) hfile rfl hle,
    Target.ofCursor_of_length_le hcursor (by rw [hredirection, hpipeline, hfile])
      (by rw [hpipeline]) hle', List.drop_append_of_le_length hle]

/-- Behind `2>`, with the other characters of `2>&1` further on in the text. -/
theorem ofCursor_append_ordinary_file :
    (∀ c ∈ ['f', '&', '1', ' ', '2'], c ∉ ['<', '>', '|', ';']) ∧
      (∀ c, ['f', '&', '1', ' ', '2'].head? = some c → c ∉ ['&', '1']) ∧
      Target.ofCursor (['a', '|', '2', '>'] ++ ['f', '&', '1', ' ', '2']) (4 + 5) =
        ⟨4, ['f', '&', '1', ' ', '2'], true⟩ := by
  have ht : ∀ c ∈ ['f', '&', '1', ' ', '2'], c ∉ ['<', '>', '|', ';'] := by simp
  have hhead : ∀ c, ['f', '&', '1', ' ', '2'].head? = some c → c ∉ ['&', '1'] := by
    rintro c ⟨⟩
    decide
  exact ⟨ht, hhead, @ofCursor_append_ordinary ['a', '|', '2', '>'] _ ht hhead⟩

/-- An ampersand behind the line makes the pipe a longer operator. -/
example :
    Target.ofCursor ['a', '|'] 2 = ⟨2, [], false⟩ ∧
      Target.ofCursor ['a', '|', '&'] 3 = ⟨3, [], false⟩ := by decide

end ConsoleLine
