import CodeAtlas.Linkage.Import
import CodeAtlas.Proofs.Text.Segment

/-! The sources an import phrase can end in. A source behind blanks is found at the earliest offset
that has no line feed before those blanks. -/
namespace CodeAtlas.Linkage

open Text

/-- `from`, blanks, a quote, a target that holds no quote, and a quote. -/
structure SourcePhrase where
  blanks : List Char
  opening : Char
  target : List Char
  closing : Char
  blanks_ne_nil : blanks ≠ []
  isBlank_blanks : ∀ c ∈ blanks, isBlank c = true
  isQuote_opening : isQuote opening = true
  target_ne_nil : target ≠ []
  isQuote_target : ∀ c ∈ target, isQuote c = false
  isQuote_closing : isQuote closing = true

def SourcePhrase.text (p : SourcePhrase) : List Char :=
  "from".toList ++ (p.blanks ++ p.opening :: (p.target ++ [p.closing]))

theorem SourcePhrase.text_eq (p : SourcePhrase) : p.text =
    "from".toList ++ (p.blanks ++ p.opening :: (p.target ++ [p.closing])) := rfl

theorem SourcePhrase.length_text (p : SourcePhrase) :
    p.text.length = 6 + p.blanks.length + p.target.length := by
  have hword : "from".toList.length = 4 := rfl
  simp only [SourcePhrase.text_eq, List.length_append, List.length_cons, List.length_nil, hword]
  omega

private theorem isBlank_eq_false_of_isQuote {c : Char} (h : isQuote c = true) :
    isBlank c = false := by
  simp only [isQuote, Bool.or_eq_true, beq_iff_eq] at h
  rcases h with rfl | rfl <;> decide

theorem SourcePhrase.sourceAt_text_append (p : SourcePhrase) (rest : List Char) :
    sourceAt (p.text ++ rest) = some (p.target, p.text.length) := by
  have hpre : "from".toList.isPrefixOf (p.text ++ rest) = true := by
    rw [List.isPrefixOf_iff_prefix, SourcePhrase.text_eq, List.append_assoc]
    exact List.prefix_append _ _
  have hdrop : (p.text ++ rest).drop 4 =
      p.blanks ++ p.opening :: (p.target ++ p.closing :: rest) := by
    simp [SourcePhrase.text_eq]
  have hopening := isBlank_eq_false_of_isQuote p.isQuote_opening
  have htarget : ∀ a ∈ p.target, (!isQuote a) = true := fun a ha => by
    rw [p.isQuote_target a ha]; rfl
  have hclosing : (!isQuote p.closing) = false := by rw [p.isQuote_closing]; rfl
  unfold sourceAt
  rw [hpre, hdrop, takeWhile_append_cons p.isBlank_blanks hopening,
    dropWhile_append_cons p.isBlank_blanks hopening]
  simp only [Bool.not_true, Bool.false_eq_true, if_false,
    takeWhile_append_cons htarget hclosing, List.drop_left]
  rw [if_neg (by simp [p.blanks_ne_nil, p.target_ne_nil, p.isQuote_opening]), p.length_text]

private theorem exists_sourcePhrase_of_sourceAt {text target : List Char} {n : Nat}
    (h : sourceAt text = some (target, n)) :
    ∃ p : SourcePhrase, p.text <+: text ∧ p.target = target ∧ p.text.length = n := by
  unfold sourceAt at h
  split at h
  · cases h
  · rename_i hpre
    rw [Bool.not_eq_true, Bool.not_eq_false', List.isPrefixOf_iff_prefix] at hpre
    obtain ⟨tail, rfl⟩ := hpre
    have hdrop : ("from".toList ++ tail).drop 4 = tail :=
      List.drop_left' rfl
    simp only [hdrop, drop_length_takeWhile] at h
    have htail := List.takeWhile_append_dropWhile (p := isBlank) (l := tail)
    cases hmark : tail.dropWhile isBlank with
    | nil => rw [hmark] at h; cases h
    | cons mark body =>
      rw [hmark] at h htail
      have hbody := List.takeWhile_append_dropWhile (p := (!isQuote ·)) (l := body)
      cases hclosing : body.dropWhile (!isQuote ·) with
      | nil => simp [hclosing] at h
      | cons closing rest =>
        rw [hclosing] at hbody
        have hquote : isQuote closing = true := by
          have hhead := List.head?_dropWhile_not (!isQuote ·) body
          rw [hclosing] at hhead
          simpa using hhead
        simp only [hclosing, Option.ite_none_left_eq_some, Bool.or_eq_true, not_or,
          List.isEmpty_iff, Bool.not_eq_true, Option.some.injEq, Prod.mk.injEq] at h
        obtain ⟨⟨⟨⟨hblanks, hopening⟩, htarget⟩, -⟩, rfl, rfl⟩ := h
        have htext : "from".toList ++ (tail.takeWhile isBlank ++
            mark :: (body.takeWhile (!isQuote ·) ++ [closing])) ++ rest =
            "from".toList ++ tail := by
          simp only [List.append_assoc, List.cons_append, List.nil_append, hbody, htail]
        refine ⟨⟨tail.takeWhile isBlank, mark, body.takeWhile (!isQuote ·), closing, hblanks,
          fun c hc => List.mem_takeWhile_imp hc, by simpa using hopening, htarget,
          fun c hc => by simpa using List.mem_takeWhile_imp hc, hquote⟩, ⟨rest, htext⟩, rfl, ?_⟩
        exact SourcePhrase.length_text _

theorem sourceAt_eq_some_iff {text target : List Char} {n : Nat} :
    sourceAt text = some (target, n) ↔
      ∃ p : SourcePhrase, p.text <+: text ∧ p.target = target ∧ p.text.length = n := by
  constructor
  · exact exists_sourcePhrase_of_sourceAt
  · rintro ⟨p, ⟨rest, rfl⟩, rfl, rfl⟩
    exact p.sourceAt_text_append rest

def SourcePhrase.StandsAt (p : SourcePhrase) (text : List Char) (offset : Nat) : Prop :=
  ∃ before gap : List Char, '\n' ∉ before ∧ gap ≠ [] ∧ (∀ c ∈ gap, isBlank c = true) ∧
    before.length + gap.length = offset ∧ before ++ (gap ++ p.text) <+: text

theorem SourcePhrase.text_eq_cons (p : SourcePhrase) : ∃ rest, p.text = 'f' :: rest :=
  ⟨_, rfl⟩

theorem SourcePhrase.StandsAt.pos {p : SourcePhrase} {text : List Char} {offset : Nat}
    (h : p.StandsAt text offset) : 0 < offset := by
  obtain ⟨before, gap, -, hgap, -, rfl, -⟩ := h
  have := List.length_pos_iff.2 hgap
  omega

theorem SourcePhrase.standsAt_cons_iff {p : SourcePhrase} {c : Char} {cs : List Char}
    {offset : Nat} : p.StandsAt (c :: cs) offset ↔
      (isBlank c = true ∧ offset = ((c :: cs).takeWhile isBlank).length ∧
        p.text <+: (c :: cs).dropWhile isBlank) ∨
      (c ≠ '\n' ∧ ∃ k, offset = k + 1 ∧ p.StandsAt cs k) := by
  constructor
  · rintro ⟨before, gap, hbefore, hgap, hblank, rfl, hpre⟩
    cases before with
    | nil =>
      left
      obtain ⟨rest, hrest⟩ := hpre
      obtain ⟨word, hword⟩ := p.text_eq_cons
      have htext : gap ++ 'f' :: (word ++ rest) = c :: cs := by
        rw [← hrest, hword]; simp
      have hf : isBlank 'f' = false := by decide
      rw [← htext, takeWhile_append_cons hblank hf, dropWhile_append_cons hblank hf]
      refine ⟨?_, Nat.zero_add _, ⟨rest, by rw [hword]; rfl⟩⟩
      cases gap with
      | nil => exact absurd rfl hgap
      | cons b gap =>
        obtain ⟨rfl, -⟩ := List.cons.inj htext
        exact hblank b List.mem_cons_self
    | cons b before =>
      right
      obtain ⟨rest, hrest⟩ := hpre
      obtain ⟨rfl, hcs⟩ := List.cons.inj hrest
      rw [List.mem_cons, not_or] at hbefore
      refine ⟨fun heq => hbefore.1 heq.symm, before.length + gap.length, ?_,
        before, gap, hbefore.2, hgap, hblank, rfl, ⟨rest, hcs⟩⟩
      rw [List.length_cons]
      omega
  · rintro (⟨hc, rfl, rest, hrest⟩ | ⟨hc, k, rfl, before, gap, hbefore, hgap, hblank, rfl, hpre⟩)
    · refine ⟨[], (c :: cs).takeWhile isBlank, by simp, by simp [hc],
        fun a ha => List.mem_takeWhile_imp ha, by simp, ⟨rest, ?_⟩⟩
      rw [List.nil_append, List.append_assoc, hrest, List.takeWhile_append_dropWhile]
    · refine ⟨c :: before, gap, ?_, hgap, hblank, ?_, ?_⟩
      · rw [List.mem_cons, not_or]
        exact ⟨fun heq => hc heq.symm, hbefore⟩
      · rw [List.length_cons]
        omega
      · exact List.cons_prefix_cons.2 ⟨rfl, hpre⟩

theorem SourcePhrase.not_standsAt_nil {p : SourcePhrase} {offset : Nat} :
    ¬p.StandsAt [] offset := by
  rintro ⟨before, gap, -, hgap, -, -, hpre⟩
  exact hgap (by simpa using List.prefix_nil.1 hpre |> List.append_eq_nil_iff.1 |>.2
    |> List.append_eq_nil_iff.1 |>.1)

theorem SourcePhrase.StandsAt.behind_blanks {p : SourcePhrase} {text : List Char} {offset : Nat}
    (h : p.StandsAt text offset) :
    (offset = (text.takeWhile isBlank).length ∧ p.text <+: text.dropWhile isBlank) ∨
      ∃ k, offset = (text.takeWhile isBlank).length + k ∧
        p.StandsAt (text.dropWhile isBlank) k := by
  induction text generalizing offset with
  | nil => exact absurd h SourcePhrase.not_standsAt_nil
  | cons c cs ih =>
    cases hc : isBlank c with
    | false =>
      rw [List.takeWhile_cons_of_neg (by simp [hc]), List.dropWhile_cons_of_neg (by simp [hc])]
      exact .inr ⟨offset, by simp, h⟩
    | true =>
      rcases SourcePhrase.standsAt_cons_iff.1 h with ⟨-, hoffset, hpre⟩ | ⟨-, k, rfl, hk⟩
      · exact .inl ⟨hoffset, hpre⟩
      · rw [List.takeWhile_cons_of_pos hc, List.dropWhile_cons_of_pos hc, List.length_cons]
        rcases ih hk with ⟨rfl, hpre⟩ | ⟨m, rfl, hm⟩
        · exact .inl ⟨rfl, hpre⟩
        · exact .inr ⟨m, by omega, hm⟩

private theorem SourcePhrase.StandsAt.blanks_le {p : SourcePhrase} {text : List Char} {offset : Nat}
    (h : p.StandsAt text offset) : (text.takeWhile isBlank).length ≤ offset := by
  rcases h.behind_blanks with ⟨rfl, -⟩ | ⟨k, rfl, -⟩ <;> omega

theorem sourceBehindBlanks_cons (c : Char) (cs : List Char) : sourceBehindBlanks (c :: cs) =
    if isBlank c then (sourceAt ((c :: cs).dropWhile isBlank)).map fun found =>
      (found.1, ((c :: cs).takeWhile isBlank).length + found.2) else none := by
  have hempty : ((c :: cs).takeWhile isBlank).isEmpty = !isBlank c := by
    cases hc : isBlank c <;> simp [hc]
  unfold sourceBehindBlanks
  simp only [drop_length_takeWhile, hempty]
  cases isBlank c <;> rfl

theorem laterSource_spec (text : List Char) : match laterSource text with
    | none => ∀ (p : SourcePhrase) (offset : Nat), ¬p.StandsAt text offset
    | some (target, n) => ∃ (p : SourcePhrase) (offset : Nat), p.StandsAt text offset ∧
        p.target = target ∧ offset + p.text.length = n ∧
        ∀ (q : SourcePhrase) (other : Nat), q.StandsAt text other → offset ≤ other := by
  induction text with
  | nil => exact fun p offset => SourcePhrase.not_standsAt_nil
  | cons c cs ih =>
    rw [laterSource]
    cases hnear : sourceBehindBlanks (c :: cs) with
    | some found =>
      rw [sourceBehindBlanks_cons, Option.ite_none_right_eq_some, Option.map_eq_some_iff] at hnear
      obtain ⟨hc, ⟨target, n⟩, hsource, rfl⟩ := hnear
      obtain ⟨p, hpre, htarget, rfl⟩ := sourceAt_eq_some_iff.1 hsource
      exact ⟨p, _, SourcePhrase.standsAt_cons_iff.2 (.inl ⟨hc, rfl, hpre⟩), htarget, rfl,
        fun q other hq => hq.blanks_le⟩
    | none =>
      -- What stands in the text stands behind its first character, which is no line feed.
      have hfar : ∀ (q : SourcePhrase) (other : Nat), q.StandsAt (c :: cs) other →
          c ≠ '\n' ∧ ∃ k, other = k + 1 ∧ q.StandsAt cs k := fun q other hq => by
        rcases SourcePhrase.standsAt_cons_iff.1 hq with ⟨hc, -, hpre⟩ | hq
        · rw [sourceBehindBlanks_cons, if_pos hc,
            sourceAt_eq_some_iff.2 ⟨q, hpre, rfl, rfl⟩] at hnear
          cases hnear
        · exact hq
      by_cases hc : c = '\n'
      · rw [if_pos hc]
        exact fun q other hq => (hfar q other hq).1 hc
      · rw [if_neg hc]
        cases hlater : laterSource cs with
        | none =>
          rw [hlater] at ih
          intro q other hq
          obtain ⟨-, k, -, hk⟩ := hfar q other hq
          exact ih q k hk
        | some found =>
          rw [hlater] at ih
          obtain ⟨p, offset, hp, htarget, hlength, hleast⟩ := ih
          refine ⟨p, offset + 1, SourcePhrase.standsAt_cons_iff.2 (.inr ⟨hc, offset, rfl, hp⟩),
            htarget, by omega, fun q other hq => ?_⟩
          obtain ⟨-, k, rfl, hk⟩ := hfar q other hq
          have := hleast q k hk
          omega

end CodeAtlas.Linkage
