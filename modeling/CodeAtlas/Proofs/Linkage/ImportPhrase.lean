import CodeAtlas.Linkage
import CodeAtlas.Proofs.Linkage.SourcePhrase
import CodeAtlas.Proofs.Text.Scan
import Mathlib.Data.Set.List

/-! The imports of a file against the grammar they are written in. The phrases found do not
overlap, and no phrase begins outside of them; of the phrases that begin at one place the position
of `from` decides. -/
namespace CodeAtlas.Linkage

open Text

/-- `import`, blanks, characters of one line, blanks, and a source. -/
structure ImportPhrase where
  opening : List Char
  imported : List Char
  gap : List Char
  source : SourcePhrase
  opening_ne_nil : opening ≠ []
  isBlank_opening : ∀ c ∈ opening, isBlank c = true
  newline_notMem_imported : '\n' ∉ imported
  gap_ne_nil : gap ≠ []
  isBlank_gap : ∀ c ∈ gap, isBlank c = true

namespace ImportPhrase

def text (p : ImportPhrase) : List Char :=
  "import".toList ++ (p.opening ++ (p.imported ++ (p.gap ++ p.source.text)))

def target (p : ImportPhrase) : List Char := p.source.target

def fromOffset (p : ImportPhrase) : Nat :=
  6 + p.opening.length + p.imported.length + p.gap.length

def OccursAt (p : ImportPhrase) (content : List Char) (start : Nat) : Prop :=
  p.text <+: content.drop start

end ImportPhrase

def importedOffset (content : List Char) (start : Nat) : Nat :=
  6 + ((content.drop (start + 6)).takeWhile isBlank).length

/-- A phrase that occurs with the earliest `from` behind the first imported character. A phrase
with its `from` in the place of that character is chosen only where no other one occurs. -/
structure ImportPhrase.ChosenAt (p : ImportPhrase) (content : List Char) (start : Nat) :
    Prop where
  occurs : p.OccursAt content start
  earliest : ∀ q : ImportPhrase, q.OccursAt content start →
    importedOffset content start < q.fromOffset →
      importedOffset content start < p.fromOffset ∧ p.fromOffset ≤ q.fromOffset

namespace ImportPhrase

theorem text_eq (p : ImportPhrase) : p.text =
    "import".toList ++ (p.opening ++ (p.imported ++ (p.gap ++ p.source.text))) := rfl

theorem length_text (p : ImportPhrase) :
    p.text.length = p.fromOffset + p.source.text.length := by
  have hword : "import".toList.length = 6 := rfl
  simp only [text_eq, fromOffset, List.length_append, hword]
  omega

theorem length_text_pos (p : ImportPhrase) : 0 < p.text.length := by
  rw [length_text, fromOffset]
  omega

theorem OccursAt.exists_tail {p : ImportPhrase} {content : List Char} {start : Nat}
    (h : p.OccursAt content start) : ∃ tail, content.drop start = "import".toList ++ tail := by
  obtain ⟨rest, hrest⟩ := h
  exact ⟨_, by rw [← hrest, text_eq, List.append_assoc]⟩

theorem OccursAt.behind_word {p : ImportPhrase} {content tail : List Char} {start : Nat}
    (h : p.OccursAt content start) (htail : content.drop start = "import".toList ++ tail) :
    tail.takeWhile isBlank ≠ [] ∧
      ((p.fromOffset = 6 + (tail.takeWhile isBlank).length ∧
        2 ≤ (tail.takeWhile isBlank).length ∧ p.source.text <+: tail.dropWhile isBlank) ∨
      ∃ k, p.fromOffset = 6 + (tail.takeWhile isBlank).length + k ∧
        p.source.StandsAt (tail.dropWhile isBlank) k) := by
  obtain ⟨rest, hrest⟩ := h
  rw [htail, text_eq, List.append_assoc, List.append_assoc] at hrest
  obtain rfl := List.append_cancel_left hrest
  have hopening := List.length_pos_iff.2 p.opening_ne_nil
  have hgap := List.length_pos_iff.2 p.gap_ne_nil
  have hstands : p.source.StandsAt (p.imported ++ (p.gap ++ p.source.text) ++ rest)
      (p.imported.length + p.gap.length) :=
    ⟨p.imported, p.gap, p.newline_notMem_imported, p.gap_ne_nil, p.isBlank_gap, rfl,
      List.prefix_append _ _⟩
  rw [List.takeWhile_append_of_pos p.isBlank_opening,
    List.dropWhile_append_of_pos p.isBlank_opening, List.length_append, fromOffset]
  refine ⟨List.append_ne_nil_of_left_ne_nil p.opening_ne_nil _, ?_⟩
  rcases hstands.behind_blanks with ⟨hoffset, hpre⟩ | ⟨k, hoffset, hk⟩
  · exact .inl ⟨by omega, by omega, hpre⟩
  · exact .inr ⟨k, by omega, hk⟩

private theorem exists_of_standsAt {tail : List Char} {source : SourcePhrase} {k : Nat}
    (hblanks : tail.takeWhile isBlank ≠ [])
    (h : source.StandsAt (tail.dropWhile isBlank) k) :
    ∃ p : ImportPhrase, p.source = source ∧ p.text <+: "import".toList ++ tail ∧
      p.fromOffset = 6 + (tail.takeWhile isBlank).length + k := by
  obtain ⟨imported, gap, himported, hgap, hblank, rfl, rest, hrest⟩ := h
  refine ⟨⟨tail.takeWhile isBlank, imported, gap, source, hblanks,
    fun c hc => List.mem_takeWhile_imp hc, himported, hgap, hblank⟩, rfl, ⟨rest, ?_⟩, ?_⟩
  · rw [text_eq, List.append_assoc, List.append_assoc, hrest, List.takeWhile_append_dropWhile]
  · exact Nat.add_assoc _ _ _

private theorem exists_of_prefix {tail : List Char} {source : SourcePhrase}
    (hblanks : 2 ≤ (tail.takeWhile isBlank).length)
    (h : source.text <+: tail.dropWhile isBlank) :
    ∃ p : ImportPhrase, p.source = source ∧ p.text <+: "import".toList ++ tail ∧
      p.fromOffset = 6 + (tail.takeWhile isBlank).length := by
  have htail := List.takeWhile_append_dropWhile (p := isBlank) (l := tail)
  have hclass : ∀ c ∈ tail.takeWhile isBlank, isBlank c = true :=
    fun c hc => List.mem_takeWhile_imp hc
  obtain ⟨rest, hrest⟩ := h
  cases hfirst : tail.takeWhile isBlank with
  | nil =>
    rw [hfirst] at hblanks
    exact absurd hblanks (by decide)
  | cons c gap =>
    rw [hfirst] at hblanks htail hclass
    have hgap : 0 < gap.length := by
      rw [List.length_cons] at hblanks
      omega
    refine ⟨⟨[c], [], gap, source, List.cons_ne_nil c [],
      fun b hb => hclass b (List.mem_cons.2 (.inl (List.mem_singleton.1 hb))), List.not_mem_nil,
      List.length_pos_iff.1 hgap, fun b hb => hclass b (List.mem_cons_of_mem c hb)⟩, rfl,
      ⟨rest, ?_⟩, ?_⟩
    · rw [← htail, ← hrest]
      simp [text_eq]
    · simp only [fromOffset, List.length_cons, List.length_nil]
      omega

end ImportPhrase

theorem importedOffset_of_drop_eq {content tail : List Char} {start : Nat}
    (h : content.drop start = "import".toList ++ tail) :
    importedOffset content start = 6 + (tail.takeWhile isBlank).length := by
  have htail : content.drop (start + 6) = tail := by
    rw [← List.drop_drop, h]
    exact List.drop_left' rfl
  rw [importedOffset, htail]

namespace ImportPhrase

variable {content tail : List Char} {start : Nat}

theorem OccursAt.importedOffset_le {p : ImportPhrase} (h : p.OccursAt content start) :
    importedOffset content start ≤ p.fromOffset := by
  obtain ⟨tail, htail⟩ := h.exists_tail
  rw [importedOffset_of_drop_eq htail]
  rcases (h.behind_word htail).2 with ⟨hp, -⟩ | ⟨k, hp, -⟩ <;> omega

theorem OccursAt.near {p : ImportPhrase} (h : p.OccursAt content start)
    (htail : content.drop start = "import".toList ++ tail)
    (hnone : ∀ (q : SourcePhrase) (k : Nat), ¬q.StandsAt (tail.dropWhile isBlank) k) :
    p.fromOffset = 6 + (tail.takeWhile isBlank).length ∧
      2 ≤ (tail.takeWhile isBlank).length ∧ p.source.text <+: tail.dropWhile isBlank := by
  rcases (h.behind_word htail).2 with hp | ⟨k, -, hk⟩
  · exact hp
  · exact absurd hk (hnone p.source k)

private theorem exists_chosenAt_of_standsAt {source : SourcePhrase} {k : Nat}
    (htail : content.drop start = "import".toList ++ tail)
    (hblanks : tail.takeWhile isBlank ≠ [])
    (hstands : source.StandsAt (tail.dropWhile isBlank) k)
    (hleast : ∀ (q : SourcePhrase) (other : Nat),
      q.StandsAt (tail.dropWhile isBlank) other → k ≤ other) :
    ∃ p : ImportPhrase, p.ChosenAt content start ∧ p.source = source ∧
      p.fromOffset = 6 + (tail.takeWhile isBlank).length + k := by
  obtain ⟨p, hsource, hpre, hfrom⟩ := exists_of_standsAt hblanks hstands
  have hoffset := importedOffset_of_drop_eq htail
  have hpos := hstands.pos
  rw [← htail] at hpre
  refine ⟨p, ⟨hpre, fun q hq hlt => ?_⟩, hsource, hfrom⟩
  rcases (hq.behind_word htail).2 with ⟨hq, -⟩ | ⟨other, hq, hother⟩
  · omega
  · have := hleast _ _ hother
    omega

private theorem exists_chosenAt_of_prefix {source : SourcePhrase}
    (htail : content.drop start = "import".toList ++ tail)
    (hblanks : 2 ≤ (tail.takeWhile isBlank).length)
    (hnone : ∀ (q : SourcePhrase) (k : Nat), ¬q.StandsAt (tail.dropWhile isBlank) k)
    (h : source.text <+: tail.dropWhile isBlank) :
    ∃ p : ImportPhrase, p.ChosenAt content start ∧ p.source = source ∧
      p.fromOffset = 6 + (tail.takeWhile isBlank).length := by
  obtain ⟨p, hsource, hpre, hfrom⟩ := exists_of_prefix hblanks h
  have hoffset := importedOffset_of_drop_eq htail
  rw [← htail] at hpre
  refine ⟨p, ⟨hpre, fun q hq hlt => ?_⟩, hsource, hfrom⟩
  have := (hq.near htail hnone).1
  omega

end ImportPhrase

private theorem importAt_import_append (tail : List Char) : importAt ("import".toList ++ tail) =
    if tail.takeWhile isBlank = [] then none else
      ((laterSource (tail.dropWhile isBlank)).or
        (if 2 ≤ (tail.takeWhile isBlank).length then sourceAt (tail.dropWhile isBlank)
          else none)).map fun found =>
            (found.1, 6 + (tail.takeWhile isBlank).length + found.2) := by
  have hpre : "import".toList.isPrefixOf ("import".toList ++ tail) = true :=
    List.isPrefixOf_iff_prefix.2 (List.prefix_append _ _)
  have hdrop : ("import".toList ++ tail).drop 6 = tail := List.drop_left' rfl
  unfold importAt
  simp only [hpre, hdrop, drop_length_takeWhile, List.isEmpty_iff, Bool.not_true,
    Bool.false_eq_true, if_false]
  cases laterSource (tail.dropWhile isBlank) <;> rfl

theorem importAt_eq_none {text : List Char} (h : ¬"import".toList <+: text) :
    importAt text = none := by
  unfold importAt
  rw [if_pos]
  rw [Bool.not_eq_true', ← Bool.not_eq_true, List.isPrefixOf_iff_prefix]
  exact h

theorem importAt_spec (content : List Char) (start : Nat) :
    match importAt (content.drop start) with
    | none => ∀ p : ImportPhrase, ¬p.OccursAt content start
    | some (target, n) => ∃ p : ImportPhrase, p.ChosenAt content start ∧ p.target = target ∧
        p.text.length = n := by
  by_cases hword : "import".toList <+: content.drop start
  · obtain ⟨tail, htail⟩ := hword
    have hlater := laterSource_spec (tail.dropWhile isBlank)
    rw [← htail, importAt_import_append]
    by_cases hblanks : tail.takeWhile isBlank = []
    · rw [if_pos hblanks]
      exact fun q hq => (hq.behind_word htail.symm).1 hblanks
    rw [if_neg hblanks]
    cases hfound : laterSource (tail.dropWhile isBlank) with
    | some found =>
      rw [hfound] at hlater
      rw [Option.some_or]
      obtain ⟨source, k, hstands, htarget, hlength, hleast⟩ := hlater
      obtain ⟨p, hp, rfl, hfrom⟩ :=
        ImportPhrase.exists_chosenAt_of_standsAt htail.symm hblanks hstands hleast
      refine ⟨p, hp, htarget, ?_⟩
      rw [p.length_text]
      omega
    | none =>
      rw [hfound] at hlater
      rw [Option.none_or]
      by_cases htwo : 2 ≤ (tail.takeWhile isBlank).length
      · rw [if_pos htwo]
        cases hsource : sourceAt (tail.dropWhile isBlank) with
        | some found =>
          obtain ⟨source, hpre, htarget, hlength⟩ := sourceAt_eq_some_iff.1 hsource
          obtain ⟨p, hp, rfl, hfrom⟩ :=
            ImportPhrase.exists_chosenAt_of_prefix htail.symm htwo hlater hpre
          refine ⟨p, hp, htarget, ?_⟩
          rw [p.length_text]
          omega
        | none =>
          intro q hq
          obtain ⟨-, -, hpre⟩ := hq.near htail.symm hlater
          rw [sourceAt_eq_some_iff.2 ⟨q.source, hpre, rfl, rfl⟩] at hsource
          cases hsource
      · rw [if_neg htwo]
        exact fun q hq => htwo (hq.near htail.symm hlater).2.1
  · rw [importAt_eq_none hword]
    intro p hp
    obtain ⟨tail, htail⟩ := hp.exists_tail
    exact hword ⟨tail, htail.symm⟩

theorem importAt_ne_none_iff {content : List Char} {start : Nat} :
    importAt (content.drop start) ≠ none ↔ ∃ p : ImportPhrase, p.OccursAt content start := by
  have hspec := importAt_spec content start
  constructor
  · intro hfound
    cases himport : importAt (content.drop start) with
    | none => exact absurd himport hfound
    | some found =>
      rw [himport] at hspec
      obtain ⟨p, hp, -⟩ := hspec
      exact ⟨p, hp.occurs⟩
  · rintro ⟨p, hp⟩ hnone
    rw [hnone] at hspec
    exact hspec p hp

theorem ImportPhrase.OccursAt.sourceAt {p : ImportPhrase} {content : List Char} {start : Nat}
    (h : p.OccursAt content start) : sourceAt (content.drop (start + p.fromOffset)) =
      some (p.target, p.source.text.length) := by
  obtain ⟨rest, hrest⟩ := h
  have hfront : ("import".toList ++ (p.opening ++ (p.imported ++ p.gap))).length =
      p.fromOffset := by
    have hword : "import".toList.length = 6 := rfl
    simp only [List.length_append, hword, ImportPhrase.fromOffset]
    omega
  have htext : p.text ++ rest = "import".toList ++ (p.opening ++ (p.imported ++ p.gap)) ++
      (p.source.text ++ rest) := by
    simp only [ImportPhrase.text_eq, List.append_assoc]
  rw [← List.drop_drop, ← hrest, htext, List.drop_left' hfront]
  exact p.source.sourceAt_text_append rest

theorem ImportPhrase.ChosenAt.unique {p q : ImportPhrase} {content : List Char} {start : Nat}
    (hp : p.ChosenAt content start) (hq : q.ChosenAt content start) :
    p.target = q.target ∧ p.text.length = q.text.length := by
  have hfrom : p.fromOffset = q.fromOffset := by
    have hple := hp.occurs.importedOffset_le
    have hqle := hq.occurs.importedOffset_le
    have hpq := hp.earliest q hq.occurs
    have hqp := hq.earliest p hp.occurs
    omega
  have heq := hp.occurs.sourceAt
  rw [hfrom, hq.occurs.sourceAt] at heq
  obtain ⟨htarget, hlength⟩ := Prod.mk.inj (Option.some.inj heq)
  rw [p.length_text, q.length_text]
  exact ⟨htarget.symm, by omega⟩

theorem importAt_eq_some_iff {content target : List Char} {start n : Nat} :
    importAt (content.drop start) = some (target, n) ↔
      ∃ p : ImportPhrase, p.ChosenAt content start ∧ p.target = target ∧ p.text.length = n := by
  have hspec := importAt_spec content start
  constructor
  · intro hfound
    rw [hfound] at hspec
    exact hspec
  · rintro ⟨p, hp, rfl, rfl⟩
    obtain ⟨found, hfound⟩ := Option.ne_none_iff_exists'.1
      (importAt_ne_none_iff.2 ⟨p, hp.occurs⟩)
    rw [hfound] at hspec
    obtain ⟨q, hq, htarget, hlength⟩ := hspec
    obtain ⟨heq, hlen⟩ := hp.unique hq
    rw [hfound, heq, hlen, htarget, hlength]

theorem importAt_proper : Matcher.Proper importAt where
  nil := rfl
  pos := fun {text target n} h => by
    obtain ⟨p, -, -, rfl⟩ := importAt_eq_some_iff.1
      (show importAt (text.drop 0) = some (target, n) from h)
    exact p.length_text_pos

/-- A phrase of a content with the place where it begins. -/
structure ImportOccurrence (content : List Char) where
  start : Nat
  phrase : ImportPhrase
  chosen : phrase.ChosenAt content start

namespace ImportOccurrence

variable {content : List Char}

def stop (o : ImportOccurrence content) : Nat := o.start + o.phrase.text.length

def target (o : ImportOccurrence content) : String := String.ofList o.phrase.target

def span (o : ImportOccurrence content) : Span (List Char) :=
  ⟨o.start, o.phrase.target, o.phrase.text.length⟩

/-- Occurrences in order, none of which reaches into the next one. Where a phrase begins one of
them lies, so no phrase begins before the first, between two of them or behind the last. -/
structure Tiles (occurrences : List (ImportOccurrence content)) : Prop where
  disjoint : occurrences.Pairwise fun a b => a.stop ≤ b.start
  covers : ∀ (p : ImportPhrase) (start : Nat), p.OccursAt content start →
    ∃ o ∈ occurrences, o.start ≤ start ∧ start < o.stop

theorem tiles_iff_selects (occurrences : List (ImportOccurrence content)) :
    Tiles occurrences ↔ Matcher.Selects importAt content 0 (occurrences.map span) := by
  constructor
  · intro htiles
    refine ⟨fun s hs => ?_, ?_, fun i hi hfound => ?_⟩
    · obtain ⟨o, ho, rfl⟩ := List.mem_map.1 hs
      exact ⟨Nat.zero_le _, importAt_eq_some_iff.2 ⟨o.phrase, o.chosen, rfl, rfl⟩⟩
    · rw [List.pairwise_map]
      exact htiles.disjoint
    · obtain ⟨p, hp⟩ := importAt_ne_none_iff.1 hfound
      obtain ⟨o, ho, hcover⟩ := htiles.covers p i hp
      exact ⟨o.span, List.mem_map_of_mem ho, hcover⟩
  · intro hselects
    refine ⟨List.pairwise_map.1 hselects.disjoint, fun p i hp => ?_⟩
    obtain ⟨s, hs, hcover⟩ := hselects.covers i (Nat.zero_le i)
      (importAt_ne_none_iff.2 ⟨p, hp⟩)
    obtain ⟨o, ho, rfl⟩ := List.mem_map.1 hs
    exact ⟨o, ho, hcover⟩

theorem exists_map_span {spans : List (Span (List Char))} {position : Nat}
    (h : Matcher.Selects importAt content position spans) :
    ∃ occurrences : List (ImportOccurrence content), occurrences.map span = spans := by
  have hrange : spans ∈ Set.range (List.map (@span content)) := by
    rw [Set.range_list_map]
    intro s hs
    obtain ⟨p, hp, htarget, hlength⟩ := importAt_eq_some_iff.1 (h.occurs s hs).2
    exact ⟨⟨s.start, p, hp⟩, by rw [span, htarget, hlength]⟩
  exact hrange

end ImportOccurrence

/-- The imports of a file are the targets of the chosen phrases that tile its text, they are what
the file depends on, and there are none only where no phrase occurs. -/
theorem imports_of_content (content : String) :
    (ofContent content).dependencies = (ofContent content).imports ∧
    (∀ targets : List String, (ofContent content).imports = targets ↔
      ∃ occurrences : List (ImportOccurrence content.toList),
        ImportOccurrence.Tiles occurrences ∧ targets = occurrences.map ImportOccurrence.target) ∧
    ((ofContent content).imports = [] ↔
      ∀ (p : ImportPhrase) (start : Nat), ¬p.OccursAt content.toList start) := by
  have htiles : ∀ targets : List String, (ofContent content).imports = targets ↔
      ∃ occurrences : List (ImportOccurrence content.toList),
        ImportOccurrence.Tiles occurrences ∧
          targets = occurrences.map ImportOccurrence.target := fun targets => by
    change importsOf content = targets ↔ _
    obtain ⟨spans, hspans, hscan⟩ := (Matcher.scan_eq_iff importAt_proper _).1
      (rfl : scan importAt content.toList = _)
    constructor
    · rintro rfl
      obtain ⟨occurrences, rfl⟩ := ImportOccurrence.exists_map_span hspans
      refine ⟨occurrences, (ImportOccurrence.tiles_iff_selects _).2 hspans, ?_⟩
      rw [importsOf, hscan, List.map_map, List.map_map]
      rfl
    · rintro ⟨occurrences, hoccurrences, rfl⟩
      have hselects := (ImportOccurrence.tiles_iff_selects occurrences).1 hoccurrences
      rw [importsOf, (Matcher.scan_eq_iff importAt_proper _).2 ⟨_, hselects, rfl⟩, List.map_map,
        List.map_map]
      rfl
  refine ⟨rfl, htiles, ?_⟩
  rw [htiles]
  constructor
  · rintro ⟨occurrences, hoccurrences, hnil⟩ p start hp
    obtain ⟨o, ho, -⟩ := hoccurrences.covers p start hp
    rw [List.map_eq_nil_iff.1 hnil.symm] at ho
    cases ho
  · intro hnone
    exact ⟨[], ⟨List.Pairwise.nil, fun p start hp => absurd hp (hnone p start)⟩, rfl⟩

end CodeAtlas.Linkage
