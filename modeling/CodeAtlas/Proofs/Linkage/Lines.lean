import CodeAtlas.Proofs.Linkage.ImportPhrase
import CodeAtlas.Proofs.Text.Cut
import Mathlib.Data.List.Basic

/-! Imports and lines. A phrase may hold line feeds in its blanks and in its target, so the imports
of a file need not be those of its lines; they are where no phrase found holds one. -/
namespace CodeAtlas.Linkage

open Text

private theorem ImportPhrase.OccursAt.importedOffset_append {p : ImportPhrase} {text : List Char}
    (h : p.OccursAt text 0) (rest : List Char) :
    importedOffset (text ++ rest) 0 = importedOffset text 0 := by
  obtain ⟨behind, htext⟩ := h
  have htail : text.drop 0 = "import".toList ++
      (p.opening ++ (p.imported ++ (p.gap ++ p.source.text)) ++ behind) := by
    rw [← htext, text_eq, List.append_assoc]
  have hlonger : (text ++ rest).drop 0 = "import".toList ++
      (p.opening ++ (p.imported ++ (p.gap ++ p.source.text)) ++ behind ++ rest) := by
    rw [List.drop_zero, ← List.drop_zero (l := text), htail, List.append_assoc]
  have hfrom : 'f' ∈ p.opening ++ (p.imported ++ (p.gap ++ p.source.text)) ++ behind := by
    obtain ⟨word, hword⟩ := p.source.text_eq_cons
    simp [hword]
  rw [importedOffset_of_drop_eq htail, importedOffset_of_drop_eq hlonger,
    takeWhile_append_of_mem hfrom (by decide)]

theorem ImportPhrase.OccursAt.append {p : ImportPhrase} {text : List Char} (h : p.OccursAt text 0)
    (rest : List Char) : p.OccursAt (text ++ rest) 0 :=
  List.IsPrefix.trans h (List.prefix_append text rest)

private theorem ImportPhrase.ChosenAt.of_append {p : ImportPhrase} {text rest : List Char}
    (h : p.ChosenAt (text ++ rest) 0) (hlength : p.text.length ≤ text.length) :
    p.ChosenAt text 0 := by
  have hoccurs : p.OccursAt text 0 :=
    List.prefix_of_prefix_length_le h.occurs (List.prefix_append text rest) hlength
  refine ⟨hoccurs, fun q hq hlt => ?_⟩
  rw [← hoccurs.importedOffset_append rest] at hlt ⊢
  exact h.earliest q (hq.append rest) hlt

private theorem importAt_local : Matcher.Local importAt where
  within := fun {text value length} h => by
    obtain ⟨p, hp, -, rfl⟩ := importAt_eq_some_iff.1
      (show importAt (text.drop 0) = some (value, length) from h)
    exact List.IsPrefix.length_le hp.occurs
  kept := fun {text} rest h => by
    obtain ⟨p, hp⟩ := importAt_ne_none_iff.1 (show importAt (text.drop 0) ≠ none from h)
    exact importAt_ne_none_iff.2 ⟨p, hp.append rest⟩
  cut := fun {text rest value length} h hlength => by
    obtain ⟨p, hp, rfl, rfl⟩ := importAt_eq_some_iff.1
      (show importAt ((text ++ rest).drop 0) = some (value, length) from h)
    exact importAt_eq_some_iff.2 ⟨p, hp.of_append hlength, rfl, rfl⟩

private theorem importAt_newline (cs : List Char) : importAt ('\n' :: cs) = none := by
  refine importAt_eq_none fun h => ?_
  obtain ⟨rest, hrest⟩ := h
  cases hrest

private theorem ImportOccurrence.coveredIn_span {content : List Char}
    (o : ImportOccurrence content) : o.span.coveredIn content = o.phrase.text :=
  (List.prefix_iff_eq_take.1 o.chosen.occurs).symm

private theorem ImportPhrase.target_subset_text (p : ImportPhrase) : p.target ⊆ p.text := by
  intro c hc
  have hsource : c ∈ p.source.text := by
    rw [SourcePhrase.text_eq, List.mem_append, List.mem_append, List.mem_cons, List.mem_append]
    exact .inr (.inr (.inr (.inl hc)))
  simp only [text_eq, List.mem_append]
  exact .inr (.inr (.inr (.inr hsource)))

private theorem subset_of_mem_scan {text target : List Char} (h : target ∈ scan importAt text) :
    target ⊆ text := by
  obtain ⟨spans, hspans, hscan⟩ := (Matcher.scan_eq_iff importAt_proper _).1
    (rfl : scan importAt text = _)
  rw [hscan] at h
  obtain ⟨s, hs, rfl⟩ := List.mem_map.1 h
  obtain ⟨p, hp, htarget, -⟩ := importAt_eq_some_iff.1 (hspans.occurs s hs).2
  rw [← htarget]
  exact fun c hc =>
    List.mem_of_mem_drop (List.IsPrefix.subset hp.occurs (p.target_subset_text hc))

theorem flatMap_imports_lines (content : String) :
    (lines content).flatMap (fun line => (ofContent line).imports) =
      ((splitOn '\n' content.toList).flatMap (scan importAt)).map String.ofList := by
  rw [List.map_flatMap, lines, List.flatMap_map]
  refine congrArg (List.flatMap · _) (funext fun line => ?_)
  change importsOf (String.ofList line) = _
  rw [importsOf, String.toList_ofList]

/-- The phrases found in a file are those found line by line if and only if none of them holds a
line feed. Then the imports of the file are those of its lines, in order; where a target holds a
line feed they are not. -/
theorem imports_of_lines (content : String) :
    ∃ occurrences : List (ImportOccurrence content.toList),
      ImportOccurrence.Tiles occurrences ∧
      (ofContent content).imports = occurrences.map ImportOccurrence.target ∧
      (occurrences.map ImportOccurrence.span =
          Matcher.spansOfPieces importAt 0 (splitOn '\n' content.toList) ↔
        ∀ o ∈ occurrences, '\n' ∉ o.phrase.text) ∧
      ((∀ o ∈ occurrences, '\n' ∉ o.phrase.text) →
        (ofContent content).imports =
          (lines content).flatMap fun line => (ofContent line).imports) ∧
      ((∃ o ∈ occurrences, '\n' ∈ o.phrase.target) →
        (ofContent content).imports ≠
          (lines content).flatMap fun line => (ofContent line).imports) := by
  have hselects := (Matcher.selects_iff importAt_proper _).2
    (rfl : spansFrom importAt 0 0 content.toList = _)
  obtain ⟨occurrences, hspans⟩ := ImportOccurrence.exists_map_span hselects
  rw [← hspans] at hselects
  have himports : (ofContent content).imports =
      ((occurrences.map ImportOccurrence.span).map Span.value).map String.ofList := by
    rw [hspans, Matcher.map_value_spansFrom]
    rfl
  have hlines : occurrences.map ImportOccurrence.span =
      Matcher.spansOfPieces importAt 0 (splitOn '\n' content.toList) ↔
        ∀ o ∈ occurrences, '\n' ∉ o.phrase.text := by
    rw [hspans, importAt_local.spansOfPieces_eq_iff importAt_newline, ← hspans,
      List.forall_mem_map]
    simp only [ImportOccurrence.coveredIn_span]
  refine ⟨occurrences, (ImportOccurrence.tiles_iff_selects _).2 hselects, ?_, hlines, ?_, ?_⟩
  · rw [himports, List.map_map, List.map_map]
    rfl
  · intro hclear
    rw [himports, hlines.2 hclear, Matcher.map_value_spansOfPieces, flatMap_imports_lines]
  · rintro ⟨o, ho, hnewline⟩ hlaw
    rw [himports, flatMap_imports_lines] at hlaw
    have htargets := List.map_injective_iff.2 (fun _ _ => String.ofList_injective) hlaw
    have hmem : o.phrase.target ∈ (occurrences.map ImportOccurrence.span).map Span.value :=
      List.mem_map_of_mem (List.mem_map_of_mem ho)
    rw [htargets] at hmem
    obtain ⟨line, hline, htarget⟩ := List.mem_flatMap.1 hmem
    exact not_mem_of_mem_splitOn hline (subset_of_mem_scan htarget hnewline)

theorem imports_over_line_feed :
    (ofContent "import a from 'x\nimport b from 'y'").imports ≠
      (lines "import a from 'x\nimport b from 'y'").flatMap
        fun line => (ofContent line).imports := by
  decide +kernel

end CodeAtlas.Linkage
