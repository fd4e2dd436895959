import CodeAtlas.Complexity
import CodeAtlas.Proofs.Text.Words
import Mathlib.Data.Rat.Floor

/-! What the measure of a text counts, and how it changes with the text. Function words cannot
overlap, so all of them count. Words of conditions can, and as many count as keep apart; so a count
adds up over the lines of a text and never falls when text is added. -/
namespace CodeAtlas.Complexity

open Text

theorem nil_not_mem_functionWords : [] ∉ functionWords := by decide

theorem nil_not_mem_conditionWords : [] ∉ conditionWords := by decide

theorem infixFree_functionWords : InfixFree functionWords := by decide

theorem infixFree_conditionWords : InfixFree conditionWords := by decide

private theorem overlapFree_functionWords : OverlapFree functionWords := by decide

/-- Every function word counts. Of the words of conditions, which may overlap, as many count as can
be chosen with no two overlapping. -/
theorem counts_of_words (content : String) :
    functionCount content = (places functionWords content.toList).length ∧
      IsGreatest {n | HoldsApart conditionWords content.toList n} (conditionCount content) :=
  ⟨countWords_eq_length_places nil_not_mem_functionWords (by decide)
    infixFree_functionWords.prefixFree overlapFree_functionWords content.toList,
    isGreatest_countWords nil_not_mem_conditionWords infixFree_conditionWords content.toList⟩

example : conditionCount "caselse" = 1 ∧
    places conditionWords "caselse".toList = [⟨0, "case".toList⟩, ⟨3, "else".toList⟩] := by
  decide +kernel

theorem ofContent_eq (content : String) :
    ofContent content = ((lineCount content + 20 * functionCount content +
      15 * conditionCount content + 5) / 10 : Nat) := by
  have htenths : weight (lineCount content) (functionCount content) (conditionCount content) +
      1 / 2 = ((lineCount content + 20 * functionCount content + 15 * conditionCount content + 5 :
        Nat) : Rat) / (10 : Nat) := by
    rw [weight]
    push_cast
    ring
  rw [ofContent, roundHalfUp, htenths]
  exact Rat.floor_natCast_div_natCast _ 10

theorem ofContent_le_of_isInfix {part whole : String} (h : part.toList <:+: whole.toList) :
    ofContent part ≤ ofContent whole := by
  have hlines : lineCount part ≤ lineCount whole :=
    Nat.succ_le_succ (h.sublist.count_le '\n')
  have hfunctions : functionCount part ≤ functionCount whole :=
    countWords_le_of_isInfix nil_not_mem_functionWords infixFree_functionWords h
  have hconditions : conditionCount part ≤ conditionCount whole :=
    countWords_le_of_isInfix nil_not_mem_conditionWords infixFree_conditionWords h
  rw [ofContent_eq, ofContent_eq]
  exact Int.ofNat_le.2 (Nat.div_le_div_right (by omega))

theorem toList_append_newline (a b : String) :
    (a ++ "\n" ++ b).toList = a.toList ++ '\n' :: b.toList := by
  rw [String.toList_append, String.toList_append, List.append_assoc]
  rfl

private theorem lineCount_append_newline (a b : String) :
    lineCount (a ++ "\n" ++ b) = lineCount a + lineCount b := by
  rw [lineCount, lineCount, lineCount, toList_append_newline, List.count_append,
    List.count_cons_self]
  omega

private theorem functionCount_append_newline (a b : String) :
    functionCount (a ++ "\n" ++ b) = functionCount a + functionCount b := by
  rw [functionCount, toList_append_newline]
  exact countWords_append_cons nil_not_mem_functionWords infixFree_functionWords.prefixFree
    (by decide) a.toList b.toList

private theorem conditionCount_append_newline (a b : String) :
    conditionCount (a ++ "\n" ++ b) = conditionCount a + conditionCount b := by
  rw [conditionCount, toList_append_newline]
  exact countWords_append_cons nil_not_mem_conditionWords infixFree_conditionWords.prefixFree
    (by decide) a.toList b.toList

/-- The three counts add up over a line feed, they alone decide the measure, and the measure of a
text is at most that of a text which begins or ends with it. -/
theorem measure_of_joined (a b : String) :
    (lineCount (a ++ "\n" ++ b) = lineCount a + lineCount b ∧
      functionCount (a ++ "\n" ++ b) = functionCount a + functionCount b ∧
      conditionCount (a ++ "\n" ++ b) = conditionCount a + conditionCount b) ∧
    (∀ content : String, ofContent content = ((lineCount content + 20 * functionCount content +
      15 * conditionCount content + 5) / 10 : Nat)) ∧
    ofContent a ≤ ofContent (a ++ b) ∧ ofContent b ≤ ofContent (a ++ b) := by
  refine ⟨⟨lineCount_append_newline a b, functionCount_append_newline a b,
    conditionCount_append_newline a b⟩, ofContent_eq, ?_, ?_⟩
  · refine ofContent_le_of_isInfix ?_
    rw [String.toList_append]
    exact (List.prefix_append _ _).isInfix
  · refine ofContent_le_of_isInfix ?_
    rw [String.toList_append]
    exact (List.suffix_append _ _).isInfix

end CodeAtlas.Complexity
