import CodeAtlas.Proofs.Forest.Selection
import CodeAtlas.Proofs.Text.Casing

/-! Searching for a part of a name. Names are compared in small letters, so a text that a name holds
is found in it unless the text leaves the small form of one of its sigmas open. -/
namespace CodeAtlas.Forest

private theorem Query.accepts_search (term : String) (e : Entry) :
    Query.accepts { search := some term } e =
      Text.contains (Text.lower term) (Text.lower e.name) := by
  simp only [Query.accepts, Bool.and_true]
  by_cases hterm : term = ""
  · have hcontains : Text.contains (Text.lower "") (Text.lower e.name) = true :=
      (Text.occursIn_iff _ _).2 List.nil_infix
    rw [hterm, hcontains, Bool.or_true]
  · rw [beq_eq_false_iff_ne.2 hterm, Bool.false_or]

theorem filesOf_select_search (term : String) (forest : Forest) :
    filesOf (select { search := some term } forest) =
      (filesOf forest).filter fun e => Text.contains (Text.lower term) (Text.lower e.name) := by
  rw [select_eq, filesOf_kept]
  exact List.filter_congr fun e _ => Query.accepts_search term e

theorem mem_filesOf_select_search_iff {term : String} {forest : Forest} {e : Entry} :
    e ∈ filesOf (select { search := some term } forest) ↔
      e ∈ filesOf forest ∧ (Text.lower term).toList <:+: (Text.lower e.name).toList := by
  rw [filesOf_select_search, List.mem_filter, Text.contains, Text.occursIn_iff]

/-- A search finds the files whose name in small letters holds the text in small letters. All
files whose name holds the text itself are among them, in every forest, if and only if no capital
sigma of the text is left open: characters passed over aside, none ends the text behind a letter, and
none begins it without a letter after it. -/
theorem literal_search (term : String) :
    (∀ forest, filesOf (select { search := some term } forest) =
      (filesOf forest).filter fun e => Text.contains (Text.lower term) (Text.lower e.name)) ∧
    ((∀ forest, ∀ e ∈ filesOf forest, term.toList <:+: e.name.toList →
        e ∈ filesOf (select { search := some term } forest)) ↔
      ∀ before after, term.toList = before ++ 'Σ' :: after →
        ¬ Text.Casing.LeftOpen before after) := by
  refine ⟨filesOf_select_search term, ?_⟩
  rw [← Text.lower_isInfix_iff]
  constructor
  · intro hfound name hname
    have hfile : { path := name, name := name : Entry } ∈
        filesOf [.node { path := name, name := name } []] := by
      rw [filesOf_singleton]
      exact List.mem_singleton_self _
    exact (mem_filesOf_select_search_iff.1 (hfound _ _ hfile hname)).2
  · intro hlower forest e he hname
    exact mem_filesOf_select_search_iff.2 ⟨he, hlower e.name hname⟩

/-- A file whose name has a sigma in front of its extension. That sigma is final in the word
searched for, and it is not in the name, where a letter follows the point. -/
def kosmos : Entry := { path := "ΚΟΣΜΟΣ.ts", name := "ΚΟΣΜΟΣ.ts" }

theorem final_sigma_not_found :
    "ΚΟΣΜΟΣ".toList <:+: kosmos.name.toList ∧ kosmos ∈ filesOf [.node kosmos []] ∧
      kosmos ∉ filesOf (select { search := some "ΚΟΣΜΟΣ" } [.node kosmos []]) := by
  have hword : "ΚΟΣΜΟΣ".toList = ['Κ', 'Ο', 'Σ', 'Μ', 'Ο'] ++ 'Σ' :: [] := by decide
  have hbefore : Text.Casing.meetsLetter ['Ο', 'Μ', 'Σ', 'Ο', 'Κ'] = true := by
    rw [Text.Casing.meetsLetter_cons, Text.Casing.within_eq, Text.Casing.within_eq]
    decide +kernel
  have hright : Text.Casing.meetsLetter ".ts".toList = true := by
    rw [show ".ts".toList = ['.', 't', 's'] from rfl]
    simp only [Text.Casing.meetsLetter_cons, Text.Casing.within_eq]
    decide +kernel
  have hname : kosmos.name = "ΚΟΣΜΟΣ" ++ ".ts" := by decide
  refine ⟨by decide, by decide, fun hfound => ?_⟩
  rw [mem_filesOf_select_search_iff, hname] at hfound
  exact Text.not_lower_isInfix_of_end hword hbefore (fun _ hc => absurd hc List.not_mem_nil) hright
    (by decide +kernel) hfound.2

end CodeAtlas.Forest
