import CodeAtlas.Proofs.Decimal.Numerals
import CodeAtlas.Svg.Markup
import Mathlib.Data.List.Basic

/-! What keeps shown texts inside their places: no special character is left in them but in front of
an escape, and fixed parts stand on both sides of each of them. -/
namespace CodeAtlas.Svg

def escapes : List (List Char) :=
  ["&amp;".toList, "&lt;".toList, "&gt;".toList, "&#39;".toList, "&#34;".toList]

/-- A text without raw brackets and quotes, in which every ampersand begins an escape. -/
structure Escaped (cs : List Char) : Prop where
  no_mark : ∀ c ∈ cs, c ≠ '<' ∧ c ≠ '>' ∧ c ≠ '"' ∧ c ≠ '\''
  ampersand : ∀ tail, '&' :: tail <:+ cs → ∃ e ∈ escapes, e <+: '&' :: tail

private theorem escape_cons (c : Char) (cs : List Char) :
    escape (c :: cs) = escapeChar c ++ escape cs :=
  rfl

private theorem escapeChar_cases (c : Char) : escapeChar c ∈ escapes ∨
    escapeChar c = [c] ∧ c ≠ '&' ∧ c ≠ '<' ∧ c ≠ '>' ∧ c ≠ '"' ∧ c ≠ '\'' := by
  unfold escapeChar
  split_ifs with h₁ h₂ h₃ h₄ h₅
  · exact .inl (by decide)
  · exact .inl (by decide)
  · exact .inl (by decide)
  · exact .inl (by decide)
  · exact .inl (by decide)
  · exact .inr ⟨rfl, h₁, h₂, h₃, h₅, h₄⟩

private theorem escaped_nil : Escaped [] := ⟨nofun, fun _ h => by simp at h⟩

theorem Escaped.cons {c : Char} {cs : List Char} (h : Escaped cs)
    (hc : c ≠ '&' ∧ c ≠ '<' ∧ c ≠ '>' ∧ c ≠ '"' ∧ c ≠ '\'') : Escaped (c :: cs) where
  no_mark := List.forall_mem_cons.2 ⟨hc.2, h.no_mark⟩
  ampersand := fun tail htail => by
    rcases List.suffix_cons_iff.1 htail with heq | htail
    · exact absurd (List.cons.inj heq).1.symm hc.1
    · exact h.ampersand tail htail

private theorem Escaped.escape_append {e cs : List Char} (he : e ∈ escapes) (h : Escaped cs) :
    Escaped (e ++ cs) := by
  have hshape : ∃ word, e = '&' :: word ∧
      word.all fun c => c ≠ '&' ∧ c ≠ '<' ∧ c ≠ '>' ∧ c ≠ '"' ∧ c ≠ '\'' := by
    simp only [escapes, List.mem_cons, List.not_mem_nil, or_false] at he
    rcases he with rfl | rfl | rfl | rfl | rfl
    all_goals exact ⟨_, rfl, by decide⟩
  obtain ⟨word, rfl, hall⟩ := hshape
  have hword : ∀ c ∈ word, c ≠ '&' ∧ c ≠ '<' ∧ c ≠ '>' ∧ c ≠ '"' ∧ c ≠ '\'' :=
    fun c hc => of_decide_eq_true (List.all_eq_true.1 hall c hc)
  have hrest : Escaped (word ++ cs) := by
    clear he hall
    induction word with
    | nil => exact h
    | cons c word ih =>
      obtain ⟨hc, hword⟩ := List.forall_mem_cons.1 hword
      exact (ih hword).cons hc
  refine ⟨List.forall_mem_cons.2 ⟨by decide, hrest.no_mark⟩, fun tail htail => ?_⟩
  rcases List.suffix_cons_iff.1 htail with heq | htail
  · exact ⟨'&' :: word, he, heq ▸ List.prefix_append ('&' :: word) cs⟩
  · exact hrest.ampersand tail htail

theorem escaped_escape (text : List Char) : Escaped (escape text) := by
  induction text with
  | nil => exact escaped_nil
  | cons c cs ih =>
    rw [escape_cons]
    rcases escapeChar_cases c with hescape | ⟨hself, hc⟩
    · exact ih.escape_append hescape
    · rw [hself]
      exact ih.cons hc

def Bare (cs : List Char) : Prop := ∀ c ∈ cs, c ≠ '<' ∧ c ≠ '>'

-- By the characters of the text, and not by all characters there are.
instance (cs : List Char) : Decidable (Bare cs) :=
  List.decidableBAll (fun c => c ≠ '<' ∧ c ≠ '>') cs

theorem bare_append {cs ds : List Char} : Bare (cs ++ ds) ↔ Bare cs ∧ Bare ds :=
  List.forall_mem_append

theorem Bare.not_mem {cs : List Char} (h : Bare cs) : '<' ∉ cs := fun hmem => (h _ hmem).1 rfl

theorem Escaped.bare {cs : List Char} (h : Escaped cs) : Bare cs := fun c hc =>
  ⟨(h.no_mark c hc).1, (h.no_mark c hc).2.1⟩

theorem bare_of_numeral {cs : List Char} (h : Decimal.Numeral cs) : Bare cs := by
  intro c hc
  have hnumeral := h c hc
  constructor <;>
  · rintro rfl
    exact absurd hnumeral (by decide)

/-- The fixed markup of a piece, and nothing for a shown text. -/
def Piece.markup? : Piece → Option String
  | .fixed markup => some markup
  | .shown _ => none

def Piece.shown? : Piece → Option String
  | .fixed _ => none
  | .shown text => some text

/-- Two parts of markup with room for a text between them: the value of a `data-id` or of a `fill`,
or the content of a `text` element. -/
def Around (before after : String) : Prop :=
  (∃ start rest, before = start ++ " data-id=\"" ∧ after = "\"" ++ rest) ∨
  (∃ start rest, before = start ++ " fill=\"" ∧ after = "\"" ++ rest) ∨
  (∃ start attributes rest, before = start ++ "<text " ++ attributes ++ ">" ∧
    Bare attributes.toList ∧ after = "</text>" ++ rest)

/-- Pieces of which every shown text stands in such a room. -/
inductive Framed : List Piece → Prop
  | nil : Framed []
  | fixed (markup : String) {pieces : List Piece} (rest : Framed pieces) :
      Framed (.fixed markup :: pieces)
  | room {before after : String} (text : String) {pieces : List Piece}
      (around : Around before after) (rest : Framed (.fixed after :: pieces)) :
      Framed (.fixed before :: .shown text :: .fixed after :: pieces)

theorem Framed.append {pieces more : List Piece} (h : Framed pieces) (h' : Framed more) :
    Framed (pieces ++ more) := by
  induction h with
  | nil => exact h'
  | fixed markup rest ih => exact ih.fixed markup
  | room text around rest ih => exact ih.room text around

theorem Framed.flatMap {α : Type} {items : List α} {draw : α → List Piece}
    (h : ∀ item ∈ items, Framed (draw item)) : Framed (items.flatMap draw) := by
  induction items with
  | nil => exact .nil
  | cons item items ih =>
    obtain ⟨hitem, hitems⟩ := List.forall_mem_cons.1 h
    exact hitem.append (ih hitems)

end CodeAtlas.Svg
