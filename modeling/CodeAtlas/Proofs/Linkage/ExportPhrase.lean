import CodeAtlas.Linkage
import CodeAtlas.Proofs.Text.Words

/-! The exports of a file against the grammar they are written in. At one place there is one phrase
at most, and a phrase that the scan leaves out begins in the name of the phrase before it. -/
namespace CodeAtlas.Linkage

open Text

structure SpacedWord (words : List (List Char)) where
  word : List Char
  blanks : List Char
  word_mem : word ∈ words
  blanks_ne_nil : blanks ≠ []
  isAsciiBlank_blanks : ∀ c ∈ blanks, isAsciiBlank c = true

structure DeclarationPhrase where
  opening : SpacedWord declarationWords
  name : List Char
  name_ne_nil : name ≠ []
  isNameChar_name : ∀ c ∈ name, isNameChar c = true

structure ExportPhrase where
  opening : SpacedWord ["export".toList]
  marker : Option (SpacedWord ["default".toList])
  declaration : DeclarationPhrase

namespace SpacedWord

variable {words : List (List Char)}

def text (w : SpacedWord words) : List Char := w.word ++ w.blanks

end SpacedWord

def DeclarationPhrase.text (d : DeclarationPhrase) : List Char := d.opening.text ++ d.name

namespace ExportPhrase

def between (p : ExportPhrase) : List Char := (p.marker.map SpacedWord.text).getD []

def text (p : ExportPhrase) : List Char := p.opening.text ++ (p.between ++ p.declaration.text)

def name (p : ExportPhrase) : List Char := p.declaration.name

def nameOffset (p : ExportPhrase) : Nat :=
  p.opening.text.length + p.between.length + p.declaration.opening.text.length

def Leads (p : ExportPhrase) (text : List Char) : Prop :=
  ∃ rest, text = p.text ++ rest ∧ EndsRun isNameChar rest

def OccursAt (p : ExportPhrase) (content : List Char) (start : Nat) : Prop :=
  p.Leads (content.drop start)

end ExportPhrase

def Solid (words : List (List Char)) : Prop :=
  ∀ word ∈ words, word ≠ [] ∧ word.any isAsciiBlank = false

instance (words : List (List Char)) : Decidable (Solid words) :=
  inferInstanceAs (Decidable (∀ word ∈ words, word ≠ [] ∧ word.any isAsciiBlank = false))

theorem Solid.isAsciiBlank_eq_false {words : List (List Char)} (h : Solid words)
    {word : List Char} (hword : word ∈ words) : ∀ c ∈ word, isAsciiBlank c = false := fun c hc =>
  Bool.eq_false_iff.2 (List.any_eq_false.1 (h word hword).2 c hc)

namespace SpacedWord

variable {words : List (List Char)}

theorem endsRun_text (hsolid : Solid words) (w : SpacedWord words) (rest : List Char) :
    EndsRun isAsciiBlank (w.text ++ rest) := by
  obtain ⟨c, word, hword⟩ := List.exists_cons_of_ne_nil (hsolid w.word w.word_mem).1
  intro a ha
  rw [text, hword] at ha
  obtain rfl := Option.some.inj ha
  exact hsolid.isAsciiBlank_eq_false w.word_mem c (hword ▸ List.mem_cons_self)

theorem append_inj (hfree : PrefixFree words) {v w : SpacedWord words} {r s : List Char}
    (hr : EndsRun isAsciiBlank r) (hs : EndsRun isAsciiBlank s)
    (h : v.text ++ r = w.text ++ s) : v = w ∧ r = s := by
  rw [text, text, List.append_assoc, List.append_assoc] at h
  have hpre : w.word <+: v.word ++ (v.blanks ++ r) := h ▸ List.prefix_append _ _
  have hword := hfree.eq_of_prefix v.word_mem w.word_mem (List.prefix_append _ _) hpre
  rw [hword] at h
  obtain ⟨hblanks, hrest⟩ := append_inj_of_endsRun v.isAsciiBlank_blanks w.isAsciiBlank_blanks
    hr hs (List.append_cancel_left h)
  refine ⟨?_, hrest⟩
  cases v
  cases w
  simp only at hword hblanks
  subst hword hblanks
  rfl

theorem spacedWord_text_append (hfree : PrefixFree words) (w : SpacedWord words)
    {rest : List Char} (hrest : EndsRun isAsciiBlank rest) :
    spacedWord words (w.text ++ rest) = some w.text.length := by
  have hword : wordAt words (w.word ++ (w.blanks ++ rest)) = some (w.word, w.word.length) :=
    hfree.wordAt_eq w.word_mem (List.prefix_append _ _)
  rw [text, List.append_assoc, spacedWord, hword]
  simp only [List.drop_left, takeWhile_append_of_endsRun w.isAsciiBlank_blanks hrest,
    List.isEmpty_iff, if_neg w.blanks_ne_nil, List.length_append]

theorem exists_of_spacedWord {tail : List Char} {length : Nat}
    (h : spacedWord words tail = some length) :
    ∃ (w : SpacedWord words) (rest : List Char),
      tail = w.text ++ rest ∧ w.text.length = length ∧ EndsRun isAsciiBlank rest := by
  rw [spacedWord] at h
  split at h
  · cases h
  · next word wordLength hword =>
    obtain ⟨hmem, ⟨behind, rfl⟩, rfl⟩ := exists_of_wordAt hword
    simp only [List.drop_left, List.isEmpty_iff, Option.ite_none_left_eq_some,
      Option.some.injEq] at h
    obtain ⟨hblanks, rfl⟩ := h
    refine ⟨⟨word, behind.takeWhile isAsciiBlank, hmem, hblanks,
      fun c hc => List.mem_takeWhile_imp hc⟩, behind.dropWhile isAsciiBlank, ?_,
      List.length_append, endsRun_dropWhile isAsciiBlank behind⟩
    rw [text, List.append_assoc, List.takeWhile_append_dropWhile]

private theorem spacedWord_eq_none {tail : List Char} (h : ∀ word ∈ words, ¬word <+: tail) :
    spacedWord words tail = none := by
  have hnone : wordAt words tail = none := by
    by_contra hfound
    obtain ⟨word, hmem, hpre⟩ := wordAt_ne_none_iff.1 hfound
    exact h word hmem hpre
  rw [spacedWord, hnone]

theorem prefix_of_prefix_drop (w : SpacedWord words) {t rest : List Char} {k : Nat}
    (ht : ∀ c ∈ t, isAsciiBlank c = false) (hk : k < w.text.length)
    (h : t <+: (w.text ++ rest).drop k) : t <+: w.word.drop k := by
  rw [text, List.length_append] at hk
  have hleft : w.blanks.drop (k - w.word.length) ≠ [] := by
    rw [Ne, List.drop_eq_nil_iff]
    have := List.length_pos_iff.2 w.blanks_ne_nil
    omega
  obtain ⟨b, blanks, hblanks⟩ := List.exists_cons_of_ne_nil hleft
  have hb : isAsciiBlank b = true :=
    w.isAsciiBlank_blanks b (List.mem_of_mem_drop (hblanks ▸ List.mem_cons_self))
  rw [text, List.append_assoc, List.drop_append, List.drop_append_of_le_length (by omega), hblanks,
    List.cons_append] at h
  refine prefix_of_prefix_append_cons (fun hmem => ?_) h
  rw [ht b hmem] at hb
  cases hb

theorem prefix_text_append {t : List Char} (w : SpacedWord [t]) (rest : List Char) :
    t <+: w.text ++ rest := by
  rw [text, List.append_assoc, List.mem_singleton.1 w.word_mem]
  exact List.prefix_append _ _

theorem not_prefix_drop (w : SpacedWord words) {t rest : List Char} {k : Nat}
    (ht : ∀ c ∈ t, isAsciiBlank c = false) (hwords : ∀ word ∈ words, ¬t <:+: word)
    (hk : k < w.text.length) : ¬t <+: (w.text ++ rest).drop k := fun h =>
  hwords w.word w.word_mem
    ((w.prefix_of_prefix_drop ht hk h).isInfix.trans (List.drop_suffix k w.word).isInfix)

end SpacedWord

private theorem isAsciiBlank_eq_false_of_isNameChar {c : Char} (h : isNameChar c = true) :
    isAsciiBlank c = false := by
  by_contra hblank
  have hcode : c.toNat ∈ [9, 10, 11, 12, 13, 32] := by
    simp only [isAsciiBlank, Bool.not_eq_false, Bool.or_eq_true, Bool.and_eq_true,
      decide_eq_true_eq, beq_iff_eq] at hblank
    simp only [List.mem_cons, List.not_mem_nil, or_false]
    omega
  have hcodes : ∀ code ∈ [9, 10, 11, 12, 13, 32], isNameChar (Char.ofNat code) = false := by decide
  rw [← Char.ofNat_toNat c, hcodes _ hcode] at h
  cases h

theorem prefixFree_declarationWords : PrefixFree declarationWords := by decide

private theorem solid_export : Solid ["export".toList] := by decide

private theorem solid_default : Solid ["default".toList] := by decide

private theorem solid_declarationWords : Solid declarationWords := by decide

namespace DeclarationPhrase

theorem endsRun_name (d : DeclarationPhrase) (rest : List Char) :
    EndsRun isAsciiBlank (d.name ++ rest) := by
  obtain ⟨c, name, hname⟩ := List.exists_cons_of_ne_nil d.name_ne_nil
  intro a ha
  rw [hname] at ha
  obtain rfl := Option.some.inj ha
  exact isAsciiBlank_eq_false_of_isNameChar (d.isNameChar_name c (hname ▸ List.mem_cons_self))

theorem endsRun_text (d : DeclarationPhrase) (rest : List Char) :
    EndsRun isAsciiBlank (d.text ++ rest) := by
  rw [text, List.append_assoc]
  exact d.opening.endsRun_text solid_declarationWords _

theorem append_inj {d e : DeclarationPhrase} {r s : List Char} (hr : EndsRun isNameChar r)
    (hs : EndsRun isNameChar s) (h : d.text ++ r = e.text ++ s) : d = e ∧ r = s := by
  rw [text, text, List.append_assoc, List.append_assoc] at h
  obtain ⟨hopening, htail⟩ :=
    SpacedWord.append_inj prefixFree_declarationWords (d.endsRun_name r) (e.endsRun_name s) h
  obtain ⟨hname, hrest⟩ :=
    append_inj_of_endsRun d.isNameChar_name e.isNameChar_name hr hs htail
  refine ⟨?_, hrest⟩
  cases d
  cases e
  simp only at hopening hname
  subst hopening hname
  rfl

private theorem declarationAt_text_append (d : DeclarationPhrase) {rest : List Char}
    (hrest : EndsRun isNameChar rest) :
    declarationAt (d.text ++ rest) = some (d.name, d.text.length) := by
  have hopening : spacedWord declarationWords (d.opening.text ++ (d.name ++ rest)) =
      some d.opening.text.length :=
    d.opening.spacedWord_text_append prefixFree_declarationWords (d.endsRun_name rest)
  rw [text, List.append_assoc, declarationAt, hopening]
  simp only [List.drop_left, takeWhile_append_of_endsRun d.isNameChar_name hrest,
    List.isEmpty_iff, if_neg d.name_ne_nil, List.length_append]

theorem exists_of_declarationAt {tail name : List Char} {length : Nat}
    (h : declarationAt tail = some (name, length)) :
    ∃ (d : DeclarationPhrase) (rest : List Char), tail = d.text ++ rest ∧ d.name = name ∧
      d.text.length = length ∧ EndsRun isNameChar rest := by
  rw [declarationAt] at h
  split at h
  · cases h
  · next openingLength hopening =>
    obtain ⟨opening, behind, rfl, rfl, -⟩ := SpacedWord.exists_of_spacedWord hopening
    simp only [List.drop_left, List.isEmpty_iff, Option.ite_none_left_eq_some, Option.some.injEq,
      Prod.mk.injEq] at h
    obtain ⟨hname, rfl, rfl⟩ := h
    refine ⟨⟨opening, behind.takeWhile isNameChar, hname,
      fun c hc => List.mem_takeWhile_imp hc⟩, behind.dropWhile isNameChar, ?_, rfl,
      List.length_append, endsRun_dropWhile isNameChar behind⟩
    rw [text, List.append_assoc, List.takeWhile_append_dropWhile]

theorem not_default_prefix (d : DeclarationPhrase) (rest : List Char) :
    ¬"default".toList <+: d.text ++ rest := by
  intro h
  have hfree : PrefixFree ("default".toList :: declarationWords) := by decide
  have hword : d.opening.word <+: d.text ++ rest := by
    rw [text, SpacedWord.text, List.append_assoc, List.append_assoc]
    exact List.prefix_append _ _
  have heq := hfree.eq_of_prefix List.mem_cons_self
    (List.mem_cons_of_mem _ d.opening.word_mem) h hword
  have hmem : "default".toList ∈ declarationWords := heq ▸ d.opening.word_mem
  exact absurd hmem (by decide)

end DeclarationPhrase

namespace ExportPhrase

theorem text_append (p : ExportPhrase) (rest : List Char) :
    p.text ++ rest = p.opening.text ++ (p.between ++ (p.declaration.text ++ rest)) := by
  rw [text, List.append_assoc, List.append_assoc]

theorem length_parts (p : ExportPhrase) : p.text.length =
    p.opening.text.length + (p.between.length + p.declaration.text.length) := by
  rw [text, List.length_append, List.length_append]

theorem length_text (p : ExportPhrase) : p.text.length = p.nameOffset + p.name.length := by
  rw [length_parts, nameOffset, name, DeclarationPhrase.text, List.length_append]
  omega

theorem length_text_pos (p : ExportPhrase) : 0 < p.text.length := by
  have := List.length_pos_iff.2 p.declaration.name_ne_nil
  rw [length_text, name]
  omega

private theorem export_prefix_text (p : ExportPhrase) (rest : List Char) :
    "export".toList <+: p.text ++ rest := by
  rw [text_append]
  exact p.opening.prefix_text_append _

theorem endsRun_opening (p : ExportPhrase) (rest : List Char) :
    EndsRun isAsciiBlank (p.between ++ (p.declaration.text ++ rest)) := by
  rw [between]
  cases p.marker with
  | none => exact p.declaration.endsRun_text rest
  | some marker => exact marker.endsRun_text solid_default _

theorem Leads.unique {p q : ExportPhrase} {tail : List Char} (hp : p.Leads tail)
    (hq : q.Leads tail) : p = q := by
  obtain ⟨r, rfl, hr⟩ := hp
  obtain ⟨s, heq, hs⟩ := hq
  rw [text_append, text_append] at heq
  obtain ⟨hopening, htail⟩ :=
    SpacedWord.append_inj (by decide) (p.endsRun_opening r) (q.endsRun_opening s) heq
  obtain ⟨opening, marker, declaration⟩ := p
  obtain ⟨opening', marker', declaration'⟩ := q
  simp only at hopening
  subst hopening
  cases marker with
  | none =>
    cases marker' with
    | none =>
      obtain ⟨rfl, -⟩ := DeclarationPhrase.append_inj hr hs htail
      rfl
    | some marker' =>
      have hdefault := marker'.prefix_text_append (declaration'.text ++ s)
      exact absurd (htail ▸ hdefault) (declaration.not_default_prefix r)
  | some marker =>
    cases marker' with
    | none =>
      have hdefault := marker.prefix_text_append (declaration.text ++ r)
      exact absurd (htail ▸ hdefault) (declaration'.not_default_prefix s)
    | some marker' =>
      have hfree : PrefixFree ["default".toList] := by decide
      obtain ⟨rfl, hrest⟩ := SpacedWord.append_inj hfree (declaration.endsRun_text r)
        (declaration'.endsRun_text s) htail
      obtain ⟨rfl, -⟩ := DeclarationPhrase.append_inj hr hs hrest
      rfl

private theorem exportAt_of_leads {p : ExportPhrase} {tail : List Char} (h : p.Leads tail) :
    exportAt tail = some (p.name, p.text.length) := by
  obtain ⟨rest, rfl, hrest⟩ := h
  have hopening : spacedWord ["export".toList] (p.text ++ rest) = some p.opening.text.length := by
    rw [text_append]
    exact p.opening.spacedWord_text_append (by decide) (p.endsRun_opening rest)
  have hmarker : (spacedWord ["default".toList]
      (p.between ++ (p.declaration.text ++ rest))).getD 0 = p.between.length := by
    rw [between]
    cases p.marker with
    | none =>
      have hnone := SpacedWord.spacedWord_eq_none
        (List.forall_mem_singleton.2 (p.declaration.not_default_prefix rest))
      exact congrArg (Option.getD · 0) hnone
    | some marker =>
      have hsome := marker.spacedWord_text_append (by decide) (p.declaration.endsRun_text rest)
      exact congrArg (Option.getD · 0) hsome
  rw [exportAt, hopening]
  simp only [text_append, List.drop_left, hmarker, List.drop_length_add_append,
    p.declaration.declarationAt_text_append hrest, Option.map_some]
  rw [name, length_parts, Nat.add_assoc]

private theorem exists_of_exportAt {tail name : List Char} {length : Nat}
    (h : exportAt tail = some (name, length)) :
    ∃ p : ExportPhrase, p.Leads tail ∧ p.name = name ∧ p.text.length = length := by
  rw [exportAt] at h
  split at h
  · cases h
  · next openingLength hopening =>
    obtain ⟨opening, behind, rfl, rfl, -⟩ := SpacedWord.exists_of_spacedWord hopening
    simp only [List.drop_left, List.drop_length_add_append] at h
    obtain ⟨⟨found, declarationLength⟩, hfound, heq⟩ := Option.map_eq_some_iff.1 h
    obtain ⟨rfl, rfl⟩ := Prod.mk.inj heq
    cases hmarker : spacedWord ["default".toList] behind with
    | none =>
      rw [hmarker] at hfound
      obtain ⟨declaration, rest, hbehind, rfl, rfl, hrest⟩ :=
        DeclarationPhrase.exists_of_declarationAt hfound
      rw [Option.getD_none, List.drop_zero] at hbehind
      refine ⟨⟨opening, none, declaration⟩, ⟨rest, ?_, hrest⟩, rfl, ?_⟩
      · rw [text_append, hbehind]
        rfl
      · rw [length_parts]
        exact (Nat.add_assoc _ _ _).symm
    | some markerLength =>
      rw [hmarker] at hfound
      obtain ⟨marker, beyond, rfl, rfl, -⟩ := SpacedWord.exists_of_spacedWord hmarker
      obtain ⟨declaration, rest, hbeyond, rfl, rfl, hrest⟩ :=
        DeclarationPhrase.exists_of_declarationAt hfound
      rw [Option.getD_some, List.drop_left] at hbeyond
      refine ⟨⟨opening, some marker, declaration⟩, ⟨rest, ?_, hrest⟩, rfl, ?_⟩
      · rw [text_append, hbeyond]
        rfl
      · rw [length_parts]
        exact (Nat.add_assoc _ _ _).symm

theorem exportAt_eq_some_iff {tail name : List Char} {length : Nat} :
    exportAt tail = some (name, length) ↔
      ∃ p : ExportPhrase, p.Leads tail ∧ p.name = name ∧ p.text.length = length := by
  constructor
  · exact exists_of_exportAt
  · rintro ⟨p, hp, rfl, rfl⟩
    exact exportAt_of_leads hp

private theorem Leads.nameOffset_le {p : ExportPhrase} {tail : List Char} (h : p.Leads tail)
    {k : Nat} (hpos : 0 < k) (hexport : "export".toList <+: tail.drop k) : p.nameOffset ≤ k := by
  obtain ⟨rest, rfl, -⟩ := h
  have hsolid := solid_export.isAsciiBlank_eq_false List.mem_cons_self
  rw [text_append] at hexport
  -- In the word `export` itself no second one begins: what is left of it is too short.
  have hopening : p.opening.text.length ≤ k := by
    by_contra hlt
    have hpre := p.opening.prefix_of_prefix_drop hsolid (Nat.lt_of_not_le hlt) hexport
    have hlength := hpre.length_le
    rw [List.mem_singleton.1 p.opening.word_mem, List.length_drop] at hlength
    have hword : "export".toList.length = 6 := rfl
    omega
  obtain ⟨k, rfl⟩ := Nat.exists_eq_add_of_le hopening
  rw [List.drop_length_add_append] at hexport
  have hbetween : p.between.length ≤ k := by
    rw [between] at hexport ⊢
    cases hmarker : p.marker with
    | none => exact Nat.zero_le k
    | some marker =>
      rw [hmarker] at hexport
      by_contra hlt
      exact marker.not_prefix_drop hsolid (by decide) (Nat.lt_of_not_le hlt) hexport
  obtain ⟨k, rfl⟩ := Nat.exists_eq_add_of_le hbetween
  rw [List.drop_length_add_append, DeclarationPhrase.text, List.append_assoc] at hexport
  have hdeclaration : p.declaration.opening.text.length ≤ k := by
    by_contra hlt
    exact p.declaration.opening.not_prefix_drop hsolid (by decide) (Nat.lt_of_not_le hlt) hexport
  rw [nameOffset]
  omega

end ExportPhrase

private theorem exportAt_proper : Matcher.Proper exportAt where
  nil := rfl
  pos := fun h => by
    obtain ⟨p, -, -, rfl⟩ := ExportPhrase.exportAt_eq_some_iff.1 h
    exact p.length_text_pos

/-- A phrase of a content with the place where it begins. -/
structure ExportOccurrence (content : List Char) where
  start : Nat
  phrase : ExportPhrase
  occurs : phrase.OccursAt content start

namespace ExportOccurrence

variable {content : List Char}

def name (o : ExportOccurrence content) : String := String.ofList o.phrase.name

def nameStart (o : ExportOccurrence content) : Nat := o.start + o.phrase.nameOffset

def stop (o : ExportOccurrence content) : Nat := o.start + o.phrase.text.length

def span (o : ExportOccurrence content) : Span (List Char) :=
  ⟨o.start, o.phrase.name, o.phrase.text.length⟩

theorem exportAt_eq_some_iff (s : Span (List Char)) :
    exportAt (content.drop s.start) = some (s.value, s.length) ↔
      ∃ o : ExportOccurrence content, o.span = s := by
  rw [ExportPhrase.exportAt_eq_some_iff]
  constructor
  · rintro ⟨p, hp, hname, hlength⟩
    exact ⟨⟨s.start, p, hp⟩, by rw [span, hname, hlength]⟩
  · rintro ⟨o, rfl⟩
    exact ⟨o.phrase, o.occurs, rfl, rfl⟩

theorem eq_of_start_eq {o q : ExportOccurrence content} (h : o.start = q.start) : o = q := by
  obtain ⟨start, phrase, occurs⟩ := o
  obtain ⟨start', phrase', occurs'⟩ := q
  simp only at h
  subst h
  obtain rfl := occurs.unique occurs'
  rfl

private theorem nameStart_le {o q : ExportOccurrence content} (hlt : o.start < q.start) :
    o.nameStart ≤ q.start := by
  obtain ⟨rest, hrest, -⟩ := q.occurs
  have hexport := q.phrase.export_prefix_text rest
  rw [← hrest, ← Nat.add_sub_cancel' (Nat.le_of_lt hlt), ← List.drop_drop] at hexport
  have := o.occurs.nameOffset_le (Nat.sub_pos_of_lt hlt) hexport
  rw [nameStart]
  omega

private theorem begins_in_name {selected : List (ExportOccurrence content)}
    (h : ScannedFrom span 0 selected) {q : ExportOccurrence content} (hq : q ∉ selected) :
    ∃ before o after, selected = before ++ o :: after ∧
      o.nameStart ≤ q.start ∧ q.start < o.stop ∧ ∀ later ∈ after, q.start < later.start := by
  have hselects := Matcher.selects_of_scannedFrom exportAt_eq_some_iff h
  have hfound : exportAt (content.drop q.start) = some (q.phrase.name, q.phrase.text.length) :=
    (exportAt_eq_some_iff q.span).2 ⟨q, rfl⟩
  obtain ⟨s, hs, hle, hlt⟩ :=
    hselects.covers q.start (Nat.zero_le _) (hfound ▸ Option.some_ne_none _)
  obtain ⟨o, ho, rfl⟩ := List.mem_map.1 hs
  have hstart : o.start ≠ q.start := fun heq => hq (eq_of_start_eq heq ▸ ho)
  obtain ⟨before, after, rfl⟩ := List.append_of_mem ho
  have hdisjoint := List.pairwise_append.1 (List.pairwise_map.1 hselects.disjoint)
  have hafter := (List.pairwise_cons.1 hdisjoint.2.1).1
  exact ⟨before, o, after, rfl, nameStart_le (Nat.lt_of_le_of_ne hle hstart), hlt,
    fun later hlater => Nat.lt_of_lt_of_le hlt (hafter later hlater)⟩

end ExportOccurrence

private theorem exports_eq_iff (content : String) (names : List String) :
    (ofContent content).exports = names ↔
      ∃ selected : List (ExportOccurrence content.toList),
        ScannedFrom ExportOccurrence.span 0 selected ∧
          names = selected.map ExportOccurrence.name := by
  have hscan := Matcher.scan_eq_iff_scanned exportAt_proper
    (ExportOccurrence.exportAt_eq_some_iff : ∀ s : Span (List Char),
      exportAt (content.toList.drop s.start) = some (s.value, s.length) ↔ _)
  change (scan exportAt content.toList).map String.ofList = names ↔ _
  constructor
  · rintro rfl
    obtain ⟨selected, hselected, heq⟩ := (hscan _).1 rfl
    refine ⟨selected, hselected, ?_⟩
    rw [heq, List.map_map]
    rfl
  · rintro ⟨selected, hselected, rfl⟩
    rw [(hscan _).2 ⟨selected, hselected, rfl⟩, List.map_map]
    rfl

/-- The exports of a file are the names of the phrases that a scan from the left selects. At one
place there is one phrase at most, and a phrase that is not selected begins in the name of the last
one selected before it. -/
theorem exports_of_content (content : String) :
    (∀ names : List String, (ofContent content).exports = names ↔
      ∃ selected : List (ExportOccurrence content.toList),
        ScannedFrom ExportOccurrence.span 0 selected ∧
          names = selected.map ExportOccurrence.name) ∧
    (∀ o q : ExportOccurrence content.toList, o.start = q.start → o = q) ∧
    (∀ selected : List (ExportOccurrence content.toList),
      ScannedFrom ExportOccurrence.span 0 selected →
        ∀ q : ExportOccurrence content.toList, q ∉ selected →
          ∃ before o after, selected = before ++ o :: after ∧
            o.nameStart ≤ q.start ∧ q.start < o.stop ∧ ∀ later ∈ after, q.start < later.start) :=
  ⟨exports_eq_iff content, fun _ _ => ExportOccurrence.eq_of_start_eq,
    fun _ hselected _ hq => ExportOccurrence.begins_in_name hselected hq⟩

example : (ofContent "export let myexport let x").exports = ["myexport"] := by decide +kernel

end CodeAtlas.Linkage
