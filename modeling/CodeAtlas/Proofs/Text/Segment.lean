import CodeAtlas.Text.Segment
import Mathlib.Data.List.TakeWhile

/-! A run of characters and what ends it. -/
namespace CodeAtlas.Text

/-- A run of characters of a class ends in front of this text: it is empty or begins with another
character. -/
def EndsRun (f : Char → Bool) (rest : List Char) : Prop := ∀ c ∈ rest.head?, f c = false

theorem endsRun_dropWhile (f : Char → Bool) (l : List Char) : EndsRun f (l.dropWhile f) := by
  intro c hc
  have hhead := List.head?_dropWhile_not f l
  rw [Option.mem_def.1 hc] at hhead
  simpa using hhead

theorem takeWhile_append_of_endsRun {f : Char → Bool} {l r : List Char}
    (hl : ∀ a ∈ l, f a = true) (hr : EndsRun f r) : (l ++ r).takeWhile f = l := by
  rw [List.takeWhile_append_of_pos hl]
  cases r with
  | nil => exact List.append_nil l
  | cons c r => rw [List.takeWhile_cons_of_neg (by simp [hr c rfl]), List.append_nil]

theorem append_inj_of_endsRun {f : Char → Bool} {l l' r r' : List Char}
    (hl : ∀ a ∈ l, f a = true) (hl' : ∀ a ∈ l', f a = true) (hr : EndsRun f r)
    (hr' : EndsRun f r') (h : l ++ r = l' ++ r') : l = l' ∧ r = r' := by
  have hrun : l = l' := by
    rw [← takeWhile_append_of_endsRun hl hr, h, takeWhile_append_of_endsRun hl' hr']
  subst hrun
  exact ⟨rfl, List.append_cancel_left h⟩

theorem takeWhile_append_cons {f : Char → Bool} {l r : List Char} {c : Char}
    (hl : ∀ a ∈ l, f a = true) (hc : f c = false) : (l ++ c :: r).takeWhile f = l :=
  takeWhile_append_of_endsRun hl fun _ ha => Option.some.inj ha ▸ hc

theorem takeWhile_append_of_mem {f : Char → Bool} {l : List Char} {c : Char} (hc : c ∈ l)
    (hf : f c = false) (r : List Char) : (l ++ r).takeWhile f = l.takeWhile f := by
  rw [List.takeWhile_append, if_neg]
  intro hlength
  have hself := (List.takeWhile_prefix (p := f) (l := l)).eq_of_length hlength
  have := List.takeWhile_eq_self_iff.1 hself c hc
  rw [hf] at this
  cases this

theorem dropWhile_append_cons {f : Char → Bool} {l r : List Char} {c : Char}
    (hl : ∀ a ∈ l, f a = true) (hc : f c = false) : (l ++ c :: r).dropWhile f = c :: r := by
  rw [List.dropWhile_append_of_pos hl, List.dropWhile_cons_of_neg (by simp [hc])]

theorem prefix_of_prefix_append_cons {sep : Char} {w l r : List Char} (hsep : sep ∉ w)
    (h : w <+: l ++ sep :: r) : w <+: l := by
  have hupTo : l ++ [sep] <+: l ++ sep :: r := ⟨r, by simp⟩
  rcases List.prefix_or_prefix_of_prefix h hupTo with hpre | hpre
  · rcases List.prefix_concat_iff.1 hpre with rfl | hpre
    · exact absurd (List.mem_append_right l List.mem_cons_self) hsep
    · exact hpre
  · exact absurd (hpre.subset (List.mem_append_right l List.mem_cons_self)) hsep

theorem drop_length_takeWhile (f : Char → Bool) (l : List Char) :
    l.drop (l.takeWhile f).length = l.dropWhile f := by
  conv => lhs; arg 2; rw [← List.takeWhile_append_dropWhile (p := f) (l := l)]
  exact List.drop_left

theorem takeWhile_ne_append_cons {sep : Char} {l r : List Char} (h : sep ∉ l) :
    (l ++ sep :: r).takeWhile (· != sep) = l :=
  takeWhile_append_cons (fun _ ha => bne_iff_ne.2 fun heq => h (heq ▸ ha)) (bne_self_eq_false sep)

theorem splitOn_append_cons {sep : Char} {cs : List Char} (h : sep ∉ cs) (rest : List Char) :
    splitOn sep (cs ++ sep :: rest) = cs :: splitOn sep rest := by
  induction cs with
  | nil => rw [List.nil_append, splitOn, if_pos rfl]
  | cons c cs ih =>
    rw [List.mem_cons, not_or] at h
    rw [List.cons_append, splitOn, if_neg (Ne.symm h.1), ih h.2]

theorem splitOn_append (sep : Char) (cs rest : List Char) :
    splitOn sep (cs ++ sep :: rest) = splitOn sep cs ++ splitOn sep rest := by
  induction cs with
  | nil => simp only [List.nil_append, splitOn, if_true, List.singleton_append]
  | cons c cs ih =>
    rw [List.cons_append, splitOn, splitOn, ih]
    split
    · rfl
    · obtain ⟨piece, pieces, hpieces⟩ := List.exists_cons_of_ne_nil (splitOn_ne_nil sep cs)
      rw [hpieces]
      rfl

theorem joinWith_concat {sep : Char} {pieces : List (List Char)} {piece : List Char}
    (h : pieces ≠ []) :
    joinWith sep (pieces ++ [piece]) = joinWith sep pieces ++ sep :: piece := by
  induction pieces with
  | nil => exact absurd rfl h
  | cons first rest ih =>
    cases rest with
    | nil => rfl
    | cons next rest =>
      rw [List.cons_append, List.cons_append, joinWith, ← List.cons_append,
        ih (List.cons_ne_nil _ _), joinWith, List.append_assoc, List.cons_append]

theorem not_mem_of_mem_splitOn {sep : Char} {cs piece : List Char} (h : piece ∈ splitOn sep cs) :
    sep ∉ piece := by
  induction cs generalizing piece with
  | nil =>
    rw [splitOn, List.mem_singleton] at h
    rw [h]
    exact List.not_mem_nil
  | cons c cs ih =>
    rw [splitOn] at h
    split at h
    · rcases List.mem_cons.1 h with rfl | h
      · exact List.not_mem_nil
      · exact ih h
    · next hc =>
      obtain ⟨first, pieces, hpieces⟩ := List.exists_cons_of_ne_nil (splitOn_ne_nil sep cs)
      rw [hpieces] at h ih
      rcases List.mem_cons.1 h with rfl | h
      · rw [List.mem_cons, not_or]
        exact ⟨Ne.symm hc, ih List.mem_cons_self⟩
      · exact ih (List.mem_cons_of_mem _ h)

end CodeAtlas.Text
