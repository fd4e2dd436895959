import Mathlib
import CodeAtlas.Proofs.Diagram.Scene
import CodeAtlas.Proofs.Scalar

/-! How large units are drawn. A unit without complexity is drawn like the least complex ones, so a
more complex unit of the same role is never drawn smaller; and every shape has its bounds. -/
namespace CodeAtlas

namespace Shape

/-- The same outline, no wider and no higher. -/
instance : LE Shape where
  le s t := s.outline = t.outline ∧ s.width ≤ t.width ∧ s.height ≤ t.height

def least : Outline → Shape
  | .rect => ⟨.rect, 40, 30⟩
  | .diamond => ⟨.diamond, 40, 40⟩
  | .cylinder => ⟨.cylinder, 30, 20⟩
  | .circle => ⟨.circle, 40, 40⟩

def greatest : Outline → Shape
  | .rect => ⟨.rect, 80, 60⟩
  | .diamond => ⟨.diamond, 80, 80⟩
  | .cylinder => ⟨.cylinder, 60, 40⟩
  | .circle => ⟨.circle, 80, 80⟩

theorem least_nonneg (o : Outline) : 0 ≤ (least o).width ∧ 0 ≤ (least o).height := by
  cases o <;> decide

theorem greatest_le (o : Outline) : (greatest o).width ≤ 80 ∧ (greatest o).height ≤ 80 := by
  cases o <;> decide

def InBounds (s : Shape) : Prop := least s.outline ≤ s ∧ s ≤ greatest s.outline

theorem within_mono (low high : Int) {m n : Int} (h : m ≤ n) :
    within low high m ≤ within low high n :=
  max_le_max_left low (min_le_min_left high h)

theorem le_within (low high n : Int) : low ≤ within low high n := le_max_left _ _

theorem within_le {low high : Int} (h : low ≤ high) (n : Int) : within low high n ≤ high :=
  max_le h (min_le_left _ _)

theorem within_of_le {low high n : Int} (h : n ≤ low) : within low high n = low :=
  max_eq_left ((min_le_right _ _).trans h)

private theorem ofUnit_mono (role : Role) {m n : Int} (h : m ≤ n) :
    ofUnit role m ≤ ofUnit role n := by
  cases role with
  | page => exact ⟨rfl, within_mono _ _ (by omega), within_mono _ _ (by omega)⟩
  | database => exact ⟨rfl, within_mono _ _ (by omega), within_mono _ _ (by omega)⟩
  | _ =>
    have hsize := within_mono 20 40 h
    refine ⟨rfl, ?_, ?_⟩ <;> dsimp only [ofUnit] <;> omega

private theorem ofUnit_of_le (role : Role) {n : Int} (h : n ≤ fallbackComplexity) :
    ofUnit role n = ofUnit role fallbackComplexity := by
  have hn : n ≤ 10 := h
  cases role with
  | page =>
    simp only [ofUnit, within_of_le (show n * 4 ≤ 40 by omega),
      within_of_le (show n * 3 ≤ 30 by omega)]
    rfl
  | database =>
    simp only [ofUnit, within_of_le (show n * 3 ≤ 30 by omega),
      within_of_le (show n * 2 ≤ 20 by omega)]
    rfl
  | _ =>
    simp only [ofUnit, within_of_le (show n ≤ 20 by omega)]
    rfl

def drawn (role : Role) (complexity : Int) : Shape :=
  ofUnit role (if complexity = 0 then fallbackComplexity else complexity)

theorem drawn_eq (role : Role) (n : Int) :
    drawn role n = ofUnit role (max fallbackComplexity n) := by
  rw [drawn]
  by_cases h : n ≤ fallbackComplexity
  · rw [max_eq_left h]
    split
    · rfl
    · exact ofUnit_of_le role h
  · have hzero : n ≠ 0 := fun hzero => h (hzero ▸ by decide)
    rw [max_eq_right (not_le.1 h).le, if_neg hzero]

theorem drawn_mono (role : Role) {m n : Int} (h : m ≤ n) : drawn role m ≤ drawn role n := by
  rw [drawn_eq, drawn_eq]
  exact ofUnit_mono role (max_le_max_left _ h)

private theorem inBounds_ofUnit (role : Role) (n : Int) : (ofUnit role n).InBounds := by
  have hleast := le_within 20 40 n
  have hgreatest : within 20 40 n ≤ 40 := within_le (by decide) n
  cases role with
  | page =>
    exact ⟨⟨rfl, le_within _ _ _, le_within _ _ _⟩, rfl, within_le (by decide) _,
      within_le (by decide) _⟩
  | database =>
    exact ⟨⟨rfl, le_within _ _ _, le_within _ _ _⟩, rfl, within_le (by decide) _,
      within_le (by decide) _⟩
  | _ =>
    refine ⟨⟨rfl, ?_, ?_⟩, rfl, ?_, ?_⟩ <;> dsimp only [ofUnit, least, greatest] <;> omega

end Shape

/-- The whole numbers up to eighty, among them all sizes of nodes, keep their order. -/
class OrdersSizes (α : Type) [Scalar α] : Prop where
  atMost_ofRatio {m n : Int} :
    0 ≤ m → m ≤ n → n ≤ 80 → Scalar.atMost (Scalar.ofRatio m 1 : α) (Scalar.ofRatio n 1) = true

instance {K : Type} [ExactScalar K] : OrdersSizes K where
  atMost_ofRatio _ hmn _ := by
    rw [Scalar.atMost_iff, Scalar.ofRatio_eq, Scalar.ofRatio_eq]
    gcongr

private theorem atMost_float : ∀ n ≤ 80, ∀ m ≤ n,
    Scalar.atMost (Scalar.ofNat m : Float) (Scalar.ofNat n) = true := by decide +kernel

instance : OrdersSizes Float where
  atMost_ofRatio {m n} hm hmn hn := by
    obtain ⟨m, rfl⟩ := Int.eq_ofNat_of_zero_le hm
    obtain ⟨n, rfl⟩ := Int.eq_ofNat_of_zero_le (hm.trans hmn)
    exact atMost_float n (by omega) m (by omega)

variable {α γ : Type} [Scalar α]

/-- Drawn with the same shape, no wider and no higher. -/
structure SceneNode.FitsIn (a b : SceneNode α) : Prop where
  shape : a.shape = b.shape
  width : Scalar.atMost a.width b.width = true
  height : Scalar.atMost a.height b.height = true

/-- Drawn with an outline, in a size between those of its smallest and its largest shape. -/
structure SceneNode.Bounded (a : SceneNode α) (o : Outline) : Prop where
  shape : a.shape = o.name
  width : Scalar.atMost (Scalar.ofRatio (Shape.least o).width 1) a.width = true ∧
    Scalar.atMost a.width (Scalar.ofRatio (Shape.greatest o).width 1) = true
  height : Scalar.atMost (Scalar.ofRatio (Shape.least o).height 1) a.height = true ∧
    Scalar.atMost a.height (Scalar.ofRatio (Shape.greatest o).height 1) = true

structure SceneNode.Shows (a : SceneNode α) (s : Shape) : Prop where
  shape : a.shape = s.outline.name
  width : a.width = Scalar.ofRatio s.width 1
  height : a.height = Scalar.ofRatio s.height 1

section Sizes

variable [OrdersSizes α] {a b : SceneNode α} {s t : Shape}

private theorem SceneNode.Shows.fitsIn (ha : a.Shows s) (hb : b.Shows t) (hs : s.InBounds)
    (ht : t.InBounds) (hle : s ≤ t) : a.FitsIn b where
  shape := by rw [ha.shape, hb.shape, hle.1]
  width := by
    rw [ha.width, hb.width]
    exact OrdersSizes.atMost_ofRatio ((Shape.least_nonneg _).1.trans hs.1.2.1) hle.2.1
      (ht.2.2.1.trans (Shape.greatest_le _).1)
  height := by
    rw [ha.height, hb.height]
    exact OrdersSizes.atMost_ofRatio ((Shape.least_nonneg _).2.trans hs.1.2.2) hle.2.2
      (ht.2.2.2.trans (Shape.greatest_le _).2)

theorem SceneNode.Shows.bounded (ha : a.Shows s) (hs : s.InBounds) : a.Bounded s.outline := by
  obtain ⟨⟨-, hwidth, hheight⟩, -, hwidth', hheight'⟩ := hs
  have hleast := Shape.least_nonneg s.outline
  have hgreatest := Shape.greatest_le s.outline
  refine ⟨ha.shape, ?_, ?_⟩
  · rw [ha.width]
    exact ⟨OrdersSizes.atMost_ofRatio hleast.1 hwidth (hwidth'.trans hgreatest.1),
      OrdersSizes.atMost_ofRatio (hleast.1.trans hwidth) hwidth' hgreatest.1⟩
  · rw [ha.height]
    exact ⟨OrdersSizes.atMost_ofRatio hleast.2 hheight (hheight'.trans hgreatest.2),
      OrdersSizes.atMost_ofRatio (hleast.2.trans hheight) hheight' hgreatest.2⟩

end Sizes

namespace Diagram

variable {d e : Diagram α γ} {u v : SourceUnit} {a b : SceneNode α} {i j : Nat}

theorem shows_drawn (hu : d.source[i]? = some u) (ha : d.scene.nodes[i]? = some a) :
    a.Shows (Shape.drawn u.role u.complexity) := by
  obtain ⟨u', body, hu', -, rfl⟩ := List.getElem?_zipWith_eq_some.1 ha
  obtain rfl : u = u' := Option.some.inj (hu.symm.trans hu')
  exact ⟨rfl, rfl, rfl⟩

/-- In whatever scenes two units of one role are drawn, the less complex one is drawn with the shape
of the other, no wider and no higher, and both keep within the bounds of the shape. -/
theorem size_of_complexity [OrdersSizes α] (hu : d.source[i]? = some u)
    (ha : d.scene.nodes[i]? = some a) (hv : e.source[j]? = some v)
    (hb : e.scene.nodes[j]? = some b) (hrole : u.role = v.role) :
    (u.complexity ≤ v.complexity → a.FitsIn b) ∧ ∃ o, a.Bounded o ∧ b.Bounded o := by
  have hfirst := shows_drawn hu ha
  have hsecond := shows_drawn hv hb
  rw [← hrole] at hsecond
  have hbounds (n : Int) : (Shape.drawn u.role n).InBounds := by
    rw [Shape.drawn_eq]
    exact Shape.inBounds_ofUnit _ _
  have houtline : (Shape.drawn u.role u.complexity).outline =
      (Shape.drawn u.role v.complexity).outline := by
    rcases le_total u.complexity v.complexity with h | h
    · exact (Shape.drawn_mono u.role h).1
    · exact (Shape.drawn_mono u.role h).1.symm
  refine ⟨fun hle => hfirst.fitsIn hsecond (hbounds _) (hbounds _) (Shape.drawn_mono _ hle),
    _, hfirst.bounded (hbounds _), ?_⟩
  rw [houtline]
  exact hsecond.bounded (hbounds _)

def straightUnit : SourceUnit := { loneUnit with role := .page }

def branchingUnit : SourceUnit := { straightUnit with id := "src/app.ts", complexity := 15 }

def unequal : Diagram Float Twister :=
  created ({} : Settings).diagramOptions [branchingUnit, straightUnit] 800 600 .both
    (Twister.ofSeed 0)

theorem straight_fits_in_branching :
    ∃ a b, unequal.source[1]? = some straightUnit ∧ unequal.scene.nodes[1]? = some a ∧
      unequal.source[0]? = some branchingUnit ∧ unequal.scene.nodes[0]? = some b ∧
      straightUnit.role = branchingUnit.role ∧
      straightUnit.complexity ≤ branchingUnit.complexity ∧ a.FitsIn b := by
  have hcreate : create ({} : Settings).diagramOptions [branchingUnit, straightUnit] none none
      .both (Twister.ofSeed 0) = .ok unequal :=
    create_eq_ok_iff.2 ⟨⟨by decide +kernel, by decide +kernel⟩, rfl⟩
  have hu : unequal.source[1]? = some straightUnit := rfl
  have hv : unequal.source[0]? = some branchingUnit := rfl
  obtain ⟨_, -, ha⟩ := (fitted_create hcreate).exists_node hu
  obtain ⟨_, -, hb⟩ := (fitted_create hcreate).exists_node hv
  have hle : straightUnit.complexity ≤ branchingUnit.complexity := by decide
  exact ⟨_, _, hu, ha, hv, hb, rfl, hle, (size_of_complexity hu ha hv hb rfl).1 hle⟩

end Diagram

end CodeAtlas
