import Mathlib
import CodeAtlas.Proofs.Diagram.View
import CodeAtlas.Proofs.Scalar

/-! The view in exact arithmetic. Its scale never leaves its bounds, a zoom holds the layout point
under its screen point fixed, and zooms about one point compose as long as no bound is met. -/
namespace CodeAtlas

variable {K : Type} [ExactScalar K]

namespace Viewport

variable {v : Viewport K} {f g : K}

private theorem minScale_eq : (minScale : K) = 1 / 10 := by
  rw [minScale, Scalar.ofRatio_eq]
  norm_num

private theorem maxScale_eq : (maxScale : K) = 4 := Scalar.ofNat_eq 4

def InBounds (v : Viewport K) : Prop := 1 / 10 ≤ v.k ∧ v.k ≤ 4

/-- No bound changes the scale that a zoom by `f` asks for. -/
def Admits (v : Viewport K) (f : K) : Prop := 1 / 10 ≤ v.k * f ∧ v.k * f ≤ 4

theorem InBounds.k_pos (h : v.InBounds) : 0 < v.k := lt_of_lt_of_le (by norm_num) h.1

theorem InBounds.admits_one (h : v.InBounds) : v.Admits 1 := by
  rwa [Admits, mul_one]

theorem inBounds_initial : (initial : Viewport K).InBounds := by
  constructor <;> norm_num [initial]

theorem k_zoom (v : Viewport K) (f cx cy : K) :
    (v.zoom f cx cy).k = max (1 / 10) (min 4 (v.k * f)) := by
  rw [← minScale_eq, ← maxScale_eq, ← Scalar.clamp_eq]
  rfl

theorem inBounds_zoom (v : Viewport K) (f cx cy : K) : (v.zoom f cx cy).InBounds := by
  rw [InBounds, k_zoom]
  exact ⟨le_max_left _ _, max_le (by norm_num) (min_le_left _ _)⟩

theorem k_zoom_of_admits (h : v.Admits f) (cx cy : K) : (v.zoom f cx cy).k = v.k * f := by
  rw [k_zoom, min_eq_right h.2, max_eq_right h.1]

theorem zoom_eq (v : Viewport K) (f cx cy : K) :
    let k := (v.zoom f cx cy).k
    v.zoom f cx cy = ⟨cx - (v.toLayout cx cy).1 * k, cy - (v.toLayout cx cy).2 * k, k⟩ := rfl

private theorem toLayout_zoom (v : Viewport K) (f cx cy : K) :
    (v.zoom f cx cy).toLayout cx cy = v.toLayout cx cy := by
  have hk : (v.zoom f cx cy).k ≠ 0 := (inBounds_zoom v f cx cy).k_pos.ne'
  rw [toLayout]
  nth_rewrite 1 3 [zoom_eq]
  simp only [sub_sub_cancel, mul_div_cancel_right₀ _ hk]

private theorem toLayout_pan (v : Viewport K) (dx dy sx sy : K) :
    (v.pan dx dy).toLayout sx sy = v.toLayout sx sy + (-dx / v.k, -dy / v.k) := by
  simp only [toLayout, pan, Prod.mk_add_mk, Prod.mk.injEq]
  constructor <;> ring

theorem zoom_of_admits (hk : v.k ≠ 0) (h : v.Admits f) (cx cy : K) :
    v.zoom f cx cy = ⟨cx - (cx - v.x) * f, cy - (cy - v.y) * f, v.k * f⟩ := by
  have hstretch (a : K) : a / v.k * (v.k * f) = a * f := by
    rw [← mul_assoc, div_mul_cancel₀ a hk]
  rw [zoom_eq, k_zoom_of_admits h]
  simp only [toLayout, hstretch]

theorem zoom_zoom (hv : v.InBounds) (hf : v.Admits f) (hfg : v.Admits (f * g)) (cx cy : K) :
    (v.zoom f cx cy).zoom g cx cy = v.zoom (f * g) cx cy := by
  have hnext : (v.zoom f cx cy).Admits g := by
    rwa [Admits, k_zoom_of_admits hf, mul_assoc]
  rw [zoom_of_admits (inBounds_zoom v f cx cy).k_pos.ne' hnext, zoom_of_admits hv.k_pos.ne' hf,
    zoom_of_admits hv.k_pos.ne' hfg]
  simp only [sub_sub_cancel, mul_assoc]

private theorem zoom_one (hv : v.InBounds) (cx cy : K) : v.zoom 1 cx cy = v := by
  rw [zoom_of_admits hv.k_pos.ne' hv.admits_one]
  simp only [mul_one, sub_sub_cancel]

private theorem zoom_zoom_inv (hv : v.InBounds) (hf : v.Admits f) (cx cy : K) :
    (v.zoom f cx cy).zoom (1 / f) cx cy = v := by
  have hne : f ≠ 0 := by
    rintro rfl
    have : (1 / 10 : K) ≤ 0 := by simpa using hf.1
    norm_num at this
  have hone : f * (1 / f) = 1 := mul_one_div_cancel hne
  have hback : v.Admits (f * (1 / f)) := by
    rw [hone]
    exact hv.admits_one
  rw [zoom_zoom hv hf hback, hone, zoom_one hv]

end Viewport

private theorem Diagram.Operation.inBounds_viewed {v : Viewport K} (hv : v.InBounds)
    (physics : Layout.Physics K) (op : Operation K) : (op.viewed physics v).InBounds := by
  cases op with
  | zoom f cx cy => exact Viewport.inBounds_zoom v f _ _
  | pan dx dy => exact hv
  | resetView => exact Viewport.inBounds_initial
  | _ => exact hv

namespace Diagram

variable {γ : Type} [Generator γ] {d : Diagram K γ}

private theorem inBounds_run (hd : d.viewport.InBounds) (operations : List (Operation K)) :
    (d.run operations).viewport.InBounds := by
  induction operations generalizing d with
  | nil => exact hd
  | cons op rest ih =>
    refine ih ?_
    rw [viewport_apply]
    exact op.inBounds_viewed hd d.physics

/-- After all operations the scale lies between a tenth and four, so screen points stand for layout
points. From there a zoom by any factor leaves the layout point under its screen point where it is,
a pan shifts all layout points against its direction, two zooms about one screen point that meet no
bound are one zoom by the product, and a zoom that meets none is undone by one by the inverse. -/
theorem view_of_run {options : DiagramOptions K} {units : List SourceUnit}
    {width height : Option Int} {mode : ViewMode} {seed : γ}
    (hcreate : create options units width height mode seed = .ok d)
    (operations : List (Operation K)) :
    let now := d.run operations
    let k := now.viewport.k
    (1 / 10 ≤ k ∧ k ≤ 4 ∧ k ≠ 0) ∧
    (∀ (f : K) (cx cy : Option K),
      let sx := cx.getD now.physics.cx
      let sy := cy.getD now.physics.cy
      (now.zoom f cx cy).viewport.toLayout sx sy = now.viewport.toLayout sx sy) ∧
    (∀ dx dy sx sy : K, (now.pan dx dy).viewport.toLayout sx sy =
      now.viewport.toLayout sx sy + (-dx / k, -dy / k)) ∧
    (∀ (f g : K) (cx cy : Option K), now.viewport.Admits f → now.viewport.Admits (f * g) →
      (now.zoom f cx cy).zoom g cx cy = now.zoom (f * g) cx cy) ∧
    ∀ (f : K) (cx cy : Option K), now.viewport.Admits f →
      (now.zoom f cx cy).zoom (1 / f) cx cy = now := by
  intro now k
  have hinitial : d.viewport.InBounds := by
    obtain ⟨-, rfl⟩ := create_eq_ok_iff.1 hcreate
    exact Viewport.inBounds_initial
  have hnow : now.viewport.InBounds := inBounds_run hinitial operations
  refine ⟨⟨hnow.1, hnow.2, hnow.k_pos.ne'⟩, fun f cx cy => ?_, fun dx dy sx sy => ?_,
    fun f g cx cy hf hfg => ?_, fun f cx cy hf => ?_⟩
  · exact Viewport.toLayout_zoom now.viewport f _ _
  · exact Viewport.toLayout_pan now.viewport dx dy sx sy
  · exact congrArg now.withViewport (Viewport.zoom_zoom hnow hf hfg _ _)
  · exact congrArg now.withViewport (Viewport.zoom_zoom_inv hnow hf _ _)

section Fractions

attribute [local instance] ExactScalar.plain

def measured : DiagramOptions Rat := ⟨800, 600, 120, -400, 30, 1000⟩

def fractional : Diagram Rat Twister :=
  created measured [loneUnit] 800 600 .both (Twister.ofSeed 0)

/-- The view meets both bounds. -/
def zooming : List (Operation Rat) :=
  [.zoom 100 none none, .pan 5 (-7), .zoom (-3) (some 1) none, .step 1, .zoom 5 none (some 0)]

theorem fractional_zoomed_back :
    let now := fractional.run zooming
    create measured [loneUnit] none none .both (Twister.ofSeed 0) = .ok fractional ∧
    now.viewport.k = 1 / 2 ∧ now.viewport.Admits 3 ∧ now.viewport.Admits (3 * 2) ∧
    (now.zoom 3 (some 7) none).zoom 2 (some 7) none = now.zoom (3 * 2) (some 7) none ∧
    (now.zoom 3 none none).zoom (1 / 3) none none = now := by
  intro now
  have hcreate : create measured [loneUnit] none none .both (Twister.ofSeed 0) = .ok fractional :=
    create_eq_ok_iff.2 ⟨⟨rfl, rfl⟩, rfl⟩
  have hthree : now.viewport.Admits 3 := ⟨by decide +kernel, by decide +kernel⟩
  have hsix : now.viewport.Admits (3 * 2) := ⟨by decide +kernel, by decide +kernel⟩
  obtain ⟨-, -, -, htwice, hback⟩ := view_of_run hcreate zooming
  exact ⟨hcreate, by decide +kernel, hthree, hsix, htwice 3 2 _ _ hthree hsix,
    hback 3 none none hthree⟩

end Fractions

end Diagram

end CodeAtlas
