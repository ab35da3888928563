import MultiView.Manifold.Sphere
import MultiView.Proofs.Scalar.Embedding

/-!
# Steps in larger arithmetic

An embedding of scalars commutes with `Sphere.plus`, if every length that the step divides by is regular on the way:
that of the point, that of the axis less its part along the point, the angle of a step that is not short, and the
length of where the step leads before it returns to the sphere (`Scalar.Embeds.plus`).
-/

namespace MultiView.Scalar.Embeds

variable {α β : Type} [Scalar α] [Scalar β] {φ : α → β} {regular : α → Prop} (h : Embeds φ regular)

include h

theorem flattestAxis (x : Vec3 α) : Sphere.flattestAxis (x.map φ) = (Sphere.flattestAxis x).map φ := by
  have hx : (Vec3.xAxis : Vec3 β) = Vec3.xAxis.map φ := Vec3.ext h.one h.zero h.zero
  have hy : (Vec3.yAxis : Vec3 β) = Vec3.yAxis.map φ := Vec3.ext h.zero h.one h.zero
  have hz : (Vec3.zAxis : Vec3 β) = Vec3.zAxis.map φ := Vec3.ext h.zero h.zero h.one
  have hparts : (x.map φ).x = φ x.x ∧ (x.map φ).y = φ x.y ∧ (x.map φ).z = φ x.z := ⟨rfl, rfl, rfl⟩
  simp only [Sphere.flattestAxis, hparts, h.abs, h.le, hx, hy, hz, apply_ite (Vec3.map φ)]

/-- The axis is scaled to unit length, less its part along the point. -/
theorem tangentBasis {x : Vec3 α}
    (hx : (Sphere.flattestAxis x - x.scale (x.dot (Sphere.flattestAxis x))).Directed regular) :
    Sphere.tangentBasis (x.map φ) = ((Sphere.tangentBasis x).1.map φ, (Sphere.tangentBasis x).2.map φ) := by
  simp only [Sphere.tangentBasis, h.flattestAxis, h.dot, h.scale, h.vec3_sub, h.normalize hx, h.cross]

/-- Only an angle that is not small is divided by. -/
theorem cosSinc {theta2 : α} (hsix : regular (Scalar.ofNat 6))
    (hangle : ¬theta2 < Sphere.smallAngle * Sphere.smallAngle → regular theta2 ∧ regular (Scalar.sqrt theta2)) :
    Sphere.cosSinc (φ theta2) = (φ (Sphere.cosSinc theta2).1, φ (Sphere.cosSinc theta2).2) := by
  have hsmall : (Sphere.smallAngle : β) = φ Sphere.smallAngle := h.decimal 1 8
  rw [Sphere.cosSinc, Sphere.cosSinc, hsmall, h.mul]
  simp only [h.lt]
  split
  · rw [h.one, h.half, h.ofNat, h.div _ hsix, h.mul, h.mul, h.sub, h.sub]
  · next hlarge =>
    obtain ⟨htheta2, htheta⟩ := hangle hlarge
    simp only [h.sqrt htheta2, h.cos, h.sin, h.div _ htheta]

/-- A step, given what it comes to in the smaller arithmetic. -/
theorem plus {x u b1 b2 v : Vec3 α} {d : Vec2 α} {c s : α} (hx : x.Directed regular) (hu : x.normalize = u)
    (haxis : (Sphere.flattestAxis u - u.scale (u.dot (Sphere.flattestAxis u))).Directed regular)
    (hb : Sphere.tangentBasis u = (b1, b2)) (hv : b1.scale d.x + b2.scale d.y = v)
    (hsix : regular (Scalar.ofNat 6))
    (hangle : ¬v.normSq < Sphere.smallAngle * Sphere.smallAngle → regular v.normSq ∧ regular (Scalar.sqrt v.normSq))
    (hcs : Sphere.cosSinc v.normSq = (c, s)) (hsum : (u.scale c + v.scale s).Directed regular) :
    Sphere.plus (x.map φ) (d.map φ) = (Sphere.plus x d).map φ := by
  have hbasis := h.tangentBasis haxis
  have hcosSinc := h.cosSinc hsix hangle
  rw [hb] at hbasis
  rw [hcs] at hcosSinc
  have hd : (d.map φ).x = φ d.x ∧ (d.map φ).y = φ d.y := ⟨rfl, rfl⟩
  simp only [Sphere.plus, h.normalize hx, hu, hbasis, hb, hd, h.scale, h.vec3_add, hv, h.normSq, hcosSinc, hcs,
    h.normalize hsum]

end MultiView.Scalar.Embeds
