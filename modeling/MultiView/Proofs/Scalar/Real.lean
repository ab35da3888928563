import Mathlib.Analysis.SpecialFunctions.Complex.Arg
import MultiView.Geometry.Pose
import MultiView.Proofs.Block

/-!
# Exact arithmetic

The real numbers as scalars. All of them are finite, and a quaternion of norm one is the unit quaternion of its own
direction (`Quat.normalize_of_norm`).
-/

namespace MultiView

/-- Exact arithmetic. -/
noncomputable instance : Scalar ℝ where
  beq x y := decide (x = y)
  decimal m places := m / 10 ^ places
  sqrt := Real.sqrt
  sin := Real.sin
  cos := Real.cos
  atan2 y x := Complex.arg ⟨x, y⟩
  pi := Real.pi
  isFinite _ := true
  decLt := Classical.decRel _
  decLe := Classical.decRel _

instance Scalar.lawfulBEq_real : @LawfulBEq ℝ Scalar.toBEq where
  eq_of_beq := of_decide_eq_true
  rfl := decide_eq_true rfl

theorem Scalar.ofNat_eq (n : ℕ) : (Scalar.ofNat n : ℝ) = n := by
  simp [Scalar.ofNat, Scalar.decimal]

theorem Scalar.two_eq : (Scalar.two : ℝ) = 2 := one_add_one_eq_two

theorem Scalar.half_eq : (Scalar.half : ℝ) = 1 / 2 := by
  norm_num [Scalar.half, Scalar.decimal]

section Components

variable {α : Type} [Scalar α] (a b : Vec3 α)

@[simp] theorem Vec3.add_x : (a + b).x = a.x + b.x := rfl

@[simp] theorem Vec3.add_y : (a + b).y = a.y + b.y := rfl

@[simp] theorem Vec3.add_z : (a + b).z = a.z + b.z := rfl

end Components

/-- The identity moves nothing. -/
theorem Pose.one_apply (v : Vec3 ℝ) : Pose.one.apply v = v := by
  ext <;> simp [Pose.one, apply, Quat.one, Quat.rotate, Quat.im, Vec3.cross, Vec3.scale, Vec3.zero]

/-- A unit quaternion is its own direction. -/
theorem Quat.normalize_of_norm {q : Quat ℝ} (h : q.norm = 1) : q.normalize = q := by
  have hdiv : ∀ x : ℝ, x / q.norm = x := fun x => by rw [h]; exact div_one x
  exact Quat.ext (hdiv q.x) (hdiv q.y) (hdiv q.z) (hdiv q.w)

theorem Quat.isDirection_of_norm {q : Quat ℝ} (h : q.norm = 1) : q.IsDirection :=
  ⟨h ▸ one_pos, fun _ _ => rfl⟩

theorem Quat.norm_one : (one : Quat ℝ).norm = 1 := by
  have hnormSq : (one : Quat ℝ).normSq = 1 := by
    simp only [normSq, one]
    norm_num
  rw [norm, hnormSq]
  exact Real.sqrt_one

end MultiView
