import Mathlib
import MultiView.Proofs.Problem.Cost
import MultiView.Proofs.Reconstruction.Refinements
import MultiView.Proofs.Rig.Flatten
import MultiView.Proofs.Synthetic.Noise

/-!
# Ground truth

A dataset whose observations were made by its own cameras, from its own poses, of its own points is valid, whatever
noise was added. In exact arithmetic its formulations measure the noise: the residual of an observation is minus the
noise of its image and its point, so the cost is bounded, and zero without noise (`formulate_groundTruth`).
-/

namespace MultiView

/-! ## Residuals of noise -/

namespace PixelNoise

/-- Minus the noise of a key (image and point). -/
def miss {α : Type} [Scalar α] (noise : PixelNoise α) (key : Nat × Nat) : List α :=
  [-(noise.sample key.1 key.2).x, -(noise.sample key.1 key.2).y]

variable (noise : PixelNoise ℝ) (key : Nat × Nat)

theorem abs_le_of_mem_miss {x : ℝ} (hx : x ∈ noise.miss key) : |x| ≤ |noise.maxAbs| := by
  obtain ⟨hsx, hsy⟩ := noise.abs_sample_le key.1 key.2
  rcases List.mem_pair.1 hx with rfl | rfl
  · rwa [abs_neg]
  · rwa [abs_neg]

theorem normSq_miss_le : normSq (noise.miss key) ≤ 2 * noise.maxAbs ^ 2 := by
  have hsum : normSq (noise.miss key) = (noise.sample key.1 key.2).x ^ 2 + (noise.sample key.1 key.2).y ^ 2 := by
    rw [normSq, Scalar.sum_eq, miss]
    simp [sq]
  obtain ⟨hx, hy⟩ := noise.abs_sample_le key.1 key.2
  have hx' := sq_le_sq.2 hx
  have hy' := sq_le_sq.2 hy
  linarith

end PixelNoise

/-! ## What cameras see -/

namespace Scene

section Capture

variable {α : Type} [Scalar α]

/-- The observations of points by a camera at a pose, with the noise of an image if there is noise. -/
def capture? (camera : Camera α) (pose : Pose α) (points : List (Vec3 α)) (noise : Option (PixelNoise α))
    (image : Nat) : Option (List (Observation α)) :=
  (projectPoints? camera.model camera.params pose points).map fun seen =>
    match noise with
    | some noise => addNoise noise image seen
    | none => seen

/-- Points that are not in front of the camera are left out, and the others keep their indices. -/
theorem mem_projectPoints {project : Vec2 α → Vec2 α} {pose : Pose α} {points : List (Vec3 α)} {o : Observation α} :
    o ∈ projectPoints project pose points ↔
      ∃ p, points[o.point]? = some p ∧ ¬(pose.apply p).z ≤ 0 ∧ o.uv = project (pose.apply p).perspective := by
  obtain ⟨i, uv⟩ := o
  rw [projectPoints, List.mem_filterMap]
  constructor
  · rintro ⟨⟨p, j⟩, hp, ho⟩
    rw [List.mk_mem_zipIdx_iff_getElem?] at hp
    simp only [observe] at ho
    split at ho
    · cases ho
    · next hz =>
      obtain ⟨rfl, rfl⟩ : j = i ∧ _ = uv := by simpa using ho
      exact ⟨p, hp, hz, rfl⟩
  · rintro ⟨p, hp, hz, huv⟩
    obtain rfl : uv = project (pose.apply p).perspective := huv
    exact ⟨(p, i), List.mk_mem_zipIdx_iff_getElem?.2 hp, if_neg hz⟩

theorem projectPoints_of_projectPoints? {model : CameraModel} {params : List α} {pose : Pose α}
    {points : List (Vec3 α)} {seen : List (Observation α)} (h : projectPoints? model params pose points = some seen) :
    projectPoints (model.lens params).project pose points = seen := by
  simp only [projectPoints?] at h
  split at h
  · exact Option.some.inj h
  · cases h

end Capture

/-- No noise is the noise of zero pixels. -/
def noiseOf (noise : Option (PixelNoise ℝ)) : PixelNoise ℝ := noise.getD ⟨0, 0⟩

variable {camera : Camera ℝ} {pose : Pose ℝ} {points : List (Vec3 ℝ)} {noise : Option (PixelNoise ℝ)} {image : Nat}
  {os : List (Observation ℝ)}

/-- Where a point is seen. -/
theorem uv_of_capture (h : capture? camera pose points noise image = some os) {o : Observation ℝ} (ho : o ∈ os) :
    ∃ p, points[o.point]? = some p ∧
      o.uv = camera.project (pose.apply p).perspective + (noiseOf noise).sample image o.point := by
  obtain ⟨seen, hseen, hos⟩ := Option.map_eq_some_iff.1 h
  obtain rfl := projectPoints_of_projectPoints? hseen
  cases noise with
  | none =>
    obtain ⟨p, hp, -, huv⟩ := mem_projectPoints.1 (hos ▸ ho)
    refine ⟨p, hp, ?_⟩
    rw [noiseOf, PixelNoise.sample_of_maxAbs_eq_zero rfl, huv]
    ext <;> simp [Camera.project]
  | some noise =>
    obtain ⟨o', ho', rfl⟩ := List.mem_map.1 (hos ▸ ho)
    obtain ⟨p, hp, -, huv⟩ := mem_projectPoints.1 ho'
    refine ⟨p, hp, ?_⟩
    rw [huv]
    rfl

/-- The residual of an observation at the camera and the pose that it was made with is minus its noise. -/
theorem residual_of_capture (h : capture? camera pose points noise image = some os) {o : Observation ℝ} (ho : o ∈ os)
    {cameras : List (Camera ℝ)} {index : Nat} (hindex : cameras[index]? = some camera) :
    o.residual cameras points index pose = (noiseOf noise).miss (image, o.point) := by
  obtain ⟨p, hp, huv⟩ := uv_of_capture h ho
  rw [Observation.residual_eq hindex hp, huv, Factor.reprojectionError, Vec2.toList, Camera.project, PixelNoise.miss]
  simp

end Scene

/-! ## What formulations measure -/

/-- At its initial values, a formulation has minus the noise of each of the keys (image and point) as residuals, and the
cost that goes with it. -/
structure Formulation.MissesBy (f : Formulation ℝ) (noise : PixelNoise ℝ) (keys : List (Nat × Nat)) : Prop where
  residuals : f.problem.evaluate f.initial = .ok (keys.map noise.miss)
  component_le : ∀ rs, f.problem.evaluate f.initial = .ok rs → ∀ r ∈ rs, ∀ x ∈ r, |x| ≤ |noise.maxAbs|
  cost_le : ∃ c, f.problem.cost f.initial = .ok c ∧ c ≤ f.problem.residuals.length * noise.maxAbs ^ 2 ∧
    (noise.maxAbs = 0 → c = 0)

theorem Formulation.MissesBy.of_residuals {f : Formulation ℝ} {noise : PixelNoise ℝ} {keys : List (Nat × Nat)}
    (h : f.problem.evaluate f.initial = .ok (keys.map noise.miss)) : f.MissesBy noise keys := by
  have hlength : f.problem.residuals.length = (keys.map noise.miss).length := (Problem.evaluate_eq_ok.1 h).length_eq
  have hcost : totalCost (keys.map noise.miss) ≤ f.problem.residuals.length * noise.maxAbs ^ 2 := by
    rw [hlength]
    refine totalCost_le fun r hr => ?_
    obtain ⟨key, -, rfl⟩ := List.mem_map.1 hr
    exact noise.normSq_miss_le key
  refine ⟨h, fun rs hrs r hr x hx => ?_, _, Problem.cost_eq_ok.2 ⟨_, h, rfl⟩, hcost, fun hzero => ?_⟩
  · obtain rfl := Except.ok.inj (h.symm.trans hrs)
    obtain ⟨key, -, rfl⟩ := List.mem_map.1 hr
    exact noise.abs_le_of_mem_miss key hx
  · rw [hzero] at hcost
    exact le_antisymm (by simpa using hcost) (totalCost_nonneg _)

/-! ## Bundle adjustment -/

namespace BundleDataset

/-- The image and the point of each usable observation, in order. -/
def noiseKeys {α : Type} (d : BundleDataset α) (asked : Nat) : List (Nat × Nat) :=
  (d.sightings asked).map fun s => (s.1, s.2.2.point)

/-- Did the images of a dataset see its points, by its valid cameras and from its poses? -/
structure Captured (d : BundleDataset ℝ) (noise : Option (PixelNoise ℝ)) : Prop where
  images : d.images ≠ []
  cameras : ∀ c ∈ d.cameras, c.Valid
  seen : ∀ (i : Nat) (image : Image ℝ), d.images[i]? = some image → ∃ c, d.cameras[image.camera]? = some c ∧
    Scene.capture? c image.pose d.points noise i = some image.observations

variable {d : BundleDataset ℝ} {noise : Option (PixelNoise ℝ)}

theorem Captured.valid (h : d.Captured noise) : d.Valid where
  images := h.images
  cameras := h.cameras
  camera image himage := by
    obtain ⟨i, hi⟩ := List.getElem?_of_mem himage
    obtain ⟨c, hc, -⟩ := h.seen i image hi
    exact (List.getElem?_eq_some_iff.1 hc).1
  point image himage o ho := by
    obtain ⟨i, hi⟩ := List.getElem?_of_mem himage
    obtain ⟨c, -, hseen⟩ := h.seen i image hi
    obtain ⟨p, hp, -⟩ := Scene.uv_of_capture hseen ho
    exact (List.getElem?_eq_some_iff.1 hp).1

theorem Captured.residuals (h : d.Captured noise) (asked : Nat) :
    d.residuals asked = (d.noiseKeys asked).map (Scene.noiseOf noise).miss := by
  rw [residuals_eq, noiseKeys, List.map_map]
  refine List.map_congr_left fun s hs => ?_
  obtain ⟨hindex, ho⟩ := mem_sightings.1 hs
  obtain ⟨c, hc, hseen⟩ := h.seen s.1 s.2.1 hindex
  exact Scene.residual_of_capture hseen (List.mem_of_mem_filter ho) hc

theorem Captured.missesBy (h : d.Captured noise) {options : BundleOptions ℝ} {f : Formulation ℝ}
    (hf : d.formulate options = .ok f) : f.MissesBy (Scene.noiseOf noise) (d.noiseKeys options.minTrackLength) :=
  .of_residuals (h.residuals options.minTrackLength ▸ (measures h.valid).evaluate f hf)

end BundleDataset

/-! ## Rig adjustment -/

namespace RigDataset

/-- The number of the image and the point of each usable observation, in order, where `number` numbers the images of
snapshots. -/
def noiseKeys {α : Type} (d : RigDataset α) (number : (snapshot image : Nat) → Nat) (asked : Nat) :
    List (Nat × Nat) :=
  d.snapshots.zipIdx.flatMap fun (s, i) => s.images.zipIdx.flatMap fun (image, j) =>
    (image.observations.filter (usable asked d.trackLengths)).map fun o => (number i j, o.point)

/-- Did the images of snapshots see the points of a dataset, by the cameras of its rigs, which are valid? -/
structure Captured (d : RigDataset ℝ) (noise : Option (PixelNoise ℝ)) (number : (snapshot image : Nat) → Nat) :
    Prop where
  snapshots : d.snapshots ≠ []
  cameras : ∀ c ∈ d.cameras, c.Valid
  mounted : ∀ rig ∈ d.rigs, rig.cameras ≠ [] ∧ ∀ m ∈ rig.cameras, m.camera < d.cameras.length
  seen : ∀ (i : Nat) (s : Snapshot ℝ), d.snapshots[i]? = some s → ∃ rig, d.rigs[s.rig]? = some rig ∧
    ∀ (j : Nat) (image : SnapshotImage ℝ), s.images[j]? = some image → ∃ m c,
      rig.cameras[image.mount]? = some m ∧ d.cameras[m.camera]? = some c ∧
      Scene.capture? c (m.pose.comp s.pose) d.points noise (number i j) = some image.observations

variable {d : RigDataset ℝ} {noise : Option (PixelNoise ℝ)} {number : (snapshot image : Nat) → Nat}

theorem Captured.valid (h : d.Captured noise number) : d.Valid where
  snapshots := h.snapshots
  cameras := h.cameras
  mounted := h.mounted
  images s hs := by
    obtain ⟨i, hi⟩ := List.getElem?_of_mem hs
    obtain ⟨rig, hrig, hseen⟩ := h.seen i s hi
    refine ⟨rig, hrig, fun image himage => ?_⟩
    obtain ⟨j, hj⟩ := List.getElem?_of_mem himage
    obtain ⟨m, c, hm, -, hcapture⟩ := hseen j image hj
    refine ⟨(List.getElem?_eq_some_iff.1 hm).1, fun o ho => ?_⟩
    obtain ⟨p, hp, -⟩ := Scene.uv_of_capture hcapture ho
    exact (List.getElem?_eq_some_iff.1 hp).1

theorem Captured.residuals (h : d.Captured noise number) (asked : Nat) :
    d.flatten.residuals asked = (d.noiseKeys number asked).map (Scene.noiseOf noise).miss := by
  rw [BundleDataset.residuals, trackLengths_flatten, noiseKeys, List.map_flatMap]
  simp only [flatten, List.flatMap_assoc, List.flatMap_map, List.map_flatMap, List.map_map]
  rw [← flatMap_zipIdx]
  refine List.flatMap_congr ?_
  rintro ⟨s, i⟩ hs
  obtain ⟨rig, hrig, hseen⟩ := h.seen i s (List.mk_mem_zipIdx_iff_getElem?.1 hs)
  rw [← flatMap_zipIdx]
  refine List.flatMap_congr ?_
  rintro ⟨image, j⟩ himage
  obtain ⟨m, c, hm, hc, hcapture⟩ := hseen j image (List.mk_mem_zipIdx_iff_getElem?.1 himage)
  rw [flatImage_eq (mounted?_eq hrig hm)]
  exact List.map_congr_left fun o ho => Scene.residual_of_capture hcapture (List.mem_of_mem_filter ho) hc

theorem Captured.missesBy (h : d.Captured noise number) {options : RigOptions ℝ} {f : Formulation ℝ}
    (hf : d.formulate options = .ok f) :
    f.MissesBy (Scene.noiseOf noise) (d.noiseKeys number options.minTrackLength) :=
  .of_residuals (h.residuals options.minTrackLength ▸ (measures h.valid).evaluate f hf)

end RigDataset

/-! ## Both kinds -/

/-- A dataset that saw its own points is accepted, and at the initial values of any formulation of it, what is left is
minus the noise. -/
theorem formulate_groundTruth (noise : Option (PixelNoise ℝ)) :
    (∀ d : BundleDataset ℝ, d.Captured noise → BundleDataset.make d.cameras d.images d.points = .ok d ∧
      ∀ (options : BundleOptions ℝ) (f : Formulation ℝ), d.formulate options = .ok f →
        f.MissesBy (Scene.noiseOf noise) (d.noiseKeys options.minTrackLength)) ∧
    ∀ (d : RigDataset ℝ) (number : (snapshot image : Nat) → Nat), d.Captured noise number →
      RigDataset.make d.cameras d.rigs d.snapshots d.points = .ok d ∧
      ∀ (options : RigOptions ℝ) (f : Formulation ℝ), d.formulate options = .ok f →
        f.MissesBy (Scene.noiseOf noise) (d.noiseKeys number options.minTrackLength) := by
  refine ⟨fun d h => ⟨BundleDataset.make_eq_ok.2 ⟨rfl, h.valid⟩, fun options f hf => h.missesBy hf⟩, ?_⟩
  exact fun d number h => ⟨RigDataset.make_eq_ok.2 ⟨rfl, h.valid⟩, fun options f hf => h.missesBy hf⟩

/-! ## A scene -/

namespace Scene

/-- Of a point behind it and a point before it, a camera sees the latter. -/
theorem capture_onAxis {pose : Pose ℝ} (hpose : ∀ v, pose.apply v = v) (noise : Option (PixelNoise ℝ)) (image : Nat) :
    capture? ⟨.simplePinhole, [1, 0, 0]⟩ pose [⟨0, 0, -1⟩, ⟨0, 0, 1⟩] noise image =
      some [⟨1, ⟨0, 0⟩ + (noiseOf noise).sample image 1⟩] := by
  have hcenter : (CameraModel.simplePinhole.lens [1, 0, 0]).project (Vec3.perspective ⟨0, 0, 1⟩) =
      (⟨0, 0⟩ : Vec2 ℝ) := by
    ext <;> simp [CameraModel.lens, Lens.project, Vec3.perspective, Distortion.offset]
  have hseen : projectPoints (CameraModel.simplePinhole.lens [1, 0, 0]).project pose [⟨0, 0, -1⟩, ⟨0, 0, 1⟩] =
      [⟨1, (⟨0, 0⟩ : Vec2 ℝ)⟩] := by
    simp [projectPoints, observe, hpose, hcenter]
  rw [capture?, projectPoints?, hseen, if_pos (.inr rfl)]
  cases noise with
  | none =>
    rw [noiseOf, PixelNoise.sample_of_maxAbs_eq_zero rfl]
    simp [Vec2.ext_iff]
  | some noise => rfl

end Scene

/-- A camera between two points, without noise. -/
noncomputable def BundleDataset.onAxis : BundleDataset ℝ where
  cameras := [⟨.simplePinhole, [1, 0, 0]⟩]
  images := [⟨0, .one, [⟨1, ⟨0, 0⟩ + (Scene.noiseOf none).sample 0 1⟩]⟩]
  points := [⟨0, 0, -1⟩, ⟨0, 0, 1⟩]

/-- The camera on a rig, with noise of at most a pixel. -/
noncomputable def RigDataset.onAxis : RigDataset ℝ where
  cameras := [⟨.simplePinhole, [1, 0, 0]⟩]
  rigs := [⟨[⟨0, .one⟩]⟩]
  snapshots := [⟨0, .one, [⟨0, [⟨1, ⟨0, 0⟩ + PixelNoise.sample ⟨7, 1⟩ 0 1⟩]⟩]⟩]
  points := [⟨0, 0, -1⟩, ⟨0, 0, 1⟩]

theorem BundleDataset.captured_onAxis : onAxis.Captured none where
  images := List.cons_ne_nil _ _
  cameras := by simp [onAxis, Camera.valid_offAxis]
  seen i image hi := by
    cases i with
    | zero =>
      obtain rfl := Option.some.inj hi
      exact ⟨_, rfl, Scene.capture_onAxis Pose.one_apply none 0⟩
    | succ i => simp [onAxis] at hi

theorem RigDataset.captured_onAxis : onAxis.Captured (some ⟨7, 1⟩) fun i _ => i where
  snapshots := List.cons_ne_nil _ _
  cameras := by simp [onAxis, Camera.valid_offAxis]
  mounted := by simp [onAxis]
  seen i s hi := by
    cases i with
    | zero =>
      obtain rfl := Option.some.inj hi
      refine ⟨_, rfl, fun j image hj => ?_⟩
      cases j with
      | zero =>
        obtain rfl := Option.some.inj hj
        have hpose : Pose.one.comp Pose.one = (Pose.one : Pose ℝ) := by
          ext <;> simp [Pose.comp, Pose.one, Quat.one, Quat.mul, Quat.rotate, Quat.im, Vec3.cross, Vec3.scale,
            Vec3.zero]
        refine ⟨⟨0, .one⟩, _, rfl, rfl, ?_⟩
        rw [hpose]
        exact Scene.capture_onAxis Pose.one_apply (some ⟨7, 1⟩) 0
      | succ j => cases hj
    | succ i => simp [onAxis] at hi

/-- Without noise nothing is left, and of a pixel of noise at most its square. -/
theorem formulate_groundTruth_onAxis :
    (∃ f, BundleDataset.onAxis.formulate .held = .ok f ∧ f.problem.cost f.initial = .ok 0) ∧
      ∃ f c, RigDataset.onAxis.formulate .held = .ok f ∧ f.problem.cost f.initial = .ok c ∧ c ≤ 1 := by
  constructor
  · obtain ⟨-, hmisses⟩ := (formulate_groundTruth none).1 _ BundleDataset.captured_onAxis
    have hmeasures : Formulation.Measures (BundleDataset.onAxis.formulate .held) _ :=
      BundleDataset.measures BundleDataset.captured_onAxis.valid
    obtain ⟨f, hf⟩ := hmeasures.exists_iff.2 (List.cons_ne_nil _ _)
    obtain ⟨c, hc, -, hzero⟩ := (hmisses .held f hf).cost_le
    exact ⟨f, hf, hzero rfl ▸ hc⟩
  · obtain ⟨-, hmisses⟩ := (formulate_groundTruth (some ⟨7, 1⟩)).2 _ _ RigDataset.captured_onAxis
    have hmeasures : Formulation.Measures (RigDataset.onAxis.formulate .held) _ :=
      RigDataset.measures RigDataset.captured_onAxis.valid
    obtain ⟨f, hf⟩ := hmeasures.exists_iff.2 (List.cons_ne_nil _ _)
    have hcount : f.problem.residuals.length = 1 :=
      (Problem.evaluate_eq_ok.1 (hmisses .held f hf).residuals).length_eq.trans rfl
    obtain ⟨c, hc, hle, -⟩ := (hmisses .held f hf).cost_le
    rw [hcount] at hle
    exact ⟨f, c, hf, hc, by simpa [Scene.noiseOf] using hle⟩

end MultiView
