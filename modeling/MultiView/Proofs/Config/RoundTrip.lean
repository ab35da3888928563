import MultiView.Config.Dataset
import MultiView.Config.Options
import MultiView.Proofs.Json.Record

/-!
# Configurations are read as they were written

Each reader undoes its writer on values whose numbers are finite, whether they are valid or not
(`configuration_roundTrip`, from one `ofJson?_toJson` for each type that is part of a configuration). A type's
`IsFinite` says of all numbers in a value that they are finite.
-/

namespace MultiView

variable {α : Type}

open Json Scalar

/-! ## Scenes -/

theorem CameraModel.ofJson?_toJson (m : CameraModel) : ofJson? (m.toJson : Json α) = some m := by
  rw [toJson, ofJson?, choice?, Option.bind_some, ofName?_name]

variable [Scalar α]

def Camera.IsFinite (c : Camera α) : Prop := AllFinite c.params

theorem Camera.ofJson?_toJson {c : Camera α} (h : c.IsFinite) : ofJson? c.toJson = some c := by
  have hparams : list? scalar? (ofScalars c.params) = some c.params := list?_ofScalars h
  rw [ofJson?, toJson, record?_obj (by rfl) (by decide)]
  simp [CameraModel.ofJson?_toJson, hparams]

structure Pose.IsFinite (p : Pose α) : Prop where
  rot : AllFinite p.rot.toList
  trans : AllFinite p.trans.toList

theorem Quat.ofJson?_ofScalars {q : Quat α} (h : AllFinite q.toList) : ofJson? (ofScalars q.toList) = some q := by
  rw [ofJson?, list?_ofScalars h]; rfl

/-- The rotation need not be a unit quaternion. -/
theorem Pose.ofJson?_toJson {p : Pose α} (h : p.IsFinite) : ofJson? p.toJson = some p := by
  rw [ofJson?, toJson, record?_obj (by rfl) (by decide)]
  simp [Quat.ofJson?_ofScalars h.rot, vec3?_ofScalars h.trans]

def Observation.IsFinite (o : Observation α) : Prop := AllFinite o.uv.toList

theorem Observation.ofJson?_toJson {o : Observation α} (h : o.IsFinite) : ofJson? o.toJson = some o := by
  have huv : vec2? (ofScalars o.uv.toList) = some o.uv := vec2?_ofScalars h
  rw [ofJson?, toJson, record?_obj (by rfl) (by decide)]
  simp [nat?, huv]

theorem Observation.list?_toJson {os : List (Observation α)} (h : ∀ o ∈ os, o.IsFinite) :
    list? ofJson? (.arr (os.map toJson)) = some os :=
  list?_map fun o ho => ofJson?_toJson (h o ho)

def RobustLoss.IsFinite (loss : RobustLoss α) : Prop := AllFinite (loss.scale?.map (·.2)).toList

theorem RobustLoss.isFinite_of_scale {loss : RobustLoss α} {kind : String} {scale : α}
    (hscale : loss.scale? = some (kind, scale)) (h : isFinite scale = true) : loss.IsFinite := by
  intro x hx
  rw [hscale] at hx
  rwa [List.mem_singleton.1 hx]

/-- A kind of loss is read from the members beside the scale. -/
theorem RobustLoss.ofJson?_scaled {kind : String} {scale : α} (h : isFinite scale = true) :
    ofJson? (.obj [("kind", .str kind), ("scale", ofScalar scale)]) =
      ofKind? kind (.obj [("scale", .num scale)]) := by
  simp [ofJson?, kind?, ofScalar_eq h, isReadable, areReadableMembers]

theorem RobustLoss.ofJson?_toJson {loss : RobustLoss α} (h : loss.IsFinite) : ofJson? loss.toJson = some loss := by
  cases loss with
  | none => rfl
  | huber s | cauchy s | arctan s =>
    have hs : isFinite s = true := h s (by simp [scale?])
    rw [toJson, scale?]
    simp only [ofJson?_scaled hs]
    rw [ofKind?, record?_obj (by rfl) (by decide)]
    simp [scalar?]

/-! ## Options -/

omit [Scalar α] in
theorem LinearSolver.nullable?_ofOption (s : Option LinearSolver) :
    nullable? (fun j : Json α => j.choice?.bind ofName?) (ofOption (fun s => .str s.name) s) = some s :=
  Json.nullable?_ofOption fun s _ => ⟨by simp, by rw [choice?, Option.bind_some, ofName?_name]⟩

structure SolveOptions.IsFinite (o : SolveOptions α) : Prop where
  minAbsDecrease : AllFinite o.minAbsDecrease.toList
  minRelDecrease : AllFinite o.minRelDecrease.toList
  minError : AllFinite o.minError.toList

/-- An open threshold stays open, and does not become the default. -/
theorem SolveOptions.ofJson?_toJson {o : SolveOptions α} (h : o.IsFinite) : ofJson? o.toJson = some o := by
  rw [ofJson?, toJson, record?_obj (by rfl) (by decide)]
  simp [nat?, LinearSolver.nullable?_ofOption, nullable?_ofScalar h.minAbsDecrease,
    nullable?_ofScalar h.minRelDecrease, nullable?_ofScalar h.minError]

theorem BundleOptions.ofJson?_toJson {o : BundleOptions α} (h : o.loss.IsFinite) : ofJson? o.toJson = some o := by
  rw [ofJson?, toJson, record?_obj (by rfl) (by decide)]
  simp [nat?, bool?, Refinement.ofMembers?, Refinement.toMembers, RobustLoss.ofJson?_toJson h, list?_ofNats]

theorem RigOptions.ofJson?_toJson {o : RigOptions α} (h : o.loss.IsFinite) : ofJson? o.toJson = some o := by
  rw [ofJson?, toJson, record?_obj (by rfl) (by decide)]
  simp [nat?, bool?, Refinement.ofMembers?, Refinement.toMembers, RobustLoss.ofJson?_toJson h, list?_ofNats]

theorem RelativePoseOptions.ofJson?_toJson {o : RelativePoseOptions α} (h : o.loss.IsFinite) :
    ofJson? o.toJson = some o := by
  rw [ofJson?, toJson, record?_obj (by rfl) (by decide)]
  simp [RobustLoss.ofJson?_toJson h]

/-! ## Datasets -/

theorem list?_pointsToJson {points : List (Vec3 α)} (h : ∀ p ∈ points, AllFinite p.toList) :
    list? vec3? (pointsToJson points) = some points :=
  list?_map fun p hp => vec3?_ofScalars (h p hp)

structure Image.IsFinite (image : Image α) : Prop where
  pose : image.pose.IsFinite
  observations : ∀ o ∈ image.observations, o.IsFinite

theorem Image.ofJson?_toJson {image : Image α} (h : image.IsFinite) : ofJson? image.toJson = some image := by
  rw [ofJson?, toJson, record?_obj (by rfl) (by decide)]
  simp [nat?, Pose.ofJson?_toJson h.pose, Observation.list?_toJson h.observations]

structure BundleDataset.IsFinite (d : BundleDataset α) : Prop where
  cameras : ∀ c ∈ d.cameras, c.IsFinite
  images : ∀ image ∈ d.images, image.IsFinite
  points : ∀ p ∈ d.points, AllFinite p.toList

theorem BundleDataset.ofJson?_toJson {d : BundleDataset α} (h : d.IsFinite) : ofJson? d.toJson = some d := by
  rw [ofJson?, toJson, record?_obj (by rfl) (by decide)]
  simp [list?_map fun c hc => Camera.ofJson?_toJson (h.cameras c hc),
    list?_map fun image himage => Image.ofJson?_toJson (h.images image himage), list?_pointsToJson h.points]

theorem MountedCamera.ofJson?_toJson {c : MountedCamera α} (h : c.pose.IsFinite) : ofJson? c.toJson = some c := by
  rw [ofJson?, toJson, record?_obj (by rfl) (by decide)]
  simp [nat?, Pose.ofJson?_toJson h]

def Rig.IsFinite (r : Rig α) : Prop := ∀ c ∈ r.cameras, c.pose.IsFinite

theorem Rig.ofJson?_toJson {r : Rig α} (h : r.IsFinite) : ofJson? r.toJson = some r := by
  rw [ofJson?, toJson, record?_obj (by rfl) (by decide)]
  simp [list?_map fun c hc => MountedCamera.ofJson?_toJson (h c hc)]

theorem SnapshotImage.ofJson?_toJson {image : SnapshotImage α} (h : ∀ o ∈ image.observations, o.IsFinite) :
    ofJson? image.toJson = some image := by
  rw [ofJson?, toJson, record?_obj (by rfl) (by decide)]
  simp [nat?, Observation.list?_toJson h]

structure Snapshot.IsFinite (s : Snapshot α) : Prop where
  pose : s.pose.IsFinite
  observations : ∀ image ∈ s.images, ∀ o ∈ image.observations, o.IsFinite

theorem Snapshot.ofJson?_toJson {s : Snapshot α} (h : s.IsFinite) : ofJson? s.toJson = some s := by
  rw [ofJson?, toJson, record?_obj (by rfl) (by decide)]
  simp [nat?, Pose.ofJson?_toJson h.pose,
    list?_map fun image himage => SnapshotImage.ofJson?_toJson (h.observations image himage)]

structure RigDataset.IsFinite (d : RigDataset α) : Prop where
  cameras : ∀ c ∈ d.cameras, c.IsFinite
  rigs : ∀ r ∈ d.rigs, r.IsFinite
  snapshots : ∀ s ∈ d.snapshots, s.IsFinite
  points : ∀ p ∈ d.points, AllFinite p.toList

theorem RigDataset.ofJson?_toJson {d : RigDataset α} (h : d.IsFinite) : ofJson? d.toJson = some d := by
  rw [ofJson?, toJson, record?_obj (by rfl) (by decide)]
  simp [list?_map fun c hc => Camera.ofJson?_toJson (h.cameras c hc),
    list?_map fun r hr => Rig.ofJson?_toJson (h.rigs r hr),
    list?_map fun s hs => Snapshot.ofJson?_toJson (h.snapshots s hs), list?_pointsToJson h.points]

/-! ## Configurations -/

/-- Whatever can be configured is read as it was written: nothing is lost, checked or normalized on the way. -/
theorem configuration_roundTrip :
    (∀ c : Camera α, c.IsFinite → Camera.ofJson? c.toJson = some c) ∧
    (∀ loss : RobustLoss α, loss.IsFinite → RobustLoss.ofJson? loss.toJson = some loss) ∧
    (∀ o : Observation α, o.IsFinite → Observation.ofJson? o.toJson = some o) ∧
    (∀ o : SolveOptions α, o.IsFinite → SolveOptions.ofJson? o.toJson = some o) ∧
    (∀ o : BundleOptions α, o.loss.IsFinite → BundleOptions.ofJson? o.toJson = some o) ∧
    (∀ o : RigOptions α, o.loss.IsFinite → RigOptions.ofJson? o.toJson = some o) ∧
    (∀ o : RelativePoseOptions α, o.loss.IsFinite → RelativePoseOptions.ofJson? o.toJson = some o) ∧
    (∀ d : BundleDataset α, d.IsFinite → BundleDataset.ofJson? d.toJson = some d) ∧
    ∀ d : RigDataset α, d.IsFinite → RigDataset.ofJson? d.toJson = some d :=
  ⟨fun _ => Camera.ofJson?_toJson, fun _ => RobustLoss.ofJson?_toJson, fun _ => Observation.ofJson?_toJson,
    fun _ => SolveOptions.ofJson?_toJson, fun _ => BundleOptions.ofJson?_toJson, fun _ => RigOptions.ofJson?_toJson,
    fun _ => RelativePoseOptions.ofJson?_toJson, fun _ => BundleDataset.ofJson?_toJson,
    fun _ => RigDataset.ofJson?_toJson⟩

/-- A camera that lacks parameters, with a focal length that none may have. -/
def Camera.broken : Camera Float := ⟨.opencv, [-1, 0.5]⟩

/-- A pose whose rotation is no unit quaternion. -/
def Pose.stretched : Pose Float := ⟨⟨0, 0, 0, 2⟩, ⟨1, -0.5, 0⟩⟩

/-- References that lead nowhere. -/
def BundleDataset.broken : BundleDataset Float := ⟨[.broken], [⟨9, .stretched, [⟨7, ⟨0.5, -3⟩⟩]⟩], []⟩

/-- A rig without cameras, and a snapshot of a rig that is not there. -/
def RigDataset.broken : RigDataset Float :=
  ⟨[.broken], [⟨[]⟩, ⟨[⟨9, .stretched⟩]⟩], [⟨5, .stretched, [⟨3, [⟨7, ⟨0.5, -3⟩⟩]⟩]⟩], [⟨0, 0, -1⟩]⟩

theorem Pose.isFinite_stretched : stretched.IsFinite :=
  ⟨by simp only [AllFinite]; decide, by simp only [AllFinite]; decide⟩

theorem Observation.isFinite_nowhere : (⟨7, ⟨0.5, -3⟩⟩ : Observation Float).IsFinite := by
  simp only [IsFinite, AllFinite]; decide

theorem Camera.isFinite_broken : broken.IsFinite := by simp only [IsFinite, AllFinite]; decide

theorem BundleDataset.isFinite_broken : broken.IsFinite where
  cameras := by simp [broken, Camera.isFinite_broken]
  images := by
    intro image himage
    obtain rfl := List.mem_singleton.1 himage
    exact ⟨Pose.isFinite_stretched, by simp [Observation.isFinite_nowhere]⟩
  points := nofun

theorem RigDataset.isFinite_broken : broken.IsFinite where
  cameras := by simp [broken, Camera.isFinite_broken]
  rigs := by simp [broken, Rig.IsFinite, Pose.isFinite_stretched]
  snapshots := by
    intro s hs
    obtain rfl := List.mem_singleton.1 hs
    exact ⟨Pose.isFinite_stretched, by simp [Observation.isFinite_nowhere]⟩
  points := by simp only [broken, AllFinite]; decide

/-- With values that nothing else would accept. -/
theorem configuration_roundTrip_broken :
    Camera.ofJson? Camera.broken.toJson = some .broken ∧
    RobustLoss.ofJson? (RobustLoss.huber (-1 : Float)).toJson = some (.huber (-1)) ∧
    Observation.ofJson? (⟨7, ⟨0.5, -3⟩⟩ : Observation Float).toJson = some ⟨7, ⟨0.5, -3⟩⟩ ∧
    SolveOptions.ofJson? (⟨0, 3, none, none, some (-1), none⟩ : SolveOptions Float).toJson =
      some ⟨0, 3, none, none, some (-1), none⟩ ∧
    BundleOptions.ofJson? (⟨.cauchy (0 : Float), ⟨false, true, false⟩, [5, 5], [], 0⟩ : BundleOptions Float).toJson =
      some ⟨.cauchy 0, ⟨false, true, false⟩, [5, 5], [], 0⟩ ∧
    RigOptions.ofJson? (⟨.none, ⟨false, true, false⟩, false, [], [2], 9⟩ : RigOptions Float).toJson =
      some ⟨.none, ⟨false, true, false⟩, false, [], [2], 9⟩ ∧
    RelativePoseOptions.ofJson? (⟨.arctan (0.5 : Float)⟩ : RelativePoseOptions Float).toJson = some ⟨.arctan 0.5⟩ ∧
    BundleDataset.ofJson? BundleDataset.broken.toJson = some .broken ∧
    RigDataset.ofJson? RigDataset.broken.toJson = some .broken := by
  obtain ⟨hcamera, hloss, hobservation, hsolve, hbundle, hrig, hrelative, hdataset, hrigs⟩ :=
    @configuration_roundTrip Float _
  have hsolver : (⟨0, 3, none, none, some (-1), none⟩ : SolveOptions Float).IsFinite :=
    ⟨nofun, by simp only [AllFinite]; decide, nofun⟩
  refine ⟨hcamera _ Camera.isFinite_broken, hloss _ (RobustLoss.isFinite_of_scale rfl (by decide)),
    hobservation _ Observation.isFinite_nowhere, hsolve _ hsolver, hbundle _ ?_, hrig _ nofun, hrelative _ ?_,
    hdataset _ BundleDataset.isFinite_broken, hrigs _ RigDataset.isFinite_broken⟩
  · exact RobustLoss.isFinite_of_scale rfl (by decide)
  · exact RobustLoss.isFinite_of_scale rfl (by decide)

end MultiView
