import MultiView.Scalar
import MultiView.Scalar.Dual
import MultiView.Geometry.Vector
import MultiView.Geometry.Quaternion
import MultiView.Geometry.Pose
import MultiView.Camera.Distortion
import MultiView.Camera.Lens
import MultiView.Camera.Model
import MultiView.Decimal.Binary
import MultiView.Decimal.Basic
import MultiView.Decimal.Rounding
import MultiView.Decimal.Shortest
import MultiView.Decimal.NumberText
import MultiView.Check
import MultiView.Camera.Basic
import MultiView.Synthetic.Noise
import MultiView.Synthetic.Scene
import MultiView.Manifold
import MultiView.Manifold.Sphere
import MultiView.Manifold.Rotation
import MultiView.Factor.Basic
import MultiView.Factor.Jacobian
import MultiView.Block
import MultiView.Problem.FixedMask
import MultiView.Problem.Basic
import MultiView.Problem.Validation
import MultiView.Assoc
import MultiView.Problem.Values
import MultiView.Problem.Evaluation
import MultiView.Solver.Options
import MultiView.Solver.Compiled
import MultiView.Solver.Restart
import MultiView.Solver.LinearSystem
import MultiView.Solver.LevenbergMarquardt
import MultiView.Reconstruction.Assembly
import MultiView.Reconstruction.Basic
import MultiView.Reconstruction.Draft
import MultiView.Bundle.Dataset
import MultiView.Bundle.Formulation
import MultiView.Bundle.Refine
import MultiView.Rig.Dataset
import MultiView.Rig.Formulation
import MultiView.Rig.Refine
import MultiView.RelativePose
import MultiView.Json.Basic
import MultiView.Json.Writer
import MultiView.Json.Parser
import MultiView.Json.Record
import MultiView.Config.Scene
import MultiView.Config.Options
import MultiView.Config.Dataset
import MultiView.Proofs.Check
import MultiView.Proofs.Problem.WellFormed
import MultiView.Proofs.Problem.Evaluation
import MultiView.Proofs.Problem.Faults
import MultiView.Proofs.Factor.Reads
import MultiView.Proofs.Problem.Obstacles
import MultiView.Proofs.Solver.Compiled
import MultiView.Proofs.Solver.Calls
import MultiView.Proofs.Solver.Account
import MultiView.Proofs.Reconstruction.Keys
import MultiView.Proofs.Reconstruction.Assembly
import MultiView.Proofs.Reconstruction.Draft
import MultiView.Proofs.Reconstruction.Tracks
import MultiView.Proofs.Camera.Valid
import MultiView.Proofs.Bundle.Dataset
import MultiView.Proofs.Rig.Dataset
import MultiView.Proofs.Reconstruction.WellFormed
import MultiView.Proofs.Bundle.Drafting
import MultiView.Proofs.Bundle.Formulation
import MultiView.Proofs.Rig.Drafting
import MultiView.Proofs.Rig.Formulation
import MultiView.Proofs.Reconstruction.Formulations
import MultiView.Proofs.Solver.Faithful
import MultiView.Proofs.Solver.Kept
import MultiView.Proofs.Solver.Moves
import MultiView.Proofs.Block
import MultiView.Proofs.Scalar.Real
import MultiView.Proofs.Reconstruction.ReadBack
import MultiView.Proofs.Bundle.Refine
import MultiView.Proofs.Rig.Refine
import MultiView.Proofs.Reconstruction.Held
import MultiView.Proofs.Bundle.Resume
import MultiView.Proofs.Rig.Resume
import MultiView.Proofs.Reconstruction.Refinements
import MultiView.Proofs.Factor.Transfer
import MultiView.Proofs.Factor.Derivative
import MultiView.Proofs.Reconstruction.Residuals
import MultiView.Proofs.Bundle.Residuals
import MultiView.Proofs.Rig.Flatten
import MultiView.Proofs.Reconstruction.Choices
import MultiView.Proofs.Camera.Undistort
import MultiView.Proofs.Camera.BackProjection
import MultiView.Proofs.Synthetic.Noise
import MultiView.Proofs.Problem.Cost
import MultiView.Proofs.Synthetic.GroundTruth
import MultiView.Proofs.Geometry.Rotation
import MultiView.Proofs.Geometry.Similarity
import MultiView.Proofs.Reconstruction.Planned
import MultiView.Proofs.Bundle.Planned
import MultiView.Proofs.Rig.Planned
import MultiView.Proofs.Reconstruction.Gauge
import MultiView.Proofs.Camera.ObservedRay
import MultiView.Proofs.Geometry.Vector
import MultiView.Proofs.Manifold.TangentBasis
import MultiView.Proofs.Manifold.Sphere
import MultiView.Proofs.Manifold.SphereJacobian
import MultiView.Proofs.Geometry.Matrix
import MultiView.Proofs.Factor.Epipolar
import MultiView.Proofs.RelativePose
import MultiView.Proofs.Synthetic.TwoViews
import MultiView.Proofs.Reconstruction.Renaming
import MultiView.Proofs.Bundle.Relabeling
import MultiView.Proofs.Reconstruction.Thinning
import MultiView.Proofs.Json.Record
import MultiView.Proofs.Config.RoundTrip
import MultiView.Proofs.Geometry.RotationMatrix
import MultiView.Proofs.Factor.ComposedPose
import MultiView.Proofs.Factor.Sampson
import MultiView.Proofs.Json.Fields
import MultiView.Proofs.Config.Partial
import MultiView.Proofs.Solver.Schedule
import MultiView.Proofs.Scalar.Embedding
import MultiView.Proofs.Scalar.Guarded
import MultiView.Proofs.Manifold.Embedding
import MultiView.Proofs.Manifold.Exponential
import MultiView.Proofs.Manifold.Linearization
import MultiView.Proofs.Scalar.MultiDual
import MultiView.Proofs.Factor.Embedding
import MultiView.Proofs.Factor.Directional
import MultiView.Proofs.Solver.Intervals
import MultiView.Proofs.Problem.Construction
import MultiView.Proofs.Camera.Nesting
import MultiView.Proofs.Reconstruction.Datasets
import MultiView.Proofs.PoseBlocks
import MultiView.Proofs.RelativePose.Direction
import MultiView.Proofs.Reconstruction.Unmoved
import MultiView.Proofs.Geometry.MatrixQuaternion
import MultiView.Proofs.Geometry.LookAt
import MultiView.Proofs.Synthetic.Arc
import MultiView.Proofs.Synthetic.Ranges
import MultiView.Proofs.Synthetic.Keys
