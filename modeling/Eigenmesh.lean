import Eigenmesh.Assembly
import Eigenmesh.Cplx
import Eigenmesh.Custody
import Eigenmesh.Decimal.Binary
import Eigenmesh.Decimal.Fixed
import Eigenmesh.Decimal.Reading
import Eigenmesh.Decimal.Shortest
import Eigenmesh.Dense
import Eigenmesh.Dense.Determinant
import Eigenmesh.Dense.Triangular
import Eigenmesh.Element
import Eigenmesh.Factor.Backend
import Eigenmesh.Factor.Cholesky
import Eigenmesh.Factor.ComplexElimination
import Eigenmesh.Factor.Elimination
import Eigenmesh.Factor.Lanczos
import Eigenmesh.Factor.Schur
import Eigenmesh.Factor.SparseCholesky
import Eigenmesh.Factor.Store
import Eigenmesh.Factor.SymmetricEigen
import Eigenmesh.Format.BigEndian
import Eigenmesh.Format.Binary
import Eigenmesh.Kernels
import Eigenmesh.Layout
import Eigenmesh.Ledger
import Eigenmesh.LocalVector
import Eigenmesh.Main
import Eigenmesh.Mesh.Grid
import Eigenmesh.Mesh.Index
import Eigenmesh.Mesh.Kuhn
import Eigenmesh.Mesh.Simplex
import Eigenmesh.Mesh.Simplicial
import Eigenmesh.Mesh.Text
import Eigenmesh.Operator
import Eigenmesh.Package.Error
import Eigenmesh.Package.Options
import Eigenmesh.Package.Session
import Eigenmesh.Patches
import Eigenmesh.Program.Arguments
import Eigenmesh.Program.Laplacian
import Eigenmesh.Program.Outcome
import Eigenmesh.Program.Poisson
import Eigenmesh.Scalar
import Eigenmesh.Scalar.Double
import Eigenmesh.Smoother
import Eigenmesh.Solver.EigenSolver
import Eigenmesh.Solver.Handle
import Eigenmesh.Solver.Selection
import Eigenmesh.Solver.Solution
import Eigenmesh.Solver.Spectrum
import Eigenmesh.Solver.Transform
import Eigenmesh.Space
import Eigenmesh.Sparse.Csr
import Eigenmesh.Sparse.Row
import Eigenmesh.Sparse.Solver
import Eigenmesh.Sparse.Triplets
import Eigenmesh.Text.Blank
import Eigenmesh.Text.Quoted
import Eigenmesh.Word
import Eigenmesh.Workspace
import Eigenmesh.Proofs.Handle.Adjustment
import Eigenmesh.Proofs.Handle.Solve
import Eigenmesh.Proofs.Handle.Families
import Eigenmesh.Proofs.Handle.Settings
import Eigenmesh.Proofs.Handle.Run
import Eigenmesh.Proofs.Factor.Sizes
import Eigenmesh.Proofs.EigenSolver.Calls
import Eigenmesh.Proofs.EigenSolver.Run
import Eigenmesh.Proofs.EigenSolver.Numbers
import Eigenmesh.Proofs.EigenSolver.Accessors
import Eigenmesh.Proofs.Scalar.Rational
import Eigenmesh.Proofs.EigenSolver.Customization
import Eigenmesh.Proofs.EigenSolver.Results
import Eigenmesh.Proofs.EigenSolver.Tolerances
import Eigenmesh.Proofs.Sorting
import Eigenmesh.Proofs.Handle.Stored
import Eigenmesh.Proofs.Scalar.Exact
import Eigenmesh.Proofs.Sparse.Exchanges
import Eigenmesh.Proofs.Sparse.Sums
import Eigenmesh.Proofs.Sparse.Fixing
import Eigenmesh.Proofs.Assembly.Essential
import Eigenmesh.Proofs.Format.BigEndian
import Eigenmesh.Proofs.Format.Readers
import Eigenmesh.Proofs.Format.Exactness
import Eigenmesh.Proofs.Mesh.Counting
import Eigenmesh.Proofs.Mesh.Numbering
import Eigenmesh.Proofs.Mesh.Sides
import Eigenmesh.Proofs.Mesh.Walks
import Eigenmesh.Proofs.Mesh.Paths
import Eigenmesh.Proofs.Mesh.Pairing
import Eigenmesh.Proofs.Dense
import Eigenmesh.Proofs.Mesh.Boundary
import Eigenmesh.Proofs.Dense.Expansion
import Eigenmesh.Proofs.Mesh.Orientation
import Eigenmesh.Proofs.Mesh.Weights
import Eigenmesh.Proofs.Mesh.Volumes
import Eigenmesh.Proofs.Mesh.Partition
import Eigenmesh.Proofs.Patches.Covering
import Eigenmesh.Proofs.Element.Gradients
import Eigenmesh.Proofs.Mesh.Steps
import Eigenmesh.Proofs.Assembly.Sums
import Eigenmesh.Proofs.Assembly.Stencil
import Eigenmesh.Proofs.Lists
import Eigenmesh.Proofs.Dense.Substitution
import Eigenmesh.Proofs.Dense.Positive
import Eigenmesh.Proofs.Dense.Cholesky
import Eigenmesh.Proofs.Scalar.Real
import Eigenmesh.Proofs.Sparse.Principal
import Eigenmesh.Proofs.Patches.Colours
import Eigenmesh.Proofs.Smoother.Correction
import Eigenmesh.Proofs.Smoother.Energy
import Eigenmesh.Proofs.Smoother.Decrease
import Eigenmesh.Proofs.Assembly.Energy
import Eigenmesh.Proofs.Assembly.Affine
import Eigenmesh.Proofs.Smoother.Stiffness
import Eigenmesh.Proofs.Workspace.Lifecycle
import Eigenmesh.Proofs.Workspace.Slots
import Eigenmesh.Proofs.Workspace.Holders
import Eigenmesh.Proofs.Workspace.Owners
import Eigenmesh.Proofs.Workspace.Reserved
import Eigenmesh.Proofs.Ledger
import Eigenmesh.Proofs.Package.Precedence
import Eigenmesh.Construction
import Eigenmesh.Proofs.Sparse.Conversions
import Eigenmesh.Proofs.Operator.Forms
import Eigenmesh.Proofs.Operator.Denotation
import Eigenmesh.Proofs.Operator.Constructions
import Eigenmesh.Proofs.Sparse.Operations
import Eigenmesh.Proofs.Sparse.Shifted
import Eigenmesh.Proofs.Spectrum.Storage
import Eigenmesh.Proofs.Handle.Storage
import Eigenmesh.Proofs.Scalar.Complex
import Eigenmesh.Proofs.Scalar.Elimination
import Eigenmesh.Proofs.Dense.Matrices
import Eigenmesh.Proofs.Spectrum.Eigenvalues
import Eigenmesh.Proofs.Spectrum.Inverted
import Eigenmesh.Proofs.Spectrum.Reduced
import Eigenmesh.Proofs.Spectrum.Completeness
import Eigenmesh.Proofs.Handle.Vectors
import Eigenmesh.Proofs.Layout
import Eigenmesh.Proofs.Format.Delimiting
import Eigenmesh.Proofs.Spectrum.Transforms
import Eigenmesh.Proofs.Spectrum.Orthonormal
import Eigenmesh.Proofs.Scalar.Spectral
import Eigenmesh.Proofs.Spectrum.Exactness
import Eigenmesh.Proofs.Spectrum.Canonical
import Eigenmesh.Proofs.Dense.Reduction
import Eigenmesh.Proofs.Dense.Inverse
import Eigenmesh.Proofs.Element.Order
import Eigenmesh.Proofs.Element.Dirichlet
import Eigenmesh.Proofs.Assembly.Rearranged
import Eigenmesh.Proofs.Assembly.Loads
import Eigenmesh.Proofs.Package.Tokens
import Eigenmesh.Proofs.Handle.Detection
import Eigenmesh.Proofs.Workspace.Configuration
import Eigenmesh.Proofs.Workspace.Numbers
import Eigenmesh.Proofs.Workspace.Refusals
import Eigenmesh.Proofs.Text.Words
import Eigenmesh.Proofs.Text.Numerals
import Eigenmesh.Proofs.Package.Entering
import Eigenmesh.Proofs.Handle.Writing
import Eigenmesh.Proofs.Sparse.Composition
import Eigenmesh.Proofs.Patches.Submatrices
import Eigenmesh.Proofs.Mesh.Facets
import Eigenmesh.Proofs.Mesh.Listing
import Eigenmesh.Proofs.Scalar.Doubles
import Eigenmesh.Proofs.Smoother.Runs
import Eigenmesh.Proofs.Smoother.Composition
import Eigenmesh.Proofs.Smoother.Symmetry
import Eigenmesh.Proofs.Smoother.Propagation
import Eigenmesh.Proofs.Program.Passing
import Eigenmesh.Proofs.Spectrum.Admission
import Eigenmesh.Proofs.Mesh.Nesting
