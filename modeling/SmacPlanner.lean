import SmacPlanner.Node2D
import SmacPlanner.NodeLifecycle
import SmacPlanner.GridIndex
import SmacPlanner.Neighborhood
import SmacPlanner.Heuristic
import SmacPlanner.Expansion
import SmacPlanner.Smoother.Vector2d
import SmacPlanner.Smoother.CostFunction
import SmacPlanner.Smoother.CostmapGradient
import SmacPlanner.Smoother.Stencil
import SmacPlanner.Smoother.Curvature
import SmacPlanner.Smoother.Evaluate
import SmacPlanner.Smoother.Gradient
import SmacPlanner.Smoother.Accesses
import SmacPlanner.Smoother.Objective
import SmacPlanner.Smoother.Cache
import SmacPlanner.Smoother.CostmapTerm
import SmacPlanner.Smoother.Derivative
import SmacPlanner.Smoother.Translation
import SmacPlanner.Smoother.Convexity
import SmacPlanner.Smoother.CurvatureDerivative
import SmacPlanner.Smoother.PathDerivative
