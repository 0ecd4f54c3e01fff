import GraphAttention.Attention
import GraphAttention.DegreeEncoder
import GraphAttention.Graph.Json
import GraphAttention.Json.Text
import GraphAttention.Proofs.Adjoint
import GraphAttention.Proofs.Attention.Batch
import GraphAttention.Proofs.Attention.Building
import GraphAttention.Proofs.Attention.Forgetting
import GraphAttention.Proofs.Attention.HiddenWeight
import GraphAttention.Proofs.Attention.Influence
import GraphAttention.Proofs.Attention.Masking
import GraphAttention.Proofs.Attention.NeutralBias
import GraphAttention.Proofs.Attention.Reached
import GraphAttention.Proofs.Attention.Training
import GraphAttention.Proofs.AxisOrder
import GraphAttention.Proofs.Chains
import GraphAttention.Proofs.Combining
import GraphAttention.Proofs.DegreeEncoder.AnyGraph
import GraphAttention.Proofs.DegreeEncoder.PaddingGradient
import GraphAttention.Proofs.DegreeEncoder.PaddingRow
import GraphAttention.Proofs.DegreeEncoder.Relabeling
import GraphAttention.Proofs.DegreeEncoder.Scatter
import GraphAttention.Proofs.Dropping
import GraphAttention.Proofs.FileReading
import GraphAttention.Proofs.Filling
import GraphAttention.Proofs.Graph.Adding
import GraphAttention.Proofs.Graph.Merging
import GraphAttention.Proofs.Kinds
import GraphAttention.Proofs.Parameters
import GraphAttention.Proofs.Persistence
import GraphAttention.Proofs.Products
import GraphAttention.Proofs.Sampling
import GraphAttention.Proofs.SoftmaxAxes
import GraphAttention.Tensor.Json
import GraphAttention.Tensor.Operation
