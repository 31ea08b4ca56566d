import Tumult.Graph.Topology
import Tumult.Lake.Analytics
import Tumult.Lib.Keyed

/-!
# Refreshing the graph

The sub-graph of the coverage gaps and that of the declared topology are each replaced by a series of statements outside any
transaction: what was there is deleted, then nodes are upserted and edges inserted one by one.
-/

namespace Tumult

open Db (Tx Env executeAll)

/-- `INSERT … ON CONFLICT`: kind, label and attributes are replaced. -/
def upsertNode (node : Node) : AnalyticsStatement := fun db =>
  some { db with graphNodes := Keyed.upsert Node.id node db.graphNodes }

def deleteNodesByKind (kind : NodeKind) : AnalyticsStatement := fun db =>
  some { db with graphNodes := db.graphNodes.filter (·.kind ≠ kind) }

/-- Edges of no run, as rows under an identifier of their own. -/
def staticEdgeRows (runId : String) (edges : List Edge) : List GraphEdgeRow :=
  edges.map fun edge => ⟨edge.src, edge.rel, edge.dst, runId, 0, edge.attrs⟩

/-- Upsert the nodes of a delta, then insert its edges. -/
def writeDelta (runId : String) (delta : GraphDelta) : List AnalyticsStatement :=
  delta.nodes.map upsertNode ++ (staticEdgeRows runId delta.edges).map insertEdge

def coverageGapsScript (delta : GraphDelta) : List AnalyticsStatement :=
  deleteNodesByKind .coverageGap :: deleteEdgesForRun COVERAGE_GAP_RUN_ID :: writeDelta COVERAGE_GAP_RUN_ID delta

/-- The nodes of services that the document does not name are left. -/
def topologyScript (delta : GraphDelta) : List AnalyticsStatement :=
  deleteEdgesForRun TOPOLOGY_RUN_ID :: writeDelta TOPOLOGY_RUN_ID delta

section

variable (Γ : Env)

/-- Replace the coverage-gap sub-graph. -/
def refreshCoverageGaps (delta : GraphDelta) : Tx AnalyticsError AnalyticsDb Unit :=
  executeAll Γ .db .constraint (coverageGapsScript delta)

/-- Replace the declared-topology sub-graph. -/
def refreshTopology (delta : GraphDelta) : Tx AnalyticsError AnalyticsDb Unit :=
  executeAll Γ .db .constraint (topologyScript delta)

end

end Tumult
