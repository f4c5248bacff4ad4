import LiveSelect.Query.Basic

/-! # The graph of tables

The tables of a query are the nodes of a directed graph; a join leads from the table of
its left column to the table of its right column. Joins that touch a container outside
the statement do not count. A depth-first search over the graph gives the order in which
the tables stand in the statement. -/

namespace LiveSelect

/-- Tables, and arcs between them in the order in which they were added. -/
structure JoinGraph where
  nodes : List ContainerId
  arcs : List (ContainerId × ContainerId) := []
deriving DecidableEq

namespace JoinGraph

/-- Adds an arc between nodes, unless it is there already. -/
def addArc (g : JoinGraph) (arc : ContainerId × ContainerId) : JoinGraph :=
  if g.nodes.contains arc.1 && g.nodes.contains arc.2 && !g.arcs.contains arc then
    { g with arcs := g.arcs ++ [arc] }
  else g

/-- The nodes to which arcs lead from a node, in the order of the arcs. -/
def successors (g : JoinGraph) (t : ContainerId) : List ContainerId :=
  (g.arcs.filter (·.1 = t)).map Prod.snd

/-! ## Depth-first search -/

/-- How far a search has come: the nodes that were reached, and those whose successors
are all done, the latest first. -/
structure Search where
  reached : List ContainerId := []
  finished : List ContainerId := []

/-- Searches from a node that may have been reached before. The first argument bounds the
depth; no path of a search is longer than the number of nodes. -/
def visit (g : JoinGraph) : Nat → Search → ContainerId → Search
  | 0, s, _ => s
  | depth + 1, s, t =>
    if s.reached.contains t then s
    else
      let s := (g.successors t).foldl (g.visit depth) { s with reached := t :: s.reached }
      { s with finished := t :: s.finished }

/-- The nodes, the latest finished first: every node not reached so far starts a search,
in the order of the nodes. -/
def finishOrder (g : JoinGraph) : List ContainerId :=
  (g.nodes.foldl (g.visit g.nodes.length) {}).finished

end JoinGraph

namespace Query

/-- The arcs that start at a table, in the order of its joins. -/
def arcsFrom (q : Query) (t : ContainerId) : List (ContainerId × ContainerId) :=
  ((q.joinsOf t).filterMap q.ends?).filter (·.1 = t)

/-- The graph of the tables: arcs are added table by table. -/
def graph (q : Query) : JoinGraph :=
  (q.tables.flatMap q.arcsFrom).foldl .addArc { nodes := q.tables }

/-- The order in which the tables stand in the statement. -/
def finishOrder (q : Query) : List ContainerId := q.graph.finishOrder

/-- Whether both containers of a join are tables of the statement. -/
def connectsTables (q : Query) (j : JoinId) : Bool :=
  (q.ends? j).any fun x => q.tables.contains x.1 && q.tables.contains x.2

/-- The joins between tables of the statement, the oldest first. -/
def tableJoins (q : Query) : List JoinId := q.allJoins.filter q.connectsTables

/-- The joins between tables whose left column belongs to the given one. -/
def outbound (q : Query) (t : ContainerId) : List JoinId :=
  (q.joinsOf t).filter fun j => q.connectsTables j && (q.ends? j).any (·.1 = t)

/-- The joins between tables whose right column belongs to the given one. -/
def inbound (q : Query) (t : ContainerId) : List JoinId :=
  (q.joinsOf t).filter fun j => q.connectsTables j && (q.ends? j).any (·.2 = t)

end Query

end LiveSelect
