import Chargeback.Api.Route
import Chargeback.Pipeline.Basic

/-!
# Answers of the interface

## Main definitions

* `Response`: a status and a body.
* `Pipeline.respond`: the answer to a path.
-/

namespace Chargeback

/-- What is known about a node, and what it has cost since the start of the month. -/
structure NodeSummary where
  instanceType : String
  metric : Metric
  /-- Millicores that the pods on the node request. -/
  allocated : UInt64
  cost : ComputeCost

/-- A node as a JSON value, with doubles written in a given way. -/
def NodeSummary.toJson (float : Float → Json) (n : NodeSummary) : Json :=
  .object
    [("instanceType", .string n.instanceType), ("metric", n.metric.toJson),
      ("allocatedCpuRequest", .amount n.allocated), ("computeCost", n.cost.toJson float)]

/-- The body of an answer. -/
inductive Body where
  | empty
  | health (r : HealthRegistry)
  | readiness (r : Readiness)
  | metrics (m : Metrics)
  | group (g : StoredGroup)
  | cost (c : Cost)
  | node (n : NodeSummary)
  | error (message : String)
  | text (message : String)

/-- An answer of the interface. -/
structure Response where
  status : Nat
  body : Body

namespace Body

/-- The type of the content, unless there is none. -/
def contentType? : Body → Option String
  | empty => none
  | metrics _ | text _ => some "text/plain; charset=utf-8"
  | _ => some "application/json"

/-- The JSON value that the body holds, with doubles written in a given way; none if
the body is text. -/
def json? (float : Float → Json) : Body → Option Json
  | health r => some r.toJson
  | readiness r => some r.toJson
  | group g => some g.toJson
  | cost c => some (c.toJson float)
  | node n => some (n.toJson float)
  | error message => some (.object [("error", .string message)])
  | empty | metrics _ | text _ => none

/-- The lines of a body that is text. -/
def lines : Body → List String
  | metrics m => m.lines
  | text message => [message]
  | _ => []

end Body

namespace Response

/-- Nothing is known about what was asked for. -/
def notFound (message : String) : Response := { status := 404, body := .error message }

/-- The answer about health: a program that still works is well. -/
def ofHealth (r : HealthRegistry) : Response :=
  { status := if r.overall.isOperational then 200 else 503, body := .health r }

/-- The answer about readiness. -/
def ofReadiness (r : Readiness) : Response :=
  { status := if r.ready then 200 else 503, body := .readiness r }

/-- The answer about a group that was looked up. -/
def ofGroup (name : String) (found : StoredGroup → Body) :
    Except AggregateError (Option StoredGroup) → Response
  | .ok (some g) => { status := 200, body := found g }
  | .ok none => notFound ("group " ++ name ++ " not found")
  | .error e => { status := 503, body := .error e.message }

end Response

namespace Pipeline

/-- Look a group up. -/
def lookUpGroup (p : Pipeline) (name : String) :
    Except AggregateError (Option StoredGroup) × Pipeline :=
  p.onGroups (Aggregator.get p.settings.reconciler.retry name)

/-- What is known about a node. -/
def nodeSummary? (p : Pipeline) (name : String) : Except SumOverflow (Option NodeSummary) := do
  match p.inventory.nodes.get? name, ← p.inventory.nodeUsage? name with
  | some r, some usage =>
    let cost := (p.settings.engine.computeCost r.instanceType p.now).value
    pure
      (some { instanceType := r.instanceType, metric := r.metric, allocated := usage.allocated, cost })
  | _, _ => pure none

/-- The answer about a node. -/
def respondNode (p : Pipeline) (name : String) : Except SumOverflow Response := do
  match ← p.nodeSummary? name with
  | some n => pure { status := 200, body := .node n }
  | none => pure (.notFound ("node " ++ name ++ " not tracked"))

/-- The answer about the cost of a pod. -/
def respondPodCost (p : Pipeline) (key : String) : Except SumOverflow Response := do
  match ← p.inventory.podCost? p.settings.engine key p.now with
  | some cost => pure { status := 200, body := .cost cost.value }
  | none => pure (.notFound ("pod " ++ key ++ " not tracked"))

/-- The answer about what was asked for. -/
def respondTo (p : Pipeline) : Route → Except SumOverflow Response × Pipeline
  | .health => (.ok (.ofHealth p.health), p)
  | .readiness => (.ok (.ofReadiness p.health.readiness), p)
  | .metrics => (.ok { status := 200, body := .metrics p.metrics }, p)
  | .group name =>
    let (found, p) := p.lookUpGroup name
    (.ok (.ofGroup name .group found), p)
  | .groupCost name =>
    let (found, p) := p.lookUpGroup name
    let cost (g : StoredGroup) : Body := .cost (p.settings.engine.groupCost g.spec p.now)
    (.ok (.ofGroup name cost found), p)
  | .node name => (p.respondNode name, p)
  | .podCost ns name => (p.respondPodCost (ns ++ "/" ++ name), p)
  | .undecodable parameter =>
    let quote := String.singleton (Char.ofNat 0x60)
    let message := "Invalid URL: Invalid UTF-8 in " ++ quote ++ parameter ++ quote
    (.ok { status := 400, body := .text message }, p)

/-- The answer to a path. -/
def respond (p : Pipeline) (path : String) : Except SumOverflow Response × Pipeline :=
  match Route.ofPath? path with
  | some route => p.respondTo route
  | none => (.ok { status := 404, body := .empty }, p)

end Pipeline

end Chargeback
