import Iac.Collections.SortedMap
import Iac.Controlplane.Secrets
import Mathlib.Data.List.Sort
import Mathlib.Data.String.Basic

open iac_controlplane.secrets iac_core serde_json

namespace iac_agent

/-- A row of `drift_events`; the diff stands for its JSON text. -/
structure DriftRow where
  id : Nat
  resource_id : String
  kind : String
  severity : String
  diff : Diff
  detected_at : String
  resolved_at : Option String := none
  resolution : Option String := none

def DriftRow.is_open (row : DriftRow) : Bool := row.resolved_at.isNone

/-- `WHERE resource_id = ? AND resolved_at IS NULL`. -/
def open_for (resource_id : String) (row : DriftRow) : Bool :=
  row.resource_id == resource_id && row.is_open

/-- The id that AUTOINCREMENT gives the next row; rows are not deleted. -/
def next_id (rows : List DriftRow) : Nat :=
  (rows.map DriftRow.id).foldl max 0 + 1

def DriftRow.bump (now severity : String) (diff : Diff) (row : DriftRow) : DriftRow :=
  { row with diff, severity, detected_at := now }

/-- The newest open drift of the resource is replaced, or a first one inserted. -/
def open_drift (now : String) (id : ResourceId) (severity : String) (diff : Diff) (rows : List DriftRow) :
    List DriftRow :=
  let newest := (rows.filter (open_for id.to_string)).insertionSort fun a b => b.detected_at ≤ a.detected_at
  match newest.head?.map DriftRow.id with
  | some row_id => rows.map fun row => if row.id == row_id then row.bump now severity diff else row
  | none => rows ++ [{ id := next_id rows, resource_id := id.to_string, kind := id.kind, severity, diff, detected_at := now }]

def close_open_drift_for (now : String) (id : ResourceId) (resolution : String) (rows : List DriftRow) : List DriftRow :=
  rows.map fun row =>
    if open_for id.to_string row then { row with resolved_at := some now, resolution := some resolution } else row

def list_open_drifts (rows : List DriftRow) : List DriftRow :=
  (rows.filter DriftRow.is_open).insertionSort fun a b => b.detected_at ≤ a.detected_at

structure DriftItem where
  resource_id : ResourceId
  severity : String
  detected_at : String
  diff : Diff

def drift_row_to_item (row : DriftRow) : Option DriftItem :=
  (ResourceId.parse row.resource_id).map fun rid => ⟨rid, row.severity, row.detected_at, row.diff⟩

/-- The drift items of the push after a cycle. -/
def drift_items (rows : List DriftRow) : List DriftItem :=
  (list_open_drifts rows).filterMap drift_row_to_item

def severity_for (diff : Diff) : String :=
  if diff.reversible then "warning" else "critical"

variable {Host : Type}

/-- What observing a resource ends with. -/
inductive Outcome where
  | failed (error : String)
  | clear
  | drift (diff : Diff)

/-- The providers of the agent by kind. -/
abbrev ProviderRegistry (Host : Type) := String → Option (Provider Host)

def observe_resource (registry : ProviderRegistry Host) (host : Host) (r : Resource) : Outcome :=
  match registry r.kind with
  | none => .failed (r.id.to_string ++ ": unknown kind: " ++ r.kind)
  | some provider =>
    match provider.observe host r with
    | .error e => .failed (r.id.to_string ++ ": observe failed: " ++ e)
    | .ok observed =>
      match provider.diff r observed with
      | .error e => .failed (r.id.to_string ++ ": diff failed: " ++ e)
      | .ok diff => if diff.is_change then .drift diff else .clear

structure ObserveCycleSummary where
  observed : Nat
  drift_detected : Nat
  errors : List String

/-- What a resource with the given outcome does to the rows and the summary. -/
def record_outcome (now : String) (r : Resource) (outcome : Outcome) (rows : List DriftRow)
    (summary : ObserveCycleSummary) : List DriftRow × ObserveCycleSummary :=
  match outcome with
  | .failed error => (rows, { summary with errors := summary.errors ++ [error] })
  | .clear => (close_open_drift_for now r.id "drift cleared" rows, summary)
  | .drift diff =>
    (open_drift now r.id (severity_for diff) diff rows, { summary with drift_detected := summary.drift_detected + 1 })

def observe_loop (registry : ProviderRegistry Host) (host : Host) (now : String) :
    List Resource → List DriftRow → ObserveCycleSummary → List DriftRow × ObserveCycleSummary
  | [], rows, summary => (rows, summary)
  | r :: resources, rows, summary =>
    let (rows, summary) := record_outcome now r (observe_resource registry host r) rows summary
    observe_loop registry host now resources rows summary

/-- The cycle over the resources, with the local store writable. -/
def observe_resources_blocking (registry : ProviderRegistry Host) (host : Host) (now : String)
    (resources : List Resource) (rows : List DriftRow) : List DriftRow × ObserveCycleSummary :=
  observe_loop registry host now resources rows ⟨resources.length, 0, []⟩

/-- Local manifests merged with the desired state of the server, which wins. -/
def observation_resources (manifests : List Resource) (desired_state : List Value) : List Resource :=
  ((manifests ++ desired_state.filterMap Resource.of_value).foldl
    (fun by_id r => sorted_map.upsert r.id.to_string (fun _ => r) by_id) []).map Prod.snd

/-- What the payload of an assignment does to the host, resource by resource. -/
def apply_payload (registry : ProviderRegistry Host) (payload : List Value) (host : Host) : Host :=
  (payload.filterMap Resource.of_value).foldl (fun host r =>
    match registry r.kind with
    | some provider => provider.apply r host
    | none => host) host

/-- The host after an assignment with these stored resources is dispatched and
applied. When a secret cannot be resolved nothing is dispatched. -/
def dispatched_host (registry : ProviderRegistry Host) (secrets : SecretRegistry) (stored : List Value) (host : Host) : Host :=
  match stored.mapM (resolve_resource secrets) with
  | .ok payload => apply_payload registry payload host
  | .error _ => host

end iac_agent
