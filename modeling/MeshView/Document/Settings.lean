/-
# Settings in documents
-/

import MeshView.Document
import MeshView.Json
import MeshView.Settings

namespace MeshView
namespace Settings

def fieldNames : List String := ["fetch_queue_capacity", "notification_buffer", "fetch_costs"]

/-- Reads settings; a field that is not given takes its standard value. -/
def read? {α : Type} (source : Source α) (v : α) : Option Settings := do
  match ← source.fields? fieldNames v with
  | [capacity, buffer, costs] =>
    return {
      fetchQueueCapacity :=
        ← orElse standard.fetchQueueCapacity (source.below? UInt64.size) capacity
      notificationBuffer :=
        ← orElse standard.notificationBuffer (source.below? UInt64.size) buffer
      fetchCosts := ← orElse standard.fetchCosts source.truth? costs }
  | _ => none

def toJson (s : Settings) : Json := .record [
  ("fetch_queue_capacity", .natural s.fetchQueueCapacity),
  ("notification_buffer", .natural s.notificationBuffer),
  ("fetch_costs", .bool s.fetchCosts)]

end Settings
end MeshView
