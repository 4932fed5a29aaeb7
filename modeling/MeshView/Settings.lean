/-
# Settings

How many requests may wait, how many external reports may wait, and whether nodes are also asked
when only their cost is unknown.  Settings that are not given have defaults; both limits have to be
at least one.
-/

namespace MeshView

/-- The settings of a monitor. -/
structure Settings where
  /-- How many identities may wait for a request. -/
  fetchQueueCapacity : Nat := 256
  /-- How many external reports may wait to be applied. -/
  notificationBuffer : Nat := 1024
  /-- Ask nodes whose cost is unknown, not only those whose links are unknown. -/
  fetchCosts : Bool := true
deriving DecidableEq

/-- Why settings are refused. -/
inductive SettingsFault where
  | noFetchQueue
  | noBuffer
deriving DecidableEq

def SettingsFault.message : SettingsFault → String
  | .noFetchQueue => "invalid config: fetch_queue_capacity must be at least 1"
  | .noBuffer => "invalid config: notification_buffer must be at least 1"

namespace Settings

def standard : Settings := {}

/-- The first fault of the settings. -/
def fault? (s : Settings) : Option SettingsFault :=
  if s.fetchQueueCapacity = 0 then some .noFetchQueue
  else if s.notificationBuffer = 0 then some .noBuffer
  else none

end Settings
end MeshView
