import LaunchPad.OrderEvents

/-!
# Upcasting

The upcasters `EventSerializer` keeps, by the text of event type and versions, and `upcast`, which
takes an event's data through them. An upcaster is a function of the data; versions are integers.
-/

namespace LaunchPad

variable {D : Type}

abbrev UpcasterFn (D : Type) := D → D

/-- A call that changes the registry. -/
inductive RegistryCall (D : Type)
  | registerUpcaster (eventType : String) (fromVersion toVersion : ℤ) (upcaster : UpcasterFn D)
  | clearUpcasters

namespace EventSerializer

abbrev Upcasters (D : Type) := String → Option (UpcasterFn D)

/-- ``${eventType}:${fromVersion}->${toVersion}`` -/
def upcasterKey (eventType : String) (fromVersion toVersion : ℤ) : String :=
  eventType ++ ":" ++ toString fromVersion ++ "->" ++ toString toVersion

def registerUpcaster (eventType : String) (fromVersion toVersion : ℤ) (upcaster : UpcasterFn D)
    (upcasters : Upcasters D) : Upcasters D := fun key =>
  if key = upcasterKey eventType fromVersion toVersion then some upcaster else upcasters key

def clearUpcasters (_ : Upcasters D) : Upcasters D := fun _ => none

def change (upcasters : Upcasters D) : RegistryCall D → Upcasters D
  | .registerUpcaster eventType fromVersion toVersion upcaster =>
    registerUpcaster eventType fromVersion toVersion upcaster upcasters
  | .clearUpcasters => clearUpcasters upcasters

/-- The registry after these calls. -/
def registry (calls : List (RegistryCall D)) : Upcasters D := calls.foldl change fun _ => none

def noUpcaster (eventType : String) (currentVersion nextVersion : ℤ) : String :=
  "No upcaster registered for " ++ eventType ++ " from version " ++ toString currentVersion
    ++ " to " ++ toString nextVersion

/-- The loop of `upcast`. -/
def upcastLoop (upcasters : Upcasters D) (eventType : String) (targetVersion : ℤ)
    (currentVersion : ℤ) (currentData : D) : Except String D :=
  if currentVersion < targetVersion then
    let nextVersion := currentVersion + 1
    match upcasters (upcasterKey eventType currentVersion nextVersion) with
    | none => .error (noUpcaster eventType currentVersion nextVersion)
    | some upcaster =>
      upcastLoop upcasters eventType targetVersion nextVersion (upcaster currentData)
  else .ok currentData
termination_by (targetVersion - currentVersion).toNat
decreasing_by omega

/-- What is spread of no data is empty. -/
def upcast [EmptyCollection D] (upcasters : Upcasters D) (event : EventEnvelope D)
    (targetVersion : ℤ) : Except String (EventEnvelope D) :=
  (upcastLoop upcasters event.eventType targetVersion event.rest.version
      (event.rest.data.getD ∅)).map fun currentData =>
    { event with rest := { event.rest with version := targetVersion, data := some currentData } }

/-- `upcast` to one version after the other. -/
def upcastAll [EmptyCollection D] (upcasters : Upcasters D) :
    EventEnvelope D → List ℤ → Except String (EventEnvelope D)
  | event, [] => .ok event
  | event, targetVersion :: targets =>
    (upcast upcasters event targetVersion).bind fun event => upcastAll upcasters event targets

end EventSerializer

end LaunchPad
