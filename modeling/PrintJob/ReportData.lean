/-
# Reports as JSON

The JSON form of metadata, simulations and reports. Facts that are absent have no
field; the order of the fields is the one in which the record declares them.
-/
import PrintJob.Document
import PrintJob.Json.Value

namespace PrintJob

/-- The fields of a position. -/
def Position.toJson (p : Position) : Json :=
  .object [("x", .ofBinary64 p.x), ("y", .ofBinary64 p.y), ("z", .ofBinary64 p.z),
    ("e", .ofBinary64 p.e)]

/-- The fields of a simulation. -/
def Simulation.toJson (s : Simulation) : Json :=
  .object [
    ("seconds", .ofBinary64 s.seconds),
    ("distanceMm", .ofBinary64 s.distance),
    ("moves", .ofNat s.moves),
    ("finalPosition", s.finalPosition.toJson),
    ("finalFeedRate", .ofBinary64 s.finalFeedRate)]

/-- The fields of those facts that are present. -/
def Metadata.toJson (m : Metadata) : Json :=
  .object (Json.present [
    ("flavor", m.flavor.map .string),
    ("estimatedTime", m.estimatedTime.map fun seconds => .ofNat seconds.toNat),
    ("filamentUsed", m.filamentUsed.map .ofBinary64),
    ("layerHeight", m.layerHeight.map .ofBinary64)])

/-- The fields of a report; the simulation is the last and may be absent. -/
def Report.toJson (r : Report) : Json :=
  .object (Json.present [
    ("metadata", some r.metadata.toJson),
    ("layerCount", some (.ofNat r.layerCount)),
    ("estimatedSeconds", some (.ofNat r.estimatedSeconds.toNat)),
    ("timeSource", some (.string r.timeSource.name)),
    ("simulation", r.simulation.map Simulation.toJson)])

end PrintJob
