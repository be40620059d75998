import LatencyReport.Config

/-!
# `Config.BuiltIn` — the report that is made without being asked

Without a configuration a report has six plots: all mechanisms and phases, the asynchronous ones with the mechanisms
that compete with them, what it takes to register and to complete a write, round trips, and the two remote
mechanisms side by side.
-/

namespace LatencyReport.Config

/-- A selection of some phases. -/
def only (label : Label) (phases : List Phase) : Selection := ⟨label, some phases⟩

/-- A selection of all phases. -/
def whole (label : Label) : Selection := ⟨label, none⟩

/-- The plots of the built-in configuration. -/
def builtInPlots : List Comparison :=
  [{ name := "all_conditions"
     title := "Time spent by threads for I/O"
     selections := Label.all.map whole
     threshold := some 2048 },
   { name := "removed_conditions"
     title := "Time spent by threads for I/O (Conditions Removed)"
     selections :=
       [whole .asyncIo, whole .asyncIoSync, whole .asyncIoDsync, only .mmapIo [.memcpy], whole .rdmaSendRecv,
        whole .rdmaSendRecvC]
     threshold := some 65536 },
   { name := "write_registered"
     title := "Time to register a write"
     selections :=
       [only .syncIo [.write], only .asyncIo [.initiation], only .asyncIoSync [.writeRegistered],
        only .asyncIoDsync [.writeRegistered], only .mmapIo [.memcpy], only .rdmaSendRecv [.beforeWait]]
     threshold := some 16384 },
   { name := "write_completed"
     title := "Time to complete a write"
     selections :=
       [only .syncIo [.write], only .asyncIo [.fsync], only .asyncIoSync [.fsyncCompleted],
        only .asyncIoDsync [.fsyncCompleted], only .mmapIo [.msync], only .rdmaSendRecv [.afterWait]]
     threshold := some 16384 },
   { name := "round_trip"
     title := "Full round trip"
     selections := [only .rdmaSendRecv [.rtt], only .rdmaSendRecvC [.rtt]]
     threshold := some 16384 },
   { name := "c_and_cpp_comparison"
     title := "RDMA send/recv latency, C++ vs C wrapper"
     selections := [whole .rdmaSendRecv, whole .rdmaSendRecvC] }]

/-- The configuration of a report that is made without being asked. -/
def builtIn : Config where
  name := "io-latency"
  plots := builtInPlots

end LatencyReport.Config
