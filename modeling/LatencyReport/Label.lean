import LatencyReport.Phase

/-!
# `Label` — the I/O mechanism that a results file measures

A label names a mechanism. It has **two spellings**: its name, which reports show, and its stem, which starts
the names of its files. The two differ for the asynchronous mechanisms that open their file with a sync flag.
Each mechanism measures its own phases; a column for any other phase says nothing about it.

## Contents

* `Label`, `Label.all` — the mechanisms in their order;
* `Label.name`, `Label.ofName?` — the name, and back;
* `Label.stem`, `Label.ofStem?` — the start of its file names, and back;
* `Label.phases` — what it measures, in the order in which it does.
-/

namespace LatencyReport

/-- The I/O mechanism that a results file was produced by. -/
inductive Label where
  | syncIo
  | asyncIo
  | asyncIoSync
  | asyncIoDsync
  | mmapIo
  | rdmaSendRecv
  | rdmaSendRecvC
deriving DecidableEq, Repr

namespace Label

/-- Every label, in order. -/
def all : List Label :=
  [syncIo, asyncIo, asyncIoSync, asyncIoDsync, mmapIo, rdmaSendRecv, rdmaSendRecvC]

/-- The name that reports show. -/
def name : Label → String
  | syncIo => "sync_io"
  | asyncIo => "async_io"
  | asyncIoSync => "async io - O_SYNC"
  | asyncIoDsync => "async io - O_DSYNC"
  | mmapIo => "mmap_io"
  | rdmaSendRecv => "rdma_send_recv"
  | rdmaSendRecvC => "rdma_send_recv_c"

/-- What stands before the message size in the names of its files. -/
def stem : Label → String
  | asyncIoSync => "async_io_sync_elapsed_time"
  | asyncIoDsync => "async_io_dsync_elapsed_time"
  | label => label.name

/-- The label with this name. -/
def ofName? (name : String) : Option Label :=
  all.find? (·.name == name)

/-- The label with this stem. -/
def ofStem? (stem : String) : Option Label :=
  all.find? (·.stem == stem)

/-- The phases that the mechanism measures. -/
def phases : Label → List Phase
  | syncIo => [.write]
  | asyncIo => [.initiation, .write, .fsync]
  | asyncIoSync | asyncIoDsync =>
    [.writeRegistered, .writeCompleted, .fsyncRegistered, .fsyncCompleted, .nonBlocking]
  | mmapIo => [.memcpy, .msync]
  | rdmaSendRecv | rdmaSendRecvC => [.beforeWait, .afterWait, .rtt]

theorem mem_all (l : Label) : l ∈ all := by
  cases l <;> decide

end Label

end LatencyReport
