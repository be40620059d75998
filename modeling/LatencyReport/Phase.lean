/-!
# `Phase` — the separately timed stages of an operation

A benchmark times one operation in stages. Each stage is a **phase**, and a results file has one column per
phase, headed by the phase's own name. The order in which the phases are declared is the order in which every
table and every text lists them.

## Contents

* `Phase`, `Phase.all` — the phases in their order;
* `Phase.column`, `Phase.ofColumn?`, `Phase.parse` — the column's name, and back;
* `PhaseMap` — at most one value per phase.
-/

namespace LatencyReport

/-- A separately timed stage of one operation. -/
inductive Phase where
  | write
  | initiation
  | fsync
  | flush
  | memcpy
  | msync
  | writeRegistered
  | writeCompleted
  | fsyncRegistered
  | fsyncCompleted
  | nonBlocking
  | beforeWait
  | afterWait
  | rtt
deriving DecidableEq, Repr

namespace Phase

/-- Every phase, in order. -/
def all : List Phase :=
  [write, initiation, fsync, flush, memcpy, msync, writeRegistered, writeCompleted, fsyncRegistered,
   fsyncCompleted, nonBlocking, beforeWait, afterWait, rtt]

/-- The name of the phase, which heads its column. -/
def column : Phase → String
  | write => "write_duration_nsec"
  | initiation => "initiation_duration_nsec"
  | fsync => "fsync_duration_nsec"
  | flush => "flush_duration_nsec"
  | memcpy => "memcpy_duration_nsec"
  | msync => "msync_duration_nsec"
  | writeRegistered => "elapsed_after_write_registered_nsec"
  | writeCompleted => "elapsed_after_write_completed_nsec"
  | fsyncRegistered => "elapsed_after_fsync_registered_nsec"
  | fsyncCompleted => "elapsed_after_fsync_completed_nsec"
  | nonBlocking => "non_blocking_time_nsec"
  | beforeWait => "before wait"
  | afterWait => "after wait"
  | rtt => "rtt"

/-- The place of the phase in the order. -/
def index (p : Phase) : Fin 14 :=
  ⟨p.ctorIdx, by cases p <;> decide⟩

/-- The phase with this name. -/
def ofColumn? (name : String) : Option Phase :=
  all.find? (·.column == name)

/-- The name of a column that is no phase's. -/
structure Unknown where
  name : String
deriving DecidableEq, Repr

/-- What is said of such a name. -/
def Unknown.message (u : Unknown) : String :=
  "Unknown phase column " ++ u.name

/-- The phase with this name, or the name. -/
def parse (name : String) : Except Unknown Phase :=
  match ofColumn? name with
  | some phase => .ok phase
  | none => .error ⟨name⟩

theorem mem_all (p : Phase) : p ∈ all := by
  cases p <;> decide

/-- The index counts the phases in their order. -/
theorem all_index (p : Phase) : all[p.index.val]? = some p := by
  cases p <;> rfl

end Phase

/-- At most one value for each phase. -/
structure PhaseMap (α : Type) where
  cells : Vector (Option α) 14

namespace PhaseMap

variable {α : Type}

/-- The value of a phase, if it has one. -/
def get? (m : PhaseMap α) (p : Phase) : Option α :=
  m.cells[p.index]

/-- The map with the values that `f` gives. -/
def ofFn (f : Phase → Option α) : PhaseMap α :=
  ⟨Vector.ofFn fun i => f (Phase.all[i])⟩

/-- The phases that have a value, in order, each with its value. -/
def toList (m : PhaseMap α) : List (Phase × α) :=
  Phase.all.filterMap fun p => (m.get? p).map (p, ·)

@[simp] theorem get?_ofFn (f : Phase → Option α) (p : Phase) : (ofFn f).get? p = f p := by
  simp only [get?, ofFn, Fin.getElem_fin, Vector.getElem_ofFn]
  congr 1
  have h := Phase.all_index p
  rw [List.getElem?_eq_some_iff] at h
  exact h.2

/-- A phase is listed with a value exactly when that is its value. -/
theorem mem_toList {m : PhaseMap α} {p : Phase} {x : α} : (p, x) ∈ m.toList ↔ m.get? p = some x := by
  simp only [toList, List.mem_filterMap, Option.map_eq_some_iff, Prod.mk.injEq]
  constructor
  · rintro ⟨q, _, y, hy, rfl, rfl⟩
    exact hy
  · exact fun h => ⟨p, Phase.mem_all p, x, h, rfl, rfl⟩

end PhaseMap

end LatencyReport
