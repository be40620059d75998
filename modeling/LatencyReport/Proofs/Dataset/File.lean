import LatencyReport.Dataset

/-!
# `Proofs.Dataset.File` — files are read one by one

Reading a results file gives a row or a cause why it gives none, and tells events; **both are decided by the path and
the content alone** (`fileRow`, `fileEvents`). A run over many files tells what the files tell, one after the other,
and has the rows that they give (`addFiles_eq`); the files themselves stay as they are.

## Contents

* `World.told` — the world after more events; `bind_eq`, `tell_eq` — runs, step by step;
* `fileRow`, `fileEvents` — one file; `addFiles_cons` — one file of many;
* `addFiles_eq`, `onlyFiles_eq` — all files.
-/

namespace LatencyReport

/-! ## Runs, step by step -/

/-- The world after more events were told. -/
def World.told (w : World) (events : List Event) : World :=
  { w with journal := w.journal ++ events }

@[simp] theorem World.told_told (w : World) (front back : List Event) :
    (w.told front).told back = w.told (front ++ back) := by
  simp [World.told]

@[simp] theorem World.told_nil (w : World) : w.told [] = w := by
  simp [World.told]

variable {α β : Type}

/-- A run that goes on starts from the world that the first run leaves. -/
theorem bind_eq (x : Run α) (f : α → Run β) (w : World) : (x >>= f) w = f (x w).1 (x w).2 := rfl

theorem pure_eq (a : α) (w : World) : (pure a : Run α) w = (a, w) := rfl

theorem log_eq (event : Event) (w : World) : (log event : Run Unit) w = ((), w.told [event]) := rfl

theorem readFile_eq (path : Path) (w : World) : (readFile path : Run _) w = (w.storage.read path, w) := rfl

/-- Many events are told as they stand. -/
theorem tell_eq (events : List Event) (w : World) : (tell events : Run Unit) w = ((), w.told events) := by
  induction events generalizing w with
  | nil => rw [tell, pure_eq, World.told_nil]
  | cons event rest ih => rw [tell, bind_eq, log_eq, ih, World.told_told, List.singleton_append]

/-! ## One file -/

/-- The row that a file gives, or why it gives none. -/
def fileRow (path : Path) (content : List UInt8) : Except FileError Row :=
  match Dataset.experimentOf path with
  | .error cause => .error cause
  | .ok experiment =>
    match (Records.parse path content).records? with
    | none => .error (.noHeader path)
    | some records => .ok (.ofRecords experiment records)

/-- What is told of a file: of its rows if its name tells an experiment, and of itself. -/
def fileEvents (path : Path) (content : List UInt8) : List Event :=
  match Dataset.experimentOf path with
  | .error cause => [Dataset.skipEvent cause]
  | .ok experiment =>
    (Records.parse path content).events path ++
      match (Records.parse path content).records? with
      | none => [Dataset.skipEvent (.noHeader path)]
      | some records => (Row.ofRecords experiment records).events records.path

/-- The table of a file that can be read. -/
theorem readRecords_eq {path : Path} {content : List UInt8} {w : World} (h : w.storage.read path = .ok content) :
    (readRecords path : Run _) w =
      (match (Records.parse path content).records? with
        | none => .error (.noHeader path)
        | some records => .ok records,
        w.told ((Records.parse path content).events path)) := by
  unfold readRecords
  rw [bind_eq, readFile_eq, h]
  simp only [bind_eq, tell_eq]
  cases (Records.parse path content).records? <;> rfl

/-- **One file of many** gives its row or is counted, and tells its events. -/
theorem addFiles_cons {path : Path} {content : List UInt8} {w : World} (h : w.storage.read path = .ok content)
    (d : Dataset) (skipped : Nat) (rest : List Path) :
    (d.addFiles skipped (path :: rest) : Run _) w =
      match fileRow path content with
      | .ok row => ((d.add row).addFiles skipped rest : Run _) (w.told (fileEvents path content))
      | .error _ => (d.addFiles (skipped + 1) rest : Run _) (w.told (fileEvents path content)) := by
  rw [Dataset.addFiles, bind_eq]
  unfold Dataset.addFile fileRow fileEvents
  cases Dataset.experimentOf path with
  | error cause => simp only [pure_eq, bind_eq, log_eq]
  | ok experiment =>
    simp only [bind_eq, readRecords_eq h]
    cases (Records.parse path content).records? with
    | none => simp only [pure_eq, bind_eq, log_eq, World.told_told]
    | some records => simp only [Dataset.addRecords, pure_eq, bind_eq, tell_eq, World.told_told]

/-! ## Many files -/

/-- A file: its path and its content. -/
abbrev File := Path × List UInt8

/-- The row that a file gives, if it is of use. -/
def fileRow? (file : File) : Option Row :=
  (fileRow file.1 file.2).toOption

/-- What is told of files. -/
def filesEvents (files : List File) : List Event :=
  files.flatMap fun file => fileEvents file.1 file.2

/-- How many files give no row. -/
def countUseless (files : List File) : Nat :=
  files.countP fun file => (fileRow? file).isNone

/-- **All files**: the rows that they give, how many give none, and what they tell. -/
theorem addFiles_eq {files : List File} {w : World} (h : ∀ file ∈ files, w.storage.read file.1 = .ok file.2)
    (d : Dataset) (skipped : Nat) :
    (d.addFiles skipped (files.map (·.1)) : Run _) w =
      ((⟨d.rows ++ files.filterMap fileRow?⟩, skipped + countUseless files), w.told (filesEvents files)) := by
  -- each file starts from the world, the rows and the count that the files before it leave
  induction files generalizing w d skipped with
  | nil => simp [Dataset.addFiles, pure_eq, countUseless, filesEvents]
  | cons file rest ih =>
    have hfile := h file List.mem_cons_self
    have hrest : ∀ other ∈ rest, (w.told (fileEvents file.1 file.2)).storage.read other.1 = .ok other.2 :=
      fun other hother => h other (List.mem_cons_of_mem _ hother)
    have hevents : filesEvents (file :: rest) = fileEvents file.1 file.2 ++ filesEvents rest := List.flatMap_cons
    rw [List.map_cons, addFiles_cons hfile, hevents, ← World.told_told]
    cases hrow : fileRow file.1 file.2 with
    | ok row =>
      have hsome : fileRow? file = some row := by rw [fileRow?, hrow]; rfl
      have hcount : countUseless (file :: rest) = countUseless rest := List.countP_cons_of_neg (by simp [hsome])
      simp only [ih hrest]
      rw [List.filterMap_cons_some hsome, hcount, Dataset.add, List.append_assoc, List.singleton_append]
    | error cause =>
      have hnone : fileRow? file = none := by rw [fileRow?, hrow]; rfl
      have hcount : countUseless (file :: rest) = countUseless rest + 1 := List.countP_cons_of_pos (by simp [hnone])
      simp only [ih hrest]
      rw [List.filterMap_cons_none hnone, hcount, Nat.add_assoc, Nat.add_comm 1]

/-- The files among paths are those that lead to files. -/
theorem onlyFiles_eq (paths : List Path) (w : World) :
    (Dataset.onlyFiles paths : Run _) w = (paths.filter w.storage.isFile, w) := by
  induction paths with
  | nil => rfl
  | cons path rest ih =>
    have hpath : (isFile path : Run Bool) w = (w.storage.isFile path, w) := rfl
    rw [Dataset.onlyFiles, bind_eq, hpath, bind_eq, ih, pure_eq]
    cases hfile : w.storage.isFile path <;> simp [hfile]

/-- A file is of use or it is not. -/
theorem length_filterMap_fileRow?_add (files : List File) :
    (files.filterMap fileRow?).length + countUseless files = files.length := by
  induction files with
  | nil => rfl
  | cons file rest ih =>
    rw [countUseless] at ih ⊢
    cases hrow : fileRow? file with
    | none =>
      rw [List.filterMap_cons_none hrow, List.countP_cons_of_pos (by simp [hrow]), List.length_cons]
      omega
    | some row =>
      rw [List.filterMap_cons_some hrow, List.countP_cons_of_neg (by simp [hrow]), List.length_cons, List.length_cons]
      omega

end LatencyReport
