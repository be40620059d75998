import LatencyReport.Picture
import LatencyReport.Proofs.Storage.Overwrite
import LatencyReport.Proofs.Storage.Runs

/-!
# `Proofs.Report.Plan` — runs as lists of steps

Most of what a report does is decided before it is done: which events are told, which directories are made, which files
are written with which content, and what is answered if one of these fails. Such a run **performs a plan**, a list of steps
that are taken one after the other until one fails (`Performs`). So what is said of the report as a whole is said of one
step, and then of lists of steps.

If all steps are taken, the latest file stands at every place that was written to (`Plan.read_of_isLatest`), and the steps
can be taken again on any later world with files at these places: they succeed again and put the same contents there
(`Plan.run_again`). If a step fails, the steps in front of it were taken and no other was (`Plan.exists_of_error`).
Either way a second run on the files that the first one left **ends as the first one did and leaves them as they are**
(`Plan.run_on_result_of_ok`, `Plan.run_on_result_of_error`).

## Contents

* `Step`, `Step.run`, `Plan.run` — steps, and lists of them;
* `Plan.files`, `Plan.dirs`, `Plan.events` — what they write, make and tell;
* `Performs` — runs that are lists of steps; `Performs.bind` and the lemmas for single steps;
* `Plan.growsBy_run`, `Plan.exists_told` — what a plan changes, and what it tells;
* `Plan.read_of_isLatest`, `Plan.run_again`, `Plan.exists_of_error` — plans that succeed, and plans that fail;
* `Plan.run_on_result_of_ok`, `Plan.run_on_result_of_error` — the second run.
-/

namespace LatencyReport

open Storage

/-! ## Steps -/

/-- A step of a run, with what is answered if it fails. The last kind of step always fails. -/
inductive Step where
  | tell (event : Event)
  | makeDir (dir : Path) (failure : OsError → Failure)
  | write (file : File) (failure : OsError → Failure)
  | stop (failure : Failure)

namespace Step

/-- Takes the step. -/
def run : Step → Run (Except Failure Unit)
  | tell event => do
    log event
    return .ok ()
  | makeDir dir failure => return (← makeDirs dir).mapError failure
  | write file failure => return (← writeFile file.1 file.2).mapError failure
  | stop failure => return .error failure

/-- The step with other answers to its failures. -/
def mapFailure (f : Failure → Failure) : Step → Step
  | tell event => .tell event
  | makeDir dir failure => .makeDir dir fun e => f (failure e)
  | write file failure => .write file fun e => f (failure e)
  | stop failure => .stop (f failure)

/-- The file that the step writes. -/
@[simp]
def file? : Step → Option File
  | write file _ => some file
  | tell _ | makeDir _ _ | stop _ => none

/-- The directory that the step makes. -/
@[simp]
def dir? : Step → Option Path
  | makeDir dir _ => some dir
  | tell _ | write _ _ | stop _ => none

/-- The event that the step tells. -/
@[simp]
def event? : Step → Option Event
  | tell event => some event
  | makeDir _ _ | write _ _ | stop _ => none

section
variable {w w' after : World} {f : Failure → Failure}

theorem run_tell (event : Event) (w : World) : (tell event).run w = (.ok (), w.told [event]) := rfl

theorem run_makeDir (dir : Path) (failure : OsError → Failure) (w : World) :
    (makeDir dir failure).run w = (((makeDirs dir : Run _) w).1.mapError failure, ((makeDirs dir : Run _) w).2) := rfl

theorem run_write (file : File) (failure : OsError → Failure) (w : World) :
    (write file failure).run w =
      match w.storage.write file.1 file.2 with
      | .error e => (.error (failure e), w)
      | .ok storage => (.ok (), { w with storage }) := by
  show (((w.change (w.storage.write file.1 file.2)).1.mapError failure), (w.change (w.storage.write file.1 file.2)).2) = _
  cases w.storage.write file.1 file.2 <;> rfl

theorem run_mapFailure (step : Step) (w : World) :
    (step.mapFailure f).run w = ((step.run w).1.mapError f, (step.run w).2) := by
  cases step with
  | tell event => rfl
  | makeDir dir failure =>
    rw [mapFailure, run_makeDir, run_makeDir]
    cases ((makeDirs dir : Run _) w).1 <;> rfl
  | write file failure =>
    rw [mapFailure, run_write, run_write]
    cases w.storage.write file.1 file.2 <;> rfl
  | stop failure => rfl

/-- What fails with another answer fails. -/
theorem error_of_mapFailure {step : Step} {failure : Failure} (h : ((step.mapFailure f).run w).1 = .error failure) :
    ∃ cause, (step.run w).1 = .error cause ∧ failure = f cause := by
  rw [run_mapFailure] at h
  cases hrun : (step.run w).1 with
  | error cause =>
    rw [hrun] at h
    exact ⟨cause, rfl, (Except.error.inj h).symm⟩
  | ok done =>
    rw [hrun] at h
    cases h

@[simp] theorem file?_mapFailure (step : Step) : (step.mapFailure f).file? = step.file? := by
  cases step <;> rfl

@[simp] theorem dir?_mapFailure (step : Step) : (step.mapFailure f).dir? = step.dir? := by
  cases step <;> rfl

theorem mapFailure_id (step : Step) : step.mapFailure (fun failure => failure) = step := by
  cases step <;> rfl

/-- A step that was taken has made its directory. -/
theorem isMade_of_run {dir : Path} {failure : OsError → Failure} (h : ((makeDir dir failure).run w).1 = .ok ()) :
    IsMade ((makeDir dir failure).run w).2.storage dir := by
  rw [run_makeDir] at h ⊢
  cases hmade : ((makeDirs dir : Run _) w).1 with
  | error e =>
    rw [hmade] at h
    cases h
  | ok done => exact isMade_of_makeDirs hmade

/-- A step that was taken has written its file. -/
theorem write_of_run {file : File} {failure : OsError → Failure} (h : ((write file failure).run w).1 = .ok ()) :
    ∃ storage, w.storage.write file.1 file.2 = .ok storage ∧
      (write file failure).run w = (.ok (), { w with storage }) := by
  rw [run_write] at h ⊢
  cases hwrite : w.storage.write file.1 file.2 with
  | error e =>
    rw [hwrite] at h
    cases h
  | ok storage => exact ⟨storage, rfl, rfl⟩

/-- A step that was taken has told its event, if it has one. -/
theorem journal_of_ok {step : Step} (h : (step.run w).1 = .ok ()) :
    (step.run w).2.journal = w.journal ++ step.event?.toList := by
  cases step with
  | tell event => rfl
  | makeDir dir failure => exact (attemptAt_makeDirs dir w).1.trans (List.append_nil _).symm
  | write file failure =>
    obtain ⟨storage, _, hrun⟩ := write_of_run h
    rw [hrun]
    exact (List.append_nil _).symm
  | stop failure => cases h

/-- A step that failed has told nothing. -/
theorem journal_of_error {step : Step} {cause : Failure} (h : (step.run w).1 = .error cause) :
    (step.run w).2.journal = w.journal := by
  cases step with
  | tell event => cases h
  | makeDir dir failure => exact (attemptAt_makeDirs dir w).1
  | write file failure =>
    rw [run_write]
    cases w.storage.write file.1 file.2 <;> rfl
  | stop failure => rfl

/-- Only the files decide what a step does, not what was told before. -/
theorem run_of_storage_eq (step : Step) (h : w'.storage = w.storage) :
    (step.run w').1 = (step.run w).1 ∧ (step.run w').2.storage = (step.run w).2.storage := by
  cases step with
  | tell event => exact ⟨rfl, h⟩
  | makeDir dir failure =>
    rw [run_makeDir, run_makeDir, makeDirs, makeDirsFrom_eq, makeDirsFrom_eq, h]
    exact ⟨rfl, rfl⟩
  | write file failure =>
    rw [run_write, run_write, h]
    cases w.storage.write file.1 file.2 <;> exact ⟨rfl, by simp [h]⟩
  | stop failure => exact ⟨rfl, h⟩

end

end Step

/-! ## Plans -/

namespace Plan

/-- Takes steps, one after the other, until one fails. -/
def run : List Step → Run (Except Failure Unit)
  | [] => pure (.ok ())
  | step :: rest => do
    match ← step.run with
    | .error failure => return .error failure
    | .ok () => run rest

/-- The files that are written if all steps are taken, in order. -/
def files (plan : List Step) : List File :=
  plan.filterMap Step.file?

/-- The directories that are made. -/
def dirs (plan : List Step) : List Path :=
  plan.filterMap Step.dir?

/-- The events that are told. -/
def events (plan : List Step) : List Event :=
  plan.filterMap Step.event?

section
variable {plan front back rest : List Step} {step : Step} {w : World} {f : Failure → Failure}

@[simp] theorem files_nil : files [] = [] := rfl

@[simp] theorem dirs_nil : dirs [] = [] := rfl

@[simp] theorem files_cons (step : Step) (rest : List Step) : files (step :: rest) = step.file?.toList ++ files rest := by
  cases step <;> rfl

@[simp] theorem dirs_cons (step : Step) (rest : List Step) : dirs (step :: rest) = step.dir?.toList ++ dirs rest := by
  cases step <;> rfl

@[simp] theorem files_append (front back : List Step) : files (front ++ back) = files front ++ files back :=
  List.filterMap_append

@[simp] theorem dirs_append (front back : List Step) : dirs (front ++ back) = dirs front ++ dirs back :=
  List.filterMap_append

@[simp] theorem events_cons (step : Step) (rest : List Step) :
    events (step :: rest) = step.event?.toList ++ events rest := by
  cases step <;> rfl

@[simp] theorem events_append (front back : List Step) : events (front ++ back) = events front ++ events back :=
  List.filterMap_append

@[simp] theorem files_mapFailure (plan : List Step) : files (plan.map (·.mapFailure f)) = files plan := by
  rw [files, List.filterMap_map]
  exact List.filterMap_congr fun step _ => step.file?_mapFailure

@[simp] theorem dirs_mapFailure (plan : List Step) : dirs (plan.map (·.mapFailure f)) = dirs plan := by
  rw [dirs, List.filterMap_map]
  exact List.filterMap_congr fun step _ => step.dir?_mapFailure

@[simp] theorem files_map_tell (told : List Event) : files (told.map .tell) = [] := by
  simp [files, List.filterMap_map, Function.comp_def]

@[simp] theorem dirs_map_tell (told : List Event) : dirs (told.map .tell) = [] := by
  simp [dirs, List.filterMap_map, Function.comp_def]

@[simp] theorem events_map_tell (told : List Event) : events (told.map .tell) = told := by
  simp [events, List.filterMap_map, Function.comp_def]

@[simp] theorem files_flatMap {α : Type} (plan : α → List Step) (xs : List α) :
    files (xs.flatMap plan) = xs.flatMap fun x => files (plan x) :=
  List.filterMap_flatMap

@[simp] theorem dirs_flatMap {α : Type} (plan : α → List Step) (xs : List α) :
    dirs (xs.flatMap plan) = xs.flatMap fun x => dirs (plan x) :=
  List.filterMap_flatMap

@[simp] theorem events_flatMap {α : Type} (plan : α → List Step) (xs : List α) :
    events (xs.flatMap plan) = xs.flatMap fun x => events (plan x) :=
  List.filterMap_flatMap

theorem run_cons_of_ok (h : (step.run w).1 = .ok ()) (rest : List Step) :
    run (step :: rest) w = run rest (step.run w).2 := by
  rw [run, bind_eq, h]

theorem run_cons_of_error {failure : Failure} (h : (step.run w).1 = .error failure) (rest : List Step) :
    run (step :: rest) w = (.error failure, (step.run w).2) := by
  rw [run, bind_eq, h]
  rfl

/-- Steps that were all taken began with one that was. -/
theorem ok_of_run_cons (h : (run (step :: rest) w).1 = .ok ()) :
    (step.run w).1 = .ok () ∧ (run rest (step.run w).2).1 = .ok () := by
  cases hstep : (step.run w).1 with
  | error failure =>
    rw [run_cons_of_error hstep] at h
    cases h
  | ok done =>
    rw [run_cons_of_ok hstep] at h
    exact ⟨rfl, h⟩

/-- **Behind steps that were taken, the run goes on from where they left.** -/
theorem run_append (front back : List Step) (w : World) :
    run (front ++ back) w =
      match (run front w).1 with
      | .error failure => (.error failure, (run front w).2)
      | .ok () => run back (run front w).2 := by
  induction front generalizing w with
  | nil => rfl
  | cons step rest ih =>
    rw [List.cons_append]
    cases hstep : (step.run w).1 with
    | error failure => rw [run_cons_of_error hstep, run_cons_of_error hstep]
    | ok done => rw [run_cons_of_ok hstep, run_cons_of_ok hstep, ih]

theorem run_mapFailure (plan : List Step) (w : World) :
    run (plan.map (·.mapFailure f)) w = ((run plan w).1.mapError f, (run plan w).2) := by
  induction plan generalizing w with
  | nil => rfl
  | cons step rest ih =>
    rw [List.map_cons]
    have hmapped := step.run_mapFailure (f := f) w
    cases hstep : (step.run w).1 with
    | error failure =>
      rw [hstep] at hmapped
      rw [run_cons_of_error hstep, run_cons_of_error (congrArg Prod.fst hmapped), hmapped]
      rfl
    | ok done =>
      rw [hstep] at hmapped
      rw [run_cons_of_ok hstep, run_cons_of_ok (congrArg Prod.fst hmapped), hmapped, ih]

end

end Plan

/-! ## Runs that perform plans -/

/-- **A run that performs a plan**: it does what the steps do, and answers `a` if all of them are taken. -/
def Performs {α : Type} (x : Run (Except Failure α)) (plan : List Step) (a : α) : Prop :=
  ∀ w, x w = ((Plan.run plan w).1.map fun _ => a, (Plan.run plan w).2)

section
variable {α β : Type} {x : Run (Except Failure α)} {a : α} {b : β} {front back : List Step}
  {g : Except Failure α → Run (Except Failure β)} {f : Failure → Failure}

theorem performs_pure (a : α) : Performs (pure (.ok a)) [] a :=
  fun _ => rfl

theorem performs_error (failure : Failure) (a : α) : Performs (pure (.error failure)) [.stop failure] a :=
  fun _ => rfl

/-- A run that succeeds has taken all steps. -/
theorem Performs.run_eq_ok (h : Performs x front a) {w : World} {answer : α} (hx : (x w).1 = .ok answer) :
    (Plan.run front w).1 = .ok () := by
  rw [h] at hx
  cases hrun : (Plan.run front w).1 with
  | ok done => rfl
  | error failure =>
    rw [hrun] at hx
    cases hx

/-- **A run that goes on performs one plan behind the other.** What it answers if the first one fails may differ. -/
theorem Performs.bind_map (hx : Performs x front a) (herror : ∀ failure, g (.error failure) = pure (.error (f failure)))
    (hok : Performs (g (.ok a)) back b) : Performs (x >>= g) (front.map (·.mapFailure f) ++ back) b := by
  intro w
  rw [bind_eq, hx, Plan.run_append, Plan.run_mapFailure]
  cases (Plan.run front w).1 with
  | error failure =>
    simp only [Except.map, Except.mapError, herror]
    rfl
  | ok done => exact hok _

theorem Performs.bind (hx : Performs x front a) (herror : ∀ failure, g (.error failure) = pure (.error failure))
    (hok : Performs (g (.ok a)) back b) : Performs (x >>= g) (front ++ back) b := by
  have hbind := hx.bind_map herror hok
  rwa [funext Step.mapFailure_id, List.map_id'] at hbind

/-- A run that goes on without another step. -/
theorem Performs.bind_pure (hx : Performs x front a) (herror : ∀ failure, g (.error failure) = pure (.error failure))
    (hok : g (.ok a) = pure (.ok b)) : Performs (x >>= g) front b := by
  have hbind := hx.bind herror (hok ▸ performs_pure b)
  rwa [List.append_nil] at hbind

theorem performs_log {next : Unit → Run (Except Failure β)} (event : Event) (hok : Performs (next ()) back b) :
    Performs (log event >>= next) (.tell event :: back) b := by
  intro w
  rw [bind_eq, log_eq, hok, Plan.run_cons_of_ok (Step.run_tell event w ▸ rfl), Step.run_tell]

theorem performs_tell {next : Unit → Run (Except Failure β)} (events : List Event) (hok : Performs (next ()) back b) :
    Performs (tell events >>= next) (events.map .tell ++ back) b := by
  intro w
  rw [bind_eq, tell_eq]
  induction events generalizing w with
  | nil =>
    rw [World.told_nil]
    exact hok w
  | cons event rest ih =>
    rw [List.map_cons, List.cons_append, Plan.run_cons_of_ok (Step.run_tell event w ▸ rfl), Step.run_tell, ← ih,
      World.told_told, List.singleton_append]

variable {next : Except OsError Unit → Run (Except Failure β)} {failure : OsError → Failure}

theorem performs_makeDirs {dir : Path} (herror : ∀ e, next (.error e) = pure (.error (failure e)))
    (hok : Performs (next (.ok ())) back b) : Performs (makeDirs dir >>= next) (.makeDir dir failure :: back) b := by
  intro w
  have hrun := Step.run_makeDir dir failure w
  rw [bind_eq]
  cases hmade : ((makeDirs dir : Run _) w).1 with
  | error e =>
    rw [hmade] at hrun
    rw [herror, Plan.run_cons_of_error (congrArg Prod.fst hrun), hrun]
    rfl
  | ok done =>
    rw [hmade] at hrun
    rw [hok, Plan.run_cons_of_ok (congrArg Prod.fst hrun), hrun]

theorem performs_writeFile {path : Path} {content : List UInt8}
    (herror : ∀ e, next (.error e) = pure (.error (failure e))) (hok : Performs (next (.ok ())) back b) :
    Performs (writeFile path content >>= next) (.write (path, content) failure :: back) b := by
  intro w
  have hrun := Step.run_write (path, content) failure w
  have hwrite : (writeFile path content : Run _) w = w.change (w.storage.write path content) := rfl
  simp only at hrun
  rw [bind_eq, hwrite]
  cases hstorage : w.storage.write path content with
  | error e =>
    rw [hstorage] at hrun
    rw [Plan.run_cons_of_error (congrArg Prod.fst hrun), hrun]
    exact congrFun (herror e) w
  | ok storage =>
    rw [hstorage] at hrun
    rw [Plan.run_cons_of_ok (congrArg Prod.fst hrun), hrun]
    exact hok _

end

theorem performs_makePlotDirs (dir : Path) : Performs (makePlotDirs [dir]) [.makeDir dir (.plotDir dir)] () :=
  performs_makeDirs (fun _ => rfl) (performs_pure ())

theorem performs_writePlotData (dir : Path) (stem : String) (values : Json) :
    Performs (writePlotData dir stem values)
      [.makeDir (plotDataDir dir) (.plotDir (plotDataDir dir)),
        .write (plotDataPath dir stem, Utf8.encode values.pretty.toList) (.plotData (plotDataPath dir stem))]
      (plotDataPath dir stem) :=
  (performs_makePlotDirs _).bind (fun _ => rfl) (performs_writeFile (fun _ => rfl) (performs_pure _))

/-! ## What a plan changes and tells -/

/-- A step changes its file and its directory only. -/
theorem Step.growsBy_run {files dirs : Path → Prop} (step : Step) (hfile : ∀ file ∈ step.file?, files file.1)
    (hdir : ∀ dir ∈ step.dir?, ∀ above ∈ dir.ancestors, dirs above) : GrowsBy files dirs step.run := by
  cases step with
  | tell event => exact (onlyReads_log event).growsBy.bind fun _ => (onlyReads_pure _).growsBy
  | makeDir dir failure => exact (growsBy_makeDirs (hdir dir rfl)).bind fun _ => (onlyReads_pure _).growsBy
  | write file failure => exact (growsBy_writeFile (hfile file rfl) _).bind fun _ => (onlyReads_pure _).growsBy
  | stop failure => exact (onlyReads_pure _).growsBy

namespace Plan

variable {plan front back rest : List Step} {step : Step} {w later : World} {failure : Failure}

/-- **A plan changes its files and directories only**, whether all steps are taken or not. -/
theorem growsBy_run {files dirs : Path → Prop} (hfiles : ∀ file ∈ Plan.files plan, files file.1)
    (hdirs : ∀ dir ∈ Plan.dirs plan, ∀ above ∈ dir.ancestors, dirs above) : GrowsBy files dirs (run plan) := by
  induction plan with
  | nil => exact (onlyReads_pure _).growsBy
  | cons step rest ih =>
    simp only [files_cons, dirs_cons, List.forall_mem_append, Option.mem_toList] at hfiles hdirs
    refine (step.growsBy_run hfiles.1 hdirs.1).bind fun answer => ?_
    cases answer with
    | error failure => exact (onlyReads_pure _).growsBy
    | ok done => exact ih hfiles.2 hdirs.2

theorem keeps_step (step : Step) (w : World) : Keeps w.storage (step.run w).2.storage := by
  have hgrows : GrowsBy (fun _ => True) (fun _ => True) step.run :=
    step.growsBy_run (fun _ _ => trivial) fun _ _ _ _ => trivial
  exact (hgrows w).keeps

theorem keeps_run (plan : List Step) (w : World) : Keeps w.storage (run plan w).2.storage := by
  have hgrows : GrowsBy (fun _ => True) (fun _ => True) (run plan) :=
    growsBy_run (fun _ _ => trivial) fun _ _ _ _ => trivial
  exact (hgrows w).keeps

/-- A directory that a plan makes first is there when all its steps were taken. -/
theorem isMade_of_run_cons {dir : Path} {f : OsError → Failure} (h : (run (.makeDir dir f :: rest) w).1 = .ok ()) :
    IsMade (run (.makeDir dir f :: rest) w).2.storage dir := by
  obtain ⟨hmade, _⟩ := ok_of_run_cons h
  rw [run_cons_of_ok hmade]
  exact (Step.isMade_of_run hmade).keeps (keeps_run rest _)

/-- **A plan tells a front part of its events.** -/
theorem exists_told (plan : List Step) (w : World) :
    ∃ told, told <+: events plan ∧ (run plan w).2.journal = w.journal ++ told := by
  induction plan generalizing w with
  | nil => exact ⟨[], List.nil_prefix, (List.append_nil _).symm⟩
  | cons step rest ih =>
    cases hstep : (step.run w).1 with
    | error failure =>
      rw [run_cons_of_error hstep]
      exact ⟨[], List.nil_prefix, by rw [Step.journal_of_error hstep, List.append_nil]⟩
    | ok done =>
      rw [run_cons_of_ok hstep]
      obtain ⟨told, htold, hjournal⟩ := ih (step.run w).2
      refine ⟨step.event?.toList ++ told, ?_, by rw [hjournal, Step.journal_of_ok hstep, List.append_assoc]⟩
      rw [events_cons, List.prefix_append_right_inj]
      exact htold

/-! ## Plans that succeed, and plans that fail -/

/-- **The latest files stand** when all steps were taken. -/
theorem read_of_isLatest (h : (run plan w).1 = .ok ()) {file : File} (hlatest : w.storage.IsLatest (files plan) file) :
    (run plan w).2.storage.read file.1 = .ok file.2 := by
  induction plan generalizing w with
  | nil => cases hlatest.mem
  | cons step rest ih =>
    obtain ⟨hstep, hrest⟩ := ok_of_run_cons h
    rw [run_cons_of_ok hstep]
    have htarget := (keeps_step step w).target
    have hbehind : w.storage.IsLatest (files rest) file →
        (run rest (step.run w).2).2.storage.read file.1 = .ok file.2 := by
      intro hlater
      refine ih hrest ?_
      unfold IsLatest at hlater ⊢
      simpa only [htarget] using hlater
    cases hfile : step.file? with
    | none =>
      rw [files, List.filterMap_cons_none hfile] at hlatest
      exact hbehind hlatest
    | some written =>
      rw [files, List.filterMap_cons_some hfile, isLatest_cons_iff] at hlatest
      rcases hlatest with ⟨rfl, hback⟩ | hlater
      · -- the rest is written elsewhere, so the file still stands at the end
        cases step with
        | write other failure =>
          obtain rfl : other = file := Option.some.inj hfile
          obtain ⟨storage, hwrite, hrun⟩ := Step.write_of_run hstep
          have hgrows : GrowsBy (fun path => ∃ file ∈ files rest, file.1 = path) (fun _ => True) (run rest) :=
            growsBy_run (fun file hfile => ⟨file, hfile, rfl⟩) fun _ _ _ _ => trivial
          refine (hgrows ((Step.write other failure).run w).2).read ?_ ?_
          · rw [hrun]
            exact read_of_write hwrite
          · rintro _ ⟨behind, hbehind, rfl⟩
            rw [htarget, htarget]
            exact hback behind hbehind
        | _ => cases hfile
      · exact hbehind hlater

/-- **Steps that were taken can be taken again**, on every later world that has all directories that they left and files,
    whatever is in them, where theirs stand. The same contents are put there. -/
theorem run_again (h : (run plan w).1 = .ok ()) (hkeeps : Keeps (run plan w).2.storage later.storage)
    (hfiles : ∀ file ∈ files plan, later.storage.IsFileAt (w.storage.target file.1)) :
    (run plan later).1 = .ok () ∧ (run plan later).2.storage = later.storage.overwrite (files plan) := by
  induction plan generalizing w later with
  | nil => exact ⟨rfl, rfl⟩
  | cons step rest ih =>
    obtain ⟨hstep, hrest⟩ := ok_of_run_cons h
    rw [run_cons_of_ok hstep] at hkeeps
    have hbetween : Keeps (step.run w).2.storage later.storage := (keeps_run rest _).trans hkeeps
    have htarget := (keeps_step step w).target
    -- a step that is taken again without a change is followed by the rest
    have hsame : step.file? = none → (step.run later).1 = .ok () → (step.run later).2.storage = later.storage →
        (run (step :: rest) later).1 = .ok () ∧
          (run (step :: rest) later).2.storage = later.storage.overwrite (files (step :: rest)) := by
      intro hnone hagain hstorage
      have hfilesEq : files (step :: rest) = files rest := List.filterMap_cons_none hnone
      rw [run_cons_of_ok hagain, hfilesEq]
      rw [hfilesEq] at hfiles
      have hkeeps' : Keeps (run rest (step.run w).2).2.storage (step.run later).2.storage := by rwa [hstorage]
      have hnext := ih hrest hkeeps' (by
        rw [hstorage]
        intro file hfile
        rw [htarget]
        exact hfiles file hfile)
      rwa [hstorage] at hnext
    cases step with
    | tell event => exact hsame rfl rfl rfl
    | makeDir dir failure =>
      have hmade : IsMade later.storage dir := (Step.isMade_of_run hstep).keeps hbetween
      have hrun : (Step.makeDir dir failure).run later = (.ok (), later) := by
        rw [Step.run_makeDir, makeDirs_of_isMade hmade]
        rfl
      exact hsame rfl (congrArg Prod.fst hrun) (by rw [hrun])
    | write file failure =>
      have hthere : later.storage.IsFileAt (w.storage.target file.1) := hfiles file List.mem_cons_self
      obtain ⟨storage, hwrite, hrun⟩ := Step.write_of_run hstep
      have hlater : Keeps w.storage later.storage := (keeps_step (.write file failure) w).trans hbetween
      let next : World := { later with storage := later.storage.put (w.storage.target file.1) (.file file.2) }
      have hagain : (Step.write file failure).run later = (.ok (), next) := by
        rw [Step.run_write, write_over hwrite hlater hthere]
      have hnextKeeps : Keeps (run rest ((Step.write file failure).run w).2).2.storage next.storage :=
        hkeeps.trans (hthere.keeps_put file.2)
      have hnext := ih hrest hnextKeeps (by
        intro other hother
        rw [htarget]
        exact hthere.put file.2 (hfiles other (List.mem_cons_of_mem _ hother)))
      rw [run_cons_of_ok (congrArg Prod.fst hagain), hagain]
      rw [show files (.write file failure :: rest) = file :: files rest from rfl, overwrite_cons, hlater.target]
      exact hnext
    | stop failure => cases hstep

/-- **The second run of steps that were taken** succeeds and leaves all as it is. -/
theorem run_on_result_of_ok (h : (run plan w).1 = .ok ()) (hlater : later.storage = (run plan w).2.storage) :
    (run plan later).1 = .ok () ∧ (run plan later).2.storage = later.storage := by
  have hkeeps := keeps_run plan w
  have hstands : ∀ file, w.storage.IsLatest (files plan) file →
      later.storage.kind? (w.storage.target file.1) = some (.file file.2) := by
    intro file hlatest
    obtain ⟨place, hlocate, hkind⟩ := read_eq_ok_iff.mp (read_of_isLatest h hlatest)
    rw [hlater, ← hkeeps.target, target_of_locate hlocate, hkind]
  have hfiles : ∀ file ∈ files plan, later.storage.IsFileAt (w.storage.target file.1) := by
    intro file hfile
    obtain ⟨latest, hlatest, hplace⟩ := exists_isLatest (s := w.storage) ⟨file, hfile, rfl⟩
    exact ⟨latest.2, hplace ▸ hstands latest hlatest⟩
  obtain ⟨hanswer, hstorage⟩ := run_again h (hlater ▸ ⟨rfl, fun _ h => h⟩) hfiles
  refine ⟨hanswer, hstorage.trans (overwrite_eq_self fun file hlatest => ?_)⟩
  have htarget : later.storage.target = w.storage.target := by
    funext path
    rw [hlater, hkeeps.target]
  rw [htarget]
  refine hstands file ?_
  unfold IsLatest at hlatest ⊢
  rwa [htarget] at hlatest

/-- **A plan that fails has a first step that fails.** The steps in front were taken, and those behind were not. -/
theorem exists_of_error (h : (run plan w).1 = .error failure) :
    ∃ front step back, plan = front ++ step :: back ∧ (run front w).1 = .ok () ∧
      step.run (run front w).2 = (.error failure, (run plan w).2) := by
  induction plan generalizing w with
  | nil => cases h
  | cons step rest ih =>
    cases hstep : (step.run w).1 with
    | error cause =>
      rw [run_cons_of_error hstep] at h ⊢
      cases h
      exact ⟨[], step, rest, rfl, rfl, Prod.ext hstep rfl⟩
    | ok done =>
      rw [run_cons_of_ok hstep] at h ⊢
      obtain ⟨front, stop, back, rfl, hfront, hstop⟩ := ih h
      refine ⟨step :: front, stop, back, rfl, ?_, ?_⟩
      · rwa [run_cons_of_ok hstep]
      · rwa [run_cons_of_ok hstep]

/-- **The second run of a plan that failed** fails with the same step, if that step changed nothing when it failed. -/
theorem run_on_result_of_error {after : World} (hfront : (run front w).1 = .ok ())
    (hstop : step.run (run front w).2 = (.error failure, after)) (hsame : after.storage = (run front w).2.storage)
    (hlater : later.storage = after.storage) (back : List Step) :
    (run (front ++ step :: back) later).1 = .error failure ∧
      (run (front ++ step :: back) later).2.storage = later.storage := by
  obtain ⟨hok, hstorage⟩ := run_on_result_of_ok hfront (hlater.trans hsame)
  have hagain : (run front later).2.storage = (run front w).2.storage := hstorage.trans (hlater.trans hsame)
  obtain ⟨hanswer, hleft⟩ := step.run_of_storage_eq hagain
  rw [hstop] at hanswer hleft
  rw [run_append, hok]
  simp only
  rw [run_cons_of_error hanswer]
  exact ⟨rfl, hleft.trans hlater.symm⟩

end Plan

/-- The values of a picture stand in their file once they were written. -/
theorem read_of_writePlotData {dir path : Path} {stem : String} {values : Json} {w : World}
    (h : ((writePlotData dir stem values : Run _) w).1 = .ok path) :
    ((writePlotData dir stem values : Run _) w).2.storage.read (plotDataPath dir stem) =
      .ok (Utf8.encode values.pretty.toList) := by
  have hperforms := performs_writePlotData dir stem values
  have hlatest : w.storage.IsLatest [(plotDataPath dir stem, Utf8.encode values.pretty.toList)]
      (plotDataPath dir stem, Utf8.encode values.pretty.toList) :=
    ⟨[], [], rfl, fun other hother => absurd hother List.not_mem_nil⟩
  have hread := Plan.read_of_isLatest (hperforms.run_eq_ok h) hlatest
  rw [hperforms w]
  exact hread

end LatencyReport
