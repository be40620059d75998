import LatencyReport.Proofs.Report.Steps
import Mathlib.Data.List.Perm.Basic

/-!
# `Proofs.Report.AnyOrder` — figures in any order

The figures of a comparison have nothing to do with each other, so their values can be written in any order, and one
job can go on between the steps of another: one makes the directory, another does and writes its file, the first writes
its own (`IsInterleaving`). Whatever the order, **the same files are left** (`values_any_order`). Pictures that are drawn
in between change nothing of that, since no picture lies where values do.

What is left is told by the files alone (`Leaves`): the directory is made by the first step and found by the others, and
each file lies where no other does, so writing it changes nothing that the others wrote (`Plan.leaves_run_makeDir`).

## Contents

* `JobStep`, `runStep`, `runSteps`, `IsInterleaving` — steps of jobs, and their orders;
* `Leaves`, `Leaves.kind?_eq`, `Plan.leaves_run_makeDir` — what plans leave whose files lie apart;
* `performs_runSteps`, `leaves_of_interleaving` — what the steps of jobs leave;
* `leaves_of_drawFigures` — what whole jobs leave, one after the other;
* `values_any_order` — all orders.
-/

namespace LatencyReport

open Storage

/-! ## Steps of jobs -/

/-- A step of the job that writes the values of a range: the directory is made, and then the file is written. -/
inductive JobStep where
  | makeDir (range : Range)
  | write (range : Range)
deriving DecidableEq

/-- The steps of one job, in their order. -/
def JobStep.ofRange (range : Range) : List JobStep :=
  [.makeDir range, .write range]

/-- The range whose values a step writes. -/
def JobStep.written? : JobStep → Option Range
  | .makeDir _ => none
  | .write range => some range

/-- The ranges whose values are written by steps. -/
def JobStep.written (steps : List JobStep) : List Range :=
  steps.filterMap JobStep.written?

@[simp]
theorem JobStep.written_makeDir (range : Range) (rest : List JobStep) :
    written (.makeDir range :: rest) = written rest := rfl

@[simp]
theorem JobStep.written_write (range : Range) (rest : List JobStep) :
    written (.write range :: rest) = range :: written rest := rfl

/-- **The steps of jobs in some order**: all of them, each job's own in their order. -/
structure IsInterleaving (ranges : List Range) (steps : List JobStep) : Prop where
  perm : steps.Perm (ranges.flatMap JobStep.ofRange)
  ordered : ∀ range ∈ ranges, (JobStep.ofRange range).Sublist steps

instance (ranges : List Range) (steps : List JobStep) : Decidable (IsInterleaving ranges steps) :=
  decidable_of_iff (steps.Perm (ranges.flatMap JobStep.ofRange) ∧
    ∀ range ∈ ranges, (JobStep.ofRange range).Sublist steps) ⟨fun h => ⟨h.1, h.2⟩, fun h => ⟨h.perm, h.ordered⟩⟩

namespace Comparison

/-- The file of a range: its path, and what is written there. -/
def valuesFile (c : Comparison) (d : Dataset) (dir : Path) (range : Range) : File :=
  (c.job d range).output dir

theorem valuesFile_path (c : Comparison) (d : Dataset) (dir : Path) (range : Range) :
    (c.valuesFile d dir range).1 = c.valuesPath dir range := rfl

theorem valuesFile_content (c : Comparison) (d : Dataset) (dir : Path) (range : Range) :
    (c.valuesFile d dir range).2 = Utf8.encode (c.figure d range).toJson.pretty.toList := by
  rw [valuesFile, FigureJob.output, job]

section
variable {m : Type → Type} [Monad m] [MonadFiles m]

/-- Takes a step of a job. -/
def runStep (c : Comparison) (d : Dataset) (dir : Path) : JobStep → m (Except Failure Unit)
  | .makeDir _ => makePlotDirs [plotDataDir dir]
  | .write range => do
    match ← writeFile (c.valuesFile d dir range).1 (c.valuesFile d dir range).2 with
    | .error cause => return .error (.plotData (c.valuesFile d dir range).1 cause)
    | .ok () => return .ok ()

/-- Takes steps, one after the other, until one fails. -/
def runSteps (c : Comparison) (d : Dataset) (dir : Path) : List JobStep → m (Except Failure Unit)
  | [] => pure (.ok ())
  | step :: rest => do
    match ← c.runStep d dir step with
    | .error failure => return .error failure
    | .ok () => c.runSteps d dir rest

end

end Comparison

/-! ## What plans leave -/

/-- **What becomes of a storage when files are written**: they stand where their paths lead, and at all other places
    stands what stood there. -/
structure Leaves (s : Storage) (files : List File) (s' : Storage) : Prop where
  keeps : Keeps s s'
  read : ∀ file ∈ files, s'.read file.1 = .ok file.2
  elsewhere : ∀ place, (∀ file ∈ files, place ≠ s.target file.1) → s'.kind? place = s.kind? place

section
variable {s s' s'' : Storage} {files others : List File}

/-- Of files that all lie apart each is the latest at its place. -/
theorem isLatest_of_pairwise (h : files.Pairwise fun a b => Apart a.1 b.1) {file : File} (hfile : file ∈ files) :
    s.IsLatest files file := by
  obtain ⟨front, back, rfl⟩ := List.append_of_mem hfile
  have hback := (List.pairwise_cons.mp (List.pairwise_append.mp h).2.1).1
  exact ⟨front, back, rfl, fun other hother => (hback other hother s).symm⟩

/-- Where a file was written, it stands. -/
theorem Leaves.kind?_target (h : Leaves s files s') {file : File} (hfile : file ∈ files) :
    s'.kind? (s.target file.1) = some (.file file.2) := by
  obtain ⟨place, hlocate, hthere⟩ := read_eq_ok_iff.mp (h.read file hfile)
  rwa [← h.keeps.target, target_of_locate hlocate]

/-- **What is left at a place is told by the files whose paths lead there**, not by the order in which they were written. -/
theorem Leaves.kind?_eq (h : Leaves s files s') (h' : Leaves s others s'') {place : Place}
    (hsame : ∀ file : File, s.target file.1 = place → (file ∈ files ↔ file ∈ others)) :
    s'.kind? place = s''.kind? place := by
  by_cases hplace : ∃ file ∈ files, s.target file.1 = place
  · obtain ⟨file, hfile, rfl⟩ := hplace
    rw [h.kind?_target hfile, h'.kind?_target ((hsame file rfl).mp hfile)]
  · have hnone : ∀ file ∈ files, place ≠ s.target file.1 := fun file hfile heq => hplace ⟨file, hfile, heq.symm⟩
    have hnone' : ∀ file ∈ others, place ≠ s.target file.1 :=
      fun file hfile heq => hplace ⟨file, (hsame file heq.symm).mpr hfile, heq.symm⟩
    rw [h.elsewhere place hnone, h'.elsewhere place hnone']

end

/-- Where a path leads is not changed by a directory that is made. -/
theorem target_makeDirs (path : Path) (w : World) : ((makeDirs path : Run _) w).2.storage.target = w.storage.target := by
  have hgrows : GrowsBy noPath (fun _ => True) (makeDirs path : Run _) := growsBy_makeDirs fun _ _ => trivial
  exact funext (hgrows w).keeps.target

namespace Plan

variable {plan rest : List Step} {w : World} {dir : Path} {f : OsError → Failure}

/-- Steps that find their directories make none. -/
theorem grows_run_of_isMade (hmade : ∀ dir ∈ dirs plan, IsMade w.storage dir) :
    Grows (fun path => ∃ file ∈ files plan, file.1 = path) noPath w.storage (run plan w).2.storage := by
  induction plan generalizing w with
  | nil => exact .refl _
  | cons step rest ih =>
    have hstep : Grows (fun path => ∃ file ∈ files (step :: rest), file.1 = path) noPath w.storage
        (step.run w).2.storage := by
      cases step with
      | tell event => exact .refl _
      | makeDir dir f =>
        rw [Step.run_makeDir, makeDirs_of_isMade (hmade dir List.mem_cons_self)]
        exact .refl _
      | write file f =>
        rw [Step.run_write]
        cases hwrite : w.storage.write file.1 file.2 with
        | error e => exact .refl _
        | ok storage => exact grows_of_write hwrite ⟨file, List.mem_cons_self, rfl⟩
      | stop failure => exact .refl _
    cases hanswer : (step.run w).1 with
    | error failure => rwa [run_cons_of_error hanswer]
    | ok done =>
      rw [run_cons_of_ok hanswer]
      refine hstep.trans ((ih fun dir hdir => ?_).mono ?_ fun _ h => h)
      · exact (hmade dir (by rw [dirs_cons]; exact List.mem_append_right _ hdir)).keeps (keeps_step step w)
      · rintro _ ⟨file, hfile, rfl⟩
        exact ⟨file, by rw [files_cons]; exact List.mem_append_right _ hfile, rfl⟩

/-- **Steps leave the files that they write**, if the first one makes the directory of all and no two files have one
    place. -/
theorem leaves_run_makeDir (hdirs : ∀ above ∈ dirs rest, above = dir)
    (hapart : (files rest).Pairwise fun a b => Apart a.1 b.1) (h : (run (.makeDir dir f :: rest) w).1 = .ok ()) :
    Leaves ((makeDirs dir : Run _) w).2.storage (files rest) (run (.makeDir dir f :: rest) w).2.storage := by
  obtain ⟨hfirst, hrest⟩ := ok_of_run_cons h
  rw [run_cons_of_ok hfirst]
  have hstart : ((Step.makeDir dir f).run w).2 = ((makeDirs dir : Run _) w).2 := rfl
  have hmade : ∀ above ∈ dirs rest, IsMade ((makeDirs dir : Run _) w).2.storage above := by
    intro above habove
    rw [hdirs above habove]
    exact Step.isMade_of_run hfirst
  rw [hstart] at hrest ⊢
  refine ⟨keeps_run rest _, fun file hfile => ?_, fun place hplace => ?_⟩
  · exact read_of_isLatest hrest (isLatest_of_pairwise hapart hfile)
  · rcases (grows_run_of_isMade hmade).stands place with hsame | ⟨⟨_, ⟨file, hfile, rfl⟩, heq⟩, _⟩ | ⟨⟨_, hnone, _⟩, _⟩
    · exact hsame
    · exact absurd heq (hplace file hfile)
    · exact hnone.elim

end Plan

/-! ## Orders of steps -/

section
variable {ranges : List Range} {steps : List JobStep}

theorem JobStep.written_flatMap (ranges : List Range) : written (ranges.flatMap ofRange) = ranges := by
  induction ranges with
  | nil => rfl
  | cons range rest ih =>
    show range :: written (rest.flatMap ofRange) = range :: rest
    rw [ih]

/-- Every range is written once. -/
theorem IsInterleaving.written_perm (h : IsInterleaving ranges steps) : (JobStep.written steps).Perm ranges := by
  have hperm := h.perm.filterMap JobStep.written?
  rwa [← JobStep.written, ← JobStep.written, JobStep.written_flatMap] at hperm

/-- **A directory is made first**, since no file is written twice. -/
theorem IsInterleaving.exists_cons (h : IsInterleaving ranges steps) (hne : ranges ≠ []) (hnodup : ranges.Nodup) :
    ∃ range rest, steps = .makeDir range :: rest := by
  have hwritten := h.written_perm
  cases steps with
  | nil => exact absurd hwritten.nil_eq.symm hne
  | cons step rest =>
    cases step with
    | makeDir range => exact ⟨range, rest, rfl⟩
    | write range =>
      -- the job's own directory would have to be made behind this, and its file be written once more
      rw [JobStep.written_write] at hwritten
      have hordered := h.ordered range (hwritten.subset List.mem_cons_self)
      have hagain : JobStep.write range ∈ rest := by
        cases hordered with
        | cons _ hrest => exact hrest.subset (List.mem_cons_of_mem _ List.mem_cons_self)
      have htwice : range ∈ JobStep.written rest := List.mem_filterMap.mpr ⟨_, hagain, rfl⟩
      exact absurd htwice (List.nodup_cons.mp (hwritten.nodup_iff.mpr hnodup)).1

end

namespace Comparison

variable {c : Comparison} {r : Renderer} {d : Dataset} {dir : Path} {w : World} {steps : List JobStep}

theorem ranges_ne_nil (c : Comparison) : c.ranges ≠ [] :=
  List.cons_ne_nil _ _

/-! ## What the steps of jobs leave -/

/-- A step of a job as a step of a plan. -/
def planStep (c : Comparison) (d : Dataset) (dir : Path) : JobStep → Step
  | .makeDir _ => .makeDir (plotDataDir dir) (.plotDir (plotDataDir dir))
  | .write range => .write (c.valuesFile d dir range) (.plotData (c.valuesFile d dir range).1)

theorem performs_runStep (c : Comparison) (d : Dataset) (dir : Path) (step : JobStep) :
    Performs (c.runStep d dir step) [c.planStep d dir step] () := by
  cases step with
  | makeDir range => exact performs_makePlotDirs (plotDataDir dir)
  | write range =>
    rw [runStep, planStep]
    generalize c.valuesFile d dir range = file
    exact performs_writeFile (fun _ => rfl) (performs_pure ())

theorem performs_runSteps (c : Comparison) (d : Dataset) (dir : Path) (steps : List JobStep) :
    Performs (c.runSteps d dir steps) (steps.map (c.planStep d dir)) () := by
  induction steps with
  | nil => exact performs_pure ()
  | cons step rest ih => exact (c.performs_runStep d dir step).bind (fun _ => rfl) ih

theorem files_planSteps (c : Comparison) (d : Dataset) (dir : Path) (steps : List JobStep) :
    Plan.files (steps.map (c.planStep d dir)) = (JobStep.written steps).map (c.valuesFile d dir) := by
  rw [Plan.files, JobStep.written, List.filterMap_map, List.map_filterMap]
  refine List.filterMap_congr fun step _ => ?_
  cases step <;> rfl

theorem eq_of_mem_dirs_planSteps {above : Path} (h : above ∈ Plan.dirs (steps.map (c.planStep d dir))) :
    above = plotDataDir dir := by
  rw [Plan.dirs, List.filterMap_map] at h
  obtain ⟨step, _, hstep⟩ := List.mem_filterMap.mp h
  cases step with
  | makeDir range => exact (Option.some.inj hstep).symm
  | write range => cases hstep

/-- **What is left by the steps of all jobs**: the directory, and the files. -/
theorem leaves_of_interleaving (hsteps : IsInterleaving c.ranges steps)
    (h : ((c.runSteps d dir steps : Run _) w).1 = .ok ()) :
    Leaves ((makeDirs (plotDataDir dir) : Run _) w).2.storage ((JobStep.written steps).map (c.valuesFile d dir))
      ((c.runSteps d dir steps : Run _) w).2.storage := by
  have hapart : ((JobStep.written steps).map (c.valuesFile d dir)).Pairwise fun a b => Apart a.1 b.1 :=
    List.pairwise_map.mpr ((hsteps.written_perm.nodup_iff.mpr c.nodup_ranges).imp (c.apart_valuesPath dir))
  have hperforms := c.performs_runSteps d dir steps
  replace h := hperforms.run_eq_ok h
  rw [hperforms w]
  obtain ⟨range, rest, rfl⟩ := hsteps.exists_cons c.ranges_ne_nil c.nodup_ranges
  rw [JobStep.written_makeDir, ← files_planSteps] at hapart ⊢
  exact Plan.leaves_run_makeDir (fun _ => eq_of_mem_dirs_planSteps) hapart h

/-! ## What whole jobs leave -/

/-- The files of a figure lie apart. -/
theorem pairwise_figureOutputs (c : Comparison) (r : Renderer) (d : Dataset) (dir : Path) (range : Range) :
    (c.figureOutputs r dir (c.job d range)).Pairwise fun a b => Apart a.1 b.1 := by
  unfold figureOutputs pictureOutputs
  cases (c.rendering r dir (c.job d range)).content? with
  | none => exact List.pairwise_singleton _ _
  | some content => exact List.pairwise_pair.mpr (c.apart_values_picture c dir range range)

/-- The files of two figures lie apart. -/
theorem apart_figureOutputs {a b : Range} (h : a ≠ b) {x y : File} (hx : x ∈ c.figureOutputs r dir (c.job d a))
    (hy : y ∈ c.figureOutputs r dir (c.job d b)) : Apart x.1 y.1 := by
  rcases List.mem_cons.mp hx with rfl | hx <;> rcases List.mem_cons.mp hy with rfl | hy
  · exact c.apart_valuesPath dir h
  · obtain ⟨_, _, rfl⟩ := List.mem_map.mp hy
    exact c.apart_values_picture c dir a b
  · obtain ⟨_, _, rfl⟩ := List.mem_map.mp hx
    exact fun s => (c.apart_values_picture c dir b a s).symm
  · obtain ⟨_, _, rfl⟩ := List.mem_map.mp hx
    obtain ⟨_, _, rfl⟩ := List.mem_map.mp hy
    exact c.apart_picturePath dir h

/-- Figures in some order are the jobs of the ranges in some order. -/
theorem exists_order {jobs : List FigureJob} (h : jobs.Perm (c.figures d)) :
    ∃ order : List Range, order.Perm c.ranges ∧ jobs = order.map (c.job d) := by
  have hjobs : List.Forall₂ (fun job range => job = c.job d range) (c.figures d) c.ranges :=
    List.forall₂_map_left_iff.mpr (List.forall₂_same.mpr fun _ _ => rfl)
  obtain ⟨order, horder, hperm⟩ := List.perm_comp_forall₂ h hjobs
  refine ⟨order, hperm, ?_⟩
  rw [← List.forall₂_eq_eq_eq, List.forall₂_map_right_iff]
  exact horder

/-- The files of whole jobs are those of the steps, and pictures. -/
theorem mem_drawn_iff {jobs : List FigureJob} (hjobs : jobs.Perm (c.figures d)) {file : File} :
    file ∈ jobs.flatMap (c.figureOutputs r dir) ↔
      (∃ range ∈ c.ranges, c.valuesFile d dir range = file) ∨ ∃ job ∈ jobs, file ∈ c.pictureOutputs r dir job := by
  simp only [List.mem_flatMap, figureOutputs, List.mem_cons, and_or_left, exists_or]
  refine or_congr_left ?_
  simp only [hjobs.mem_iff, figures, List.mem_map]
  constructor
  · rintro ⟨_, ⟨range, hrange, rfl⟩, rfl⟩
    exact ⟨range, hrange, rfl⟩
  · rintro ⟨range, hrange, rfl⟩
    exact ⟨_, ⟨range, hrange, rfl⟩, rfl⟩

/-- **What is left by whole jobs, one after the other**: the directory, the values and the pictures. -/
theorem leaves_of_drawFigures {jobs : List FigureJob} {pictures : List Path} (hjobs : jobs.Perm (c.figures d))
    (h : ((c.drawFigures r dir jobs : Run _) w).1 = .ok pictures) :
    Leaves ((makeDirs (plotDataDir dir) : Run _) w).2.storage (jobs.flatMap (c.figureOutputs r dir))
      ((c.drawFigures r dir jobs : Run _) w).2.storage := by
  have hperforms := c.performs_drawFigures r dir jobs
  replace h := hperforms.run_eq_ok h
  rw [hperforms w]
  have hdirs : ∀ above ∈ Plan.dirs (jobs.flatMap (c.figurePlan r dir)), above = plotDataDir dir := by
    intro above habove
    rw [Plan.dirs_flatMap] at habove
    obtain ⟨job, _, hjob⟩ := List.mem_flatMap.mp habove
    rwa [dirs_figurePlan, List.mem_singleton] at hjob
  have hfiles : Plan.files (jobs.flatMap (c.figurePlan r dir)) = jobs.flatMap (c.figureOutputs r dir) := by simp
  have hapart : (jobs.flatMap (c.figureOutputs r dir)).Pairwise fun a b => Apart a.1 b.1 := by
    obtain ⟨order, horder, rfl⟩ := exists_order hjobs
    rw [List.flatMap_map, List.pairwise_flatMap]
    refine ⟨fun range _ => c.pairwise_figureOutputs r d dir range, ?_⟩
    exact (horder.nodup_iff.mpr c.nodup_ranges).imp fun hne x hx y hy => apart_figureOutputs hne hx hy
  cases jobs with
  | nil => exact absurd hjobs.nil_eq (by simp [figures, ranges])
  | cons job rest =>
    rw [← hfiles] at hapart ⊢
    exact Plan.leaves_run_makeDir (fun above habove => hdirs above (List.mem_cons_of_mem _ habove)) hapart h

/-- **No two figures have one name, and so their values can be written in any order.** A name is that of one comparison
    and one range. Whatever the steps of a comparison's jobs come in between each other: if all of them succeed, every
    file stands at a place of its own and holds the values of its range; and any other order that succeeds leaves the
    same at every place. So do whole jobs one after the other, in any order and whatever draws their pictures, but for
    the places of the pictures; and two orders of whole jobs leave the same there, too. -/
theorem values_any_order :
    (∀ (c other : Comparison) (a b : Range), c.stem a = other.stem b ↔ c.name = other.name ∧ a = b) ∧
    ∀ (c : Comparison) (d : Dataset) (dir : Path) (w : World) (steps : List JobStep),
      IsInterleaving c.ranges steps → ((c.runSteps d dir steps : Run _) w).1 = .ok () →
        (c.ranges.Pairwise fun a b => Apart (c.valuesPath dir a) (c.valuesPath dir b)) ∧
        (∀ range ∈ c.ranges,
          ((c.runSteps d dir steps : Run _) w).2.storage.read (c.valuesPath dir range) =
            .ok (Utf8.encode (c.figure d range).toJson.pretty.toList)) ∧
        (∀ others, IsInterleaving c.ranges others → ((c.runSteps d dir others : Run _) w).1 = .ok () → ∀ place,
          ((c.runSteps d dir others : Run _) w).2.storage.kind? place =
            ((c.runSteps d dir steps : Run _) w).2.storage.kind? place) ∧
        ∀ (r : Renderer) jobs pictures, jobs.Perm (c.figures d) →
          ((c.drawFigures r dir jobs : Run _) w).1 = .ok pictures →
            (∀ place, (∀ job ∈ jobs, ∀ file ∈ c.pictureOutputs r dir job, place ≠ w.storage.target file.1) →
              ((c.drawFigures r dir jobs : Run _) w).2.storage.kind? place =
                ((c.runSteps d dir steps : Run _) w).2.storage.kind? place) ∧
            ∀ others pictures, others.Perm (c.figures d) → ((c.drawFigures r dir others : Run _) w).1 = .ok pictures →
              ∀ place, ((c.drawFigures r dir others : Run _) w).2.storage.kind? place =
                ((c.drawFigures r dir jobs : Run _) w).2.storage.kind? place := by
  refine ⟨fun c other a b => stem_eq_iff, fun c d dir w steps hsteps h => ⟨?_, ?_, ?_, ?_⟩⟩
  · exact c.nodup_ranges.imp (c.apart_valuesPath dir)
  · intro range hrange
    have hfile : c.valuesFile d dir range ∈ (JobStep.written steps).map (c.valuesFile d dir) :=
      List.mem_map_of_mem (hsteps.written_perm.mem_iff.mpr hrange)
    have hread := (leaves_of_interleaving hsteps h).read (c.valuesFile d dir range) hfile
    rwa [valuesFile_path, valuesFile_content] at hread
  · intro others hothers h' place
    have hperm := hothers.written_perm.trans hsteps.written_perm.symm
    exact (leaves_of_interleaving hothers h').kind?_eq (leaves_of_interleaving hsteps h)
      fun file _ => (hperm.map (c.valuesFile d dir)).mem_iff
  · intro r jobs pictures hjobs hdrawn
    have hleaves := leaves_of_drawFigures hjobs hdrawn
    refine ⟨fun place hplace => ?_, fun others pictures' hothers hdrawn' place => ?_⟩
    · refine hleaves.kind?_eq (leaves_of_interleaving hsteps h) fun file hfile => ?_
      rw [target_makeDirs] at hfile
      rw [mem_drawn_iff hjobs, List.mem_map, or_iff_left]
      · simp only [hsteps.written_perm.mem_iff]
      · rintro ⟨job, hjob, hpicture⟩
        exact hplace job hjob file hpicture hfile.symm
    · exact (leaves_of_drawFigures hothers hdrawn').kind?_eq hleaves
        fun file _ => ((hothers.trans hjobs.symm).flatMap_right _).mem_iff

/-- Three figures whose steps come in between each other. -/
theorem values_any_order_interleaved :
    let c : Comparison :=
      { name := "x_le_2KiB", title := "x", selections := [⟨.syncIo, none⟩], threshold := some 2048 }
    let d : Dataset := ⟨[]⟩
    let w : World := { storage := ⟨.dir [], []⟩ }
    let steps : List JobStep := [.makeDir (.above 2048), .makeDir .all, .write .all, .makeDir (.atMost 2048),
      .write (.above 2048), .write (.atMost 2048)]
    IsInterleaving c.ranges steps ∧ ((c.runSteps d (.ofString "plots") steps : Run _) w).1 = .ok () ∧
      ∀ range ∈ c.ranges,
        ((c.runSteps d (.ofString "plots") steps : Run _) w).2.storage.read (c.valuesPath (.ofString "plots") range) =
          .ok (Utf8.encode (c.figure d range).toJson.pretty.toList) := by
  intro c d w steps
  have hsteps : IsInterleaving c.ranges steps := by decide
  have hdone : ((c.runSteps d (.ofString "plots") steps : Run _) w).1 = .ok () := by decide +kernel
  exact ⟨hsteps, hdone, (values_any_order.2 c d _ w steps hsteps hdone).2.1⟩

end Comparison

end LatencyReport
