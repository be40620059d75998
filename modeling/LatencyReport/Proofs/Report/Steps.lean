import LatencyReport.Proofs.Plot.Sequence
import LatencyReport.Proofs.Report.Outputs
import LatencyReport.Proofs.Report.Plan
import LatencyReport.Proofs.Report.Stages

/-!
# `Proofs.Report.Steps` — the steps of a report

Once its results are read, a report **performs a plan** (`Config.performs_finish`): the table, and for each plot the steps
of its figures, one figure after the other. The plan of a figure writes the values before anything is put into the picture's
file, and it ends there if the picture could not be drawn, whatever the renderer left in the file.

So what a report changes and tells is read off the plan. It writes its own files and makes its own directories
(`Config.growsBy_report`), and a plot does not tell that a plot was drawn (`Comparison.tellsOtherwise_toPlot`): that is told
behind it, once for each plot that was drawn.

## Contents

* `picturePlan`, `Comparison.figurePlan`, `Comparison.plan`, `Comparison.plotPlan` — the plan of a plot;
* `Config.summaryPlan`, `Config.plotsPlan`, `Config.plan` — the plan of a report;
* `performs_drawPicture`, …, `Comparison.performs_draw`, `Plot.performs_runFrom`, `Config.performs_finish` — that it is
  performed;
* `Config.files_plan`, `Config.growsBy_report` — what a report changes;
* `Comparison.tellsOtherwise_toPlot` — what a plot tells.
-/

namespace LatencyReport

open Storage

/-! ## The plan of a plot -/

/-- The plan of a picture: something may be put into its file, and it may have failed. -/
def picturePlan (r : Renderer) (path : Path) (picture : Picture) : List Step :=
  let rendering := r.render path picture
  (rendering.content?.toList.map fun content =>
    .write (path, content) fun cause => rendering.failure?.getD (r.complain path cause)) ++
    rendering.failure?.toList.map .stop

theorem performs_drawPicture (r : Renderer) (path : Path) (picture : Picture) :
    Performs (drawPicture r path picture) (picturePlan r path picture) () := by
  have hanswer : ∀ rendering : Rendering,
      Performs (pure rendering.answer) (rendering.failure?.toList.map .stop) () := by
    rintro ⟨content?, _ | failure⟩
    · exact performs_pure ()
    · exact performs_error failure ()
  unfold drawPicture picturePlan
  cases hcontent : (r.render path picture).content? with
  | none => simpa [hcontent] using hanswer (r.render path picture)
  | some content =>
    simp only [hcontent]
    exact performs_writeFile (fun _ => rfl) (hanswer _)

namespace Comparison

/-- The plan of a figure. -/
def figurePlan (c : Comparison) (r : Renderer) (dir : Path) (job : FigureJob) : List Step :=
  [.makeDir (plotDataDir dir) (.plotDir (plotDataDir dir)),
    .write (job.output dir) (.plotData (plotDataPath dir job.stem))] ++
    (picturePlan r (plotPicturePath dir job.stem) (c.picture job) ++
      [.tell (.pictureWritten (plotPicturePath dir job.stem))])

/-- What a plot tells before its figures. -/
def told (c : Comparison) : List Event :=
  c.selections.flatMap Selection.events ++ [.seriesChosen c.name c.series.length]

/-- The plan of a plot. -/
def plan (c : Comparison) (r : Renderer) (d : Dataset) (dir : Path) : List Step :=
  c.told.map .tell ++ (c.figures d).flatMap (c.figurePlan r dir)

/-- The pictures of a plot. -/
def pictures (c : Comparison) (d : Dataset) (dir : Path) : List Path :=
  (c.figures d).map fun job => plotPicturePath dir job.stem

/-- The plan of a plot among others: a failure is told with the name of the plot, and so is that it was drawn. -/
def plotPlan (c : Comparison) (r : Renderer) (d : Dataset) (dir : Path) : List Step :=
  (c.plan r d dir).map (·.mapFailure (.plot c.name)) ++ [.tell (.plotDrawn c.name (c.pictures d dir).length)]

section
variable {c : Comparison} {r : Renderer} {d : Dataset} {dir : Path}

theorem performs_drawFigure (c : Comparison) (r : Renderer) (dir : Path) (job : FigureJob) :
    Performs (c.drawFigure r dir job) (c.figurePlan r dir job) (plotPicturePath dir job.stem) :=
  (performs_writePlotData dir job.stem job.figure.toJson).bind (fun _ => rfl)
    ((performs_drawPicture r _ _).bind (fun _ => rfl) (performs_log _ (performs_pure _)))

theorem performs_drawFigures (c : Comparison) (r : Renderer) (dir : Path) (jobs : List FigureJob) :
    Performs (c.drawFigures r dir jobs) (jobs.flatMap (c.figurePlan r dir))
      (jobs.map fun job => plotPicturePath dir job.stem) := by
  induction jobs with
  | nil => exact performs_pure []
  | cons job rest ih => exact (c.performs_drawFigure r dir job).bind (fun _ => rfl) (ih.bind_pure (fun _ => rfl) rfl)

theorem performs_draw (c : Comparison) (r : Renderer) (d : Dataset) (dir : Path) :
    Performs (c.draw r d dir) (c.plan r d dir) (c.pictures d dir) := by
  rw [plan, told, List.map_append, List.append_assoc]
  exact performs_tell _ (performs_log _ (c.performs_drawFigures r dir _))

theorem files_picturePlan (r : Renderer) (path : Path) (picture : Picture) :
    Plan.files (picturePlan r path picture) =
      (r.render path picture).content?.toList.map fun content => (path, content) := by
  unfold picturePlan
  rcases r.render path picture with ⟨_ | content, _ | failure⟩ <;> simp

@[simp] theorem files_figurePlan (c : Comparison) (r : Renderer) (dir : Path) (job : FigureJob) :
    Plan.files (c.figurePlan r dir job) = c.figureOutputs r dir job := by
  simp [figurePlan, files_picturePlan, figureOutputs, pictureOutputs, rendering]

@[simp] theorem dirs_figurePlan (c : Comparison) (r : Renderer) (dir : Path) (job : FigureJob) :
    Plan.dirs (c.figurePlan r dir job) = [plotDataDir dir] := by
  unfold figurePlan picturePlan
  rcases r.render (plotPicturePath dir job.stem) (c.picture job) with ⟨_ | content, _ | failure⟩ <;> rfl

@[simp] theorem events_figurePlan (c : Comparison) (r : Renderer) (dir : Path) (job : FigureJob) :
    Plan.events (c.figurePlan r dir job) = [.pictureWritten (plotPicturePath dir job.stem)] := by
  unfold figurePlan picturePlan
  rcases r.render (plotPicturePath dir job.stem) (c.picture job) with ⟨_ | content, _ | failure⟩ <;> rfl

@[simp] theorem files_plan (c : Comparison) (r : Renderer) (d : Dataset) (dir : Path) :
    Plan.files (c.plan r d dir) = c.outputs r d dir := by
  simp [plan, outputs]

@[simp] theorem files_plotPlan (c : Comparison) (r : Renderer) (d : Dataset) (dir : Path) :
    Plan.files (c.plotPlan r d dir) = c.outputs r d dir := by
  simp [plotPlan]

theorem eq_of_mem_dirs_plan {above : Path} (h : above ∈ Plan.dirs (c.plan r d dir)) : above = plotDataDir dir := by
  rw [plan, Plan.dirs_append, Plan.dirs_map_tell, List.nil_append, Plan.dirs_flatMap] at h
  obtain ⟨job, _, hjob⟩ := List.mem_flatMap.mp h
  rwa [dirs_figurePlan, List.mem_singleton] at hjob

theorem eq_of_mem_dirs_plotPlan {above : Path} (h : above ∈ Plan.dirs (c.plotPlan r d dir)) :
    above = plotDataDir dir := by
  rw [plotPlan, Plan.dirs_append, Plan.dirs_mapFailure] at h
  rcases List.mem_append.mp h with hplan | hdrawn
  · exact eq_of_mem_dirs_plan hplan
  · cases hdrawn

/-! ## What a plot tells -/

/-- Among the events of a plot none tells that a plot was drawn. -/
theorem isPlotDrawn_of_mem_events {event : Event} (h : event ∈ Plan.events (c.plan r d dir)) :
    Plot.isPlotDrawn event = false := by
  rw [plan, Plan.events_append, Plan.events_map_tell, Plan.events_flatMap] at h
  rcases List.mem_append.mp h with htold | hfigures
  · rcases List.mem_append.mp htold with hwarning | hchosen
    · obtain ⟨selection, _, hselection⟩ := List.mem_flatMap.mp hwarning
      obtain ⟨phase, _, rfl⟩ := List.mem_map.mp hselection
      rfl
    · rw [List.mem_singleton.mp hchosen]
      rfl
  · obtain ⟨job, _, hjob⟩ := List.mem_flatMap.mp hfigures
    rw [events_figurePlan, List.mem_singleton] at hjob
    rw [hjob]
    rfl

/-- **A comparison does not tell by itself that it was drawn**, whatever draws its pictures. -/
theorem tellsOtherwise_toPlot (c : Comparison) (r : Renderer) (d : Dataset) (dir : Path) :
    Plot.TellsOtherwise dir (c.toPlot r d) := by
  intro w
  show (((c.draw r d dir : Run _) w).2.journal.filter Plot.isPlotDrawn) = _
  rw [c.performs_draw r d dir w]
  obtain ⟨told, hfront, hjournal⟩ := Plan.exists_told (c.plan r d dir) w
  have hnone : told.filter Plot.isPlotDrawn = [] := by
    refine List.filter_eq_nil_iff.mpr fun event hevent => ?_
    rw [isPlotDrawn_of_mem_events (hfront.subset hevent)]
    exact Bool.false_ne_true
  rw [hjournal, List.filter_append, hnone, List.append_nil]

end

end Comparison

/-- **Of comparisons that were drawn one after the other**, one event tells for each, in order. -/
theorem Plot.Drawn.filter_journal_toPlot {dir : Path} {w last : World} {r : Renderer} {d : Dataset}
    {plots : List Comparison} {lists : List (List Path)}
    (h : Drawn dir w (plots.map (·.toPlot r d)) lists last) :
    last.journal.filter isPlotDrawn =
      w.journal.filter isPlotDrawn ++ drawnEvents (plots.map (·.toPlot r d)) lists := by
  refine h.filter_journal fun plot hplot => ?_
  obtain ⟨c, _, rfl⟩ := List.mem_map.mp hplot
  exact c.tellsOtherwise_toPlot r d dir

/-! ## The plan of a report -/

namespace Plot

theorem performs_runFrom (r : Renderer) (d : Dataset) (dir : Path) (plots : List Comparison) :
    Performs (runFrom dir (plots.map (·.toPlot r d))) (plots.flatMap fun c => c.plotPlan r d dir)
      (plots.flatMap fun c => c.pictures d dir) := by
  induction plots with
  | nil => exact performs_pure []
  | cons c rest ih =>
    rw [List.flatMap_cons, Comparison.plotPlan, List.append_assoc, List.singleton_append]
    exact (c.performs_draw r d dir).bind_map (fun _ => rfl) (performs_log _ (ih.bind_pure (fun _ => rfl) rfl))

end Plot

namespace Config

variable {c : Config} {r : Renderer} {d : Dataset} {w : World}

/-- The plan of the table. -/
def summaryPlan (c : Config) (d : Dataset) : List Step :=
  .makeDir c.settings.plotPath (.plotDir c.settings.plotPath) ::
    if c.settings.summary then
      [.write (c.settings.summaryPath, Utf8.encode d.table.toList) fun cause =>
          .summary c.settings.summaryPath (.table c.settings.summaryPath cause),
        .tell (.summaryWritten c.settings.summaryPath)]
    else []

/-- The pictures of all plots. -/
def pictures (c : Config) (d : Dataset) : List Path :=
  c.plots.flatMap fun plot => plot.pictures d c.settings.plotPath

/-- The plan of the plots. -/
def plotsPlan (c : Config) (r : Renderer) (d : Dataset) : List Step :=
  (if c.plots.isEmpty then [.tell .noPlots]
    else .makeDir c.settings.plotPath (.plotDir c.settings.plotPath) ::
      c.plots.flatMap fun plot => plot.plotPlan r d c.settings.plotPath) ++
    [.tell (.reportDone c.name (c.pictures d).length c.settings.plotPath)]

/-- The plan of a report, once its results are read. -/
def plan (c : Config) (r : Renderer) (d : Dataset) : List Step :=
  c.summaryPlan d ++ c.plotsPlan r d

/-- What a report does after it has read its results. -/
def finish (c : Config) (r : Renderer) (d : Dataset) : Run (Except Failure Unit) := do
  match ← c.writeSummary d with
  | .error failure => return .error failure
  | .ok () => c.drawPlots r d

theorem report_of_readResults (r : Renderer)
    (hd : ((Dataset.ofDirectory c.settings.dataPath : Run _) w).1 = .ok d) :
    (c.report r : Run _) w = c.finish r d ((c.readResults : Run _) w).2 := by
  rw [report, bind_eq, readResults_fst hd]
  rfl

theorem performs_writeSummary (c : Config) (d : Dataset) : Performs (c.writeSummary d) (c.summaryPlan d) () := by
  refine (performs_makePlotDirs _).bind (fun _ => rfl) ?_
  show Performs (if c.settings.summary then _ else _) (if c.settings.summary then _ else _) _
  cases c.settings.summary with
  | false => exact performs_pure ()
  | true =>
    simp only [if_true, Dataset.writeTable, bind_assoc]
    refine performs_writeFile (fun _ => rfl) ?_
    simp only [pure_bind]
    exact performs_log _ (performs_pure _)

theorem performs_drawPlots (c : Config) (r : Renderer) (d : Dataset) :
    Performs (c.drawPlots r d) (c.plotsPlan r d) () := by
  have hall : Performs (Plot.runAll c.settings.plotPath (c.plots.map (·.toPlot r d)))
      (if c.plots.isEmpty then [.tell .noPlots]
        else .makeDir c.settings.plotPath (.plotDir c.settings.plotPath) ::
          c.plots.flatMap fun plot => plot.plotPlan r d c.settings.plotPath)
      (c.pictures d) := by
    unfold Plot.runAll
    rw [List.isEmpty_map]
    cases hempty : c.plots.isEmpty with
    | true =>
      have hpictures : c.pictures d = [] := by rw [pictures, List.isEmpty_iff.mp hempty, List.flatMap_nil]
      rw [hpictures]
      exact performs_log _ (performs_pure _)
    | false => exact (performs_makePlotDirs _).bind (fun _ => rfl) (Plot.performs_runFrom r d _ _)
  exact hall.bind (fun _ => rfl) (performs_log _ (performs_pure _))

/-- **What a report does once its results are read is its plan.** -/
theorem performs_finish (c : Config) (r : Renderer) (d : Dataset) : Performs (c.finish r d) (c.plan r d) () :=
  (c.performs_writeSummary d).bind (fun _ => rfl) (c.performs_drawPlots r d)

@[simp] theorem files_summaryPlan (c : Config) (d : Dataset) : Plan.files (c.summaryPlan d) = c.tableOutputs d := by
  unfold summaryPlan tableOutputs
  cases c.settings.summary <;> rfl

@[simp] theorem files_plotsPlan (c : Config) (r : Renderer) (d : Dataset) :
    Plan.files (c.plotsPlan r d) = c.plots.flatMap fun plot => plot.outputs r d c.settings.plotPath := by
  rw [plotsPlan]
  cases hempty : c.plots.isEmpty with
  | true => simp [List.isEmpty_iff.mp hempty]
  | false => simp

/-- The files of the plan are the files of the report. -/
@[simp] theorem files_plan (c : Config) (r : Renderer) (d : Dataset) : Plan.files (c.plan r d) = c.outputs r d := by
  rw [plan, Plan.files_append, files_summaryPlan, files_plotsPlan, outputs]

/-- The directories of the plan are those of the report. -/
theorem mem_dirs_plan {dir : Path} (h : dir ∈ Plan.dirs (c.plan r d)) :
    dir = c.settings.plotPath ∨ dir = plotDataDir c.settings.plotPath := by
  rw [plan, Plan.dirs_append] at h
  rcases List.mem_append.mp h with hsummary | hplots
  · unfold summaryPlan at hsummary
    cases htable : c.settings.summary <;> simp [htable] at hsummary <;> exact Or.inl hsummary
  · rw [plotsPlan, Plan.dirs_append] at hplots
    rcases List.mem_append.mp hplots with hplots | hdone
    · cases hempty : c.plots.isEmpty with
      | true => simp [hempty] at hplots
      | false =>
        rw [hempty, if_neg Bool.false_ne_true] at hplots
        rcases List.mem_cons.mp hplots with rfl | hplot
        · exact Or.inl rfl
        · rw [← Plan.dirs, Plan.dirs_flatMap] at hplot
          obtain ⟨plot, _, hdir⟩ := List.mem_flatMap.mp hplot
          exact Or.inr (Comparison.eq_of_mem_dirs_plotPlan hdir)
    · cases hdone

/-! ## What a report changes -/

/-- **What a report changes**, whether it succeeds or not, and whatever draws its pictures: it writes the table and the
    files of its plots, and makes the directories of these files and those above them. -/
theorem growsBy_report (c : Config) (r : Renderer) : GrowsBy c.IsOutput c.IsOutputDir (c.report r : Run _) := by
  refine (onlyReads_readResults c).growsBy.bind fun results => ?_
  cases results with
  | error failure => exact (onlyReads_pure _).growsBy
  | ok d =>
    have hplan : GrowsBy c.IsOutput c.IsOutputDir (Plan.run (c.plan r d)) := by
      refine Plan.growsBy_run (fun file hfile => ?_) fun dir hdir above habove => ?_
      · rw [files_plan] at hfile
        exact isOutput_of_mem_outputs hfile
      · rcases mem_dirs_plan hdir with rfl | rfl
        · exact Or.inl habove
        · exact Or.inr habove
    intro w
    show Grows _ _ w.storage (c.finish r d w).2.storage
    rw [c.performs_finish r d w]
    exact hplan w

end Config

end LatencyReport
