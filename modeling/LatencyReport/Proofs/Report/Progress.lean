import LatencyReport.Proofs.Report.Steps

/-!
# `Proofs.Report.Progress` — how far a report comes

A report that has read its results and written its table **comes to its plots** (`Config.ReachesPlots`). Its answer then
tells what it has written (`Config.Wrote`): all files if it succeeds; and if a plot fails, the table, the files of the plots
in front, those of the plot's figures in front of the one that failed, and a part of those of that figure. If the picture
could not be drawn or not be written, its values are in that part.

A plot fails at a step of one of its figures (`Config.stopsAt_of_fails`), and that step **changes nothing**
(`Config.storage_of_stop`): a file that cannot be written stays as it is, and the directory for values is not made in part,
since the one above it was made before.

## Contents

* `exists_of_flatMap_eq`, `Step.Fails` — where in a plan a step stands, and how it can fail;
* `Config.ReachesPlots`, `Config.Wrote`, `Config.Wrote.exists_rest` — how far a report comes, and what it has written;
* `Config.StopsAt`, `Config.stopsAt_of_fails`, `Config.StopsAt.wrote`, `Config.storage_of_stop` — the figure that failed;
* `Config.finish_cases`, `Config.finish_wrote` — the report that comes to its plots.
-/

namespace LatencyReport

open Storage

/-! ## Where a step stands, and how it can fail -/

section
variable {α β : Type} {front back xs ys : List α} {x : α}

/-- An element of two lists stands in the first or in the second. -/
theorem eq_append_cons_cases (h : xs ++ ys = front ++ x :: back) :
    (∃ rest, xs = front ++ x :: rest) ∨ ∃ rest, front = xs ++ rest ∧ ys = rest ++ x :: back := by
  rcases List.append_eq_append_iff.mp h with ⟨rest, hfront, hys⟩ | ⟨rest, hxs, hback⟩
  · exact Or.inr ⟨rest, hfront, hys⟩
  · cases rest with
    | nil => exact Or.inr ⟨[], by simpa using hxs.symm, by simpa using hback.symm⟩
    | cons head rest =>
      rw [List.cons_append, List.cons.injEq] at hback
      exact Or.inl ⟨rest, hback.1 ▸ hxs⟩

/-- An element of joined lists stands in one of them. -/
theorem exists_of_flatMap_eq {f : β → List α} {items : List β} (h : items.flatMap f = front ++ x :: back) :
    ∃ before item after begun rest, items = before ++ item :: after ∧ f item = begun ++ x :: rest ∧
      front = before.flatMap f ++ begun := by
  induction items generalizing front with
  | nil => simp at h
  | cons item items ih =>
    rw [List.flatMap_cons] at h
    rcases eq_append_cons_cases h with ⟨rest, hitem⟩ | ⟨begun, rfl, hitems⟩
    · exact ⟨[], item, items, front, rest, rfl, hitem, rfl⟩
    · obtain ⟨before, other, after, begun, rest, rfl, hother, rfl⟩ := ih hitems
      exact ⟨item :: before, other, after, begun, rest, rfl, hother, by rw [List.flatMap_cons, List.append_assoc]⟩

end

namespace Step

/-- The step can fail with an answer. -/
def Fails (step : Step) (failure : Failure) : Prop :=
  ∃ w, (step.run w).1 = .error failure

variable {step : Step} {failure : Failure}

/-- No step fails that tells something. -/
theorem not_fails_of_tells {front back : List Step} (told : List Event) (h : told.map tell = front ++ step :: back) :
    ¬step.Fails failure := by
  have hmem : step ∈ told.map tell := by
    rw [h]
    exact List.mem_append_cons_self
  obtain ⟨event, _, rfl⟩ := List.mem_map.mp hmem
  rintro ⟨w, hfails⟩
  cases hfails

theorem Fails.makeDir {dir : Path} {f : OsError → Failure} (h : (makeDir dir f).Fails failure) :
    ∃ e, failure = f e := by
  obtain ⟨w, h⟩ := h
  rw [run_makeDir] at h
  cases hmade : ((makeDirs dir : Run _) w).1 with
  | error e =>
    rw [hmade] at h
    exact ⟨e, (Except.error.inj h).symm⟩
  | ok done =>
    rw [hmade] at h
    cases h

theorem Fails.write {file : File} {f : OsError → Failure} (h : (write file f).Fails failure) :
    ∃ e, failure = f e := by
  obtain ⟨w, h⟩ := h
  rw [run_write] at h
  cases hwrite : w.storage.write file.1 file.2 with
  | error e =>
    rw [hwrite] at h
    exact ⟨e, (Except.error.inj h).symm⟩
  | ok storage =>
    rw [hwrite] at h
    cases h

theorem Fails.mapFailure {f : Failure → Failure} (h : (step.mapFailure f).Fails failure) :
    ∃ cause, step.Fails cause ∧ failure = f cause := by
  obtain ⟨w, h⟩ := h
  obtain ⟨cause, hcause, rfl⟩ := error_of_mapFailure h
  exact ⟨cause, ⟨w, hcause⟩, rfl⟩

end Step

/-! ## How far a report comes -/

/-- The values of a figure could not be written: their directory could not be made, or their file not be written. -/
def FigureJob.FailsBefore (dir : Path) (job : FigureJob) (cause : Failure) : Prop :=
  (∃ e, cause = .plotDir (plotDataDir dir) e) ∨ ∃ e, cause = .plotData (plotDataPath dir job.stem) e

namespace Config

/-- Whether a report came to its end, or to a plot that failed. -/
def ReachesPlots (answer : Except Failure Unit) : Prop :=
  answer = .ok () ∨ ∃ name cause, answer = .error (.plot name cause)

/-- **The files that a report has written**, in order, when it answers: all of them if it succeeds; and if a plot fails,
    the table, the files of the plots in front of it, those of its figures in front of the one that failed, and those that
    were written of that one. At least its values were, unless it was these that failed. -/
inductive Wrote (c : Config) (r : Renderer) (d : Dataset) : Except Failure Unit → List File → Prop where
  | everything : Wrote c r d (.ok ()) (c.outputs r d)
  | upTo {plots others : List Comparison} {plot : Comparison} {jobs rest : List FigureJob} {job : FigureJob}
      {part : List File} {cause : Failure} (plots_eq : c.plots = plots ++ plot :: others)
      (figures_eq : plot.figures d = jobs ++ job :: rest)
      (part_in_front : part <+: plot.figureOutputs r c.settings.plotPath job)
      (values_written : part = [] → job.FailsBefore c.settings.plotPath cause) :
      Wrote c r d (.error (.plot plot.name cause))
        (c.tableOutputs d ++ (plots.flatMap fun plot => plot.outputs r d c.settings.plotPath) ++
          jobs.flatMap (plot.figureOutputs r c.settings.plotPath) ++ part)

end Config

/-! ## The figure that failed -/

section
variable {r : Renderer} {d : Dataset} {dir : Path} {w after : World} {cause failure : Failure} {step : Step}
  {front back : List Step}

/-- **The directory for values changes nothing if it cannot be made**, once the directory of the pictures is there. -/
theorem makeDirs_plotDataDir_of_error (hmade : IsMade w.storage dir) {e : OsError}
    (h : ((makeDirs (plotDataDir dir) : Run _) w).1 = .error e) :
    ((makeDirs (plotDataDir dir) : Run _) w).2.storage = w.storage := by
  obtain ⟨above, hancestors⟩ : ∃ above, (plotDataDir dir).ancestors = plotDataDir dir :: above :=
    List.head?_eq_some_iff.mp (head?_ancestors _)
  rw [makeDirs, makeDirsFrom_eq, hancestors] at h ⊢
  refine makeDirsFrom_of_error (fun hmissing => ?_) (Prod.ext h rfl)
  rcases hmade with hempty | hdir
  · -- seen from where we are, only this place is above
    obtain rfl : dir = ⟨[]⟩ := by rw [← hempty]
    have habove : (plotDataDir ⟨[]⟩).ancestors = [plotDataDir ⟨[]⟩, ⟨[]⟩] := by decide
    rw [habove, List.cons.injEq] at hancestors
    rw [← hancestors.2, Storage.makeDirsFrom, if_pos rfl]
  · exact absurd hmissing (makeDir_join_ne_notFound hdir isName_plotDataName)

namespace Comparison

variable {c : Comparison} {job : FigureJob}

/-- **A step of a figure changes nothing when it fails.** -/
theorem storage_of_fails (hplan : c.figurePlan r dir job = front ++ step :: back) (hmade : IsMade w.storage dir)
    (hfails : (step.run w).1 = .error failure) : (step.run w).2.storage = w.storage := by
  cases step with
  | tell event => rfl
  | makeDir above f =>
    have hmem : above ∈ Plan.dirs (c.figurePlan r dir job) := by
      rw [hplan, Plan.dirs_append]
      exact List.mem_append_cons_self
    rw [dirs_figurePlan, List.mem_singleton] at hmem
    subst hmem
    rw [Step.run_makeDir] at hfails ⊢
    cases hrun : ((makeDirs (plotDataDir dir) : Run _) w).1 with
    | error e => exact makeDirs_plotDataDir_of_error hmade hrun
    | ok done =>
      rw [hrun] at hfails
      cases hfails
  | write file f =>
    rw [Step.run_write] at hfails ⊢
    cases hwrite : w.storage.write file.1 file.2 with
    | error e => rfl
    | ok storage =>
      rw [hwrite] at hfails
      cases hfails
  | stop failure => rfl

/-- What was written of a figure that fails: at least its values, unless it is these that fail. -/
theorem failsBefore_of_stop (hplan : c.figurePlan r dir job = front ++ step :: back) (hfails : step.Fails cause)
    (hnone : Plan.files front = []) : job.FailsBefore dir cause := by
  unfold figurePlan at hplan
  cases front with
  | nil =>
    obtain ⟨rfl, -⟩ := List.cons.inj hplan
    exact Or.inl hfails.makeDir
  | cons first front =>
    obtain ⟨rfl, hrest⟩ := List.cons.inj hplan
    cases front with
    | nil =>
      obtain ⟨rfl, -⟩ := List.cons.inj hrest
      exact Or.inr hfails.write
    | cons second front =>
      -- the values stand in front
      obtain ⟨rfl, -⟩ := List.cons.inj hrest
      cases hnone

/-- A step that fails in the plan of a plot is a step of a figure. -/
theorem exists_job_of_stop (hplan : c.plan r d dir = front ++ step :: back) (hfails : step.Fails cause) :
    ∃ jobs job rest begun others, c.figures d = jobs ++ job :: rest ∧
      c.figurePlan r dir job = begun ++ step :: others ∧
      Plan.files front = jobs.flatMap (c.figureOutputs r dir) ++ Plan.files begun := by
  rcases eq_append_cons_cases hplan with ⟨_, htold⟩ | ⟨inner, rfl, hfigures⟩
  · exact absurd hfails (Step.not_fails_of_tells _ htold)
  · obtain ⟨jobs, job, rest, begun, others, hjobs, hjob, rfl⟩ := exists_of_flatMap_eq hfigures
    refine ⟨jobs, job, rest, begun, others, hjobs, hjob, ?_⟩
    simp

/-- A step that fails in the plan of a plot among others is a step of the plot, and the failure is told with its name. -/
theorem exists_step_of_stop (hplan : c.plotPlan r d dir = front ++ step :: back) (hfails : step.Fails failure) :
    ∃ begun inner others cause, c.plan r d dir = begun ++ inner :: others ∧ step = inner.mapFailure (.plot c.name) ∧
      inner.Fails cause ∧ failure = .plot c.name cause ∧ Plan.files front = Plan.files begun := by
  rcases eq_append_cons_cases hplan with ⟨_, hmapped⟩ | ⟨rest, _, hdrawn⟩
  · obtain ⟨begun, later, hall, rfl, hlater⟩ := List.map_eq_append_iff.mp hmapped
    obtain ⟨inner, others, rfl, rfl, _⟩ := List.map_eq_cons_iff.mp hlater
    obtain ⟨cause, hcause, rfl⟩ := hfails.mapFailure
    exact ⟨begun, inner, others, cause, hall, rfl, hcause, rfl, Plan.files_mapFailure begun⟩
  · exact absurd hfails (Step.not_fails_of_tells [.plotDrawn c.name (c.pictures d dir).length] hdrawn)

end Comparison

namespace Config

variable {c : Config} {name : String}

/-- No step of the table fails as a plot does. -/
theorem not_fails_of_summaryPlan {rest : List Step} (h : c.summaryPlan d = front ++ step :: rest) :
    ¬step.Fails (.plot name cause) := by
  intro hfails
  unfold summaryPlan at h
  cases front with
  | nil =>
    obtain ⟨rfl, -⟩ := List.cons.inj h
    obtain ⟨e, he⟩ := hfails.makeDir
    cases he
  | cons first front =>
    obtain ⟨-, h⟩ := List.cons.inj h
    split at h
    · cases front with
      | nil =>
        obtain ⟨rfl, -⟩ := List.cons.inj h
        obtain ⟨e, he⟩ := hfails.write
        cases he
      | cons second front =>
        exact Step.not_fails_of_tells [.summaryWritten c.settings.summaryPath] (List.cons.inj h).2 hfails
    · exact Step.not_fails_of_tells [] h hfails

/-- **The figure that failed**: the step at which a plot fails is a step of one of its figures, told with the name of the
    plot. What was written before is the table, the files of the plots in front, those of the figures in front, and a part
    of those of the figure. -/
inductive StopsAt (c : Config) (r : Renderer) (d : Dataset) (front : List Step) : Step → Failure → Prop where
  | figure {plots others : List Comparison} {plot : Comparison} {jobs rest : List FigureJob} {job : FigureJob}
      {begun after : List Step} {inner : Step} {cause : Failure} (plots_eq : c.plots = plots ++ plot :: others)
      (figures_eq : plot.figures d = jobs ++ job :: rest)
      (plan_eq : plot.figurePlan r c.settings.plotPath job = begun ++ inner :: after) (fails : inner.Fails cause)
      (files_eq : Plan.files front =
        c.tableOutputs d ++ (plots.flatMap fun plot => plot.outputs r d c.settings.plotPath) ++
          jobs.flatMap (plot.figureOutputs r c.settings.plotPath) ++ Plan.files begun) :
      StopsAt c r d front (inner.mapFailure (.plot plot.name)) (.plot plot.name cause)

/-- Every step that fails as a plot does is a step of a figure. -/
theorem stopsAt_of_fails (hplan : c.plan r d = front ++ step :: back) (hfails : step.Fails (.plot name cause)) :
    c.StopsAt r d front step (.plot name cause) := by
  rcases eq_append_cons_cases hplan with ⟨_, hsummary⟩ | ⟨front, rfl, hplots⟩
  · exact absurd hfails (not_fails_of_summaryPlan hsummary)
  · rcases eq_append_cons_cases hplots with ⟨_, hplots⟩ | ⟨_, _, hdone⟩
    · cases hempty : c.plots.isEmpty with
      | true =>
        rw [hempty, if_pos rfl] at hplots
        exact absurd hfails (Step.not_fails_of_tells [.noPlots] hplots)
      | false =>
        rw [hempty, if_neg Bool.false_ne_true] at hplots
        cases front with
        | nil =>
          obtain ⟨rfl, -⟩ := List.cons.inj hplots
          obtain ⟨e, he⟩ := hfails.makeDir
          cases he
        | cons first front =>
          -- from the report to the plot, from the plot to the figure
          obtain ⟨rfl, hrest⟩ := List.cons.inj hplots
          obtain ⟨plots, plot, others, begun, _, hconfig, hplot, rfl⟩ := exists_of_flatMap_eq hrest
          obtain ⟨begun, inner, _, cause', hplan', rfl, hinner, hname, hfiles⟩ :=
            Comparison.exists_step_of_stop hplot hfails
          obtain ⟨rfl, rfl⟩ := Failure.plot.inj hname
          obtain ⟨jobs, job, rest, begun, after, hjobs, hjob, hfiles'⟩ := Comparison.exists_job_of_stop hplan' hinner
          exact .figure hconfig hjobs hjob hinner (by simp [hfiles, hfiles'])
    · exact absurd hfails (Step.not_fails_of_tells [.reportDone c.name (c.pictures d).length c.settings.plotPath] hdone)

/-- What was written in front of a plot's failure. -/
theorem StopsAt.wrote {failure : Failure} (h : c.StopsAt r d front step failure) :
    c.Wrote r d (.error failure) (Plan.files front) := by
  obtain ⟨hplots, hjobs, hfigure, hinner, hfiles⟩ := h
  rw [hfiles]
  refine .upTo hplots hjobs ?_ fun hnone => Comparison.failsBefore_of_stop hfigure hinner hnone
  rw [← Comparison.files_figurePlan, hfigure, Plan.files_append]
  exact List.prefix_append _ _

/-- **The step at which a plot fails changes nothing**, since the directory that is written to was made before. -/
theorem storage_of_stop (hplan : c.plan r d = front ++ step :: back) (hfront : (Plan.run front w).1 = .ok ())
    (hstop : step.run (Plan.run front w).2 = (.error (.plot name cause), after)) :
    after.storage = (Plan.run front w).2.storage := by
  have hfails : step.Fails (.plot name cause) := ⟨_, congrArg Prod.fst hstop⟩
  have hmade : IsMade (Plan.run front w).2.storage c.settings.plotPath := by
    cases front with
    | nil =>
      obtain ⟨rfl, -⟩ := List.cons.inj hplan
      obtain ⟨e, he⟩ := hfails.makeDir
      cases he
    | cons first front =>
      obtain ⟨rfl, -⟩ := List.cons.inj hplan
      exact Plan.isMade_of_run_cons hfront
  obtain ⟨_, _, hfigure, _, _⟩ := stopsAt_of_fails hplan hfails
  obtain ⟨_, hcause, _⟩ := Step.error_of_mapFailure (congrArg Prod.fst hstop)
  rw [Step.run_mapFailure] at hstop
  obtain rfl : _ = after := congrArg Prod.snd hstop
  exact Comparison.storage_of_fails hfigure hmade hcause

end Config

end

/-! ## What was written -/

namespace Config

variable {c : Config} {r : Renderer} {d : Dataset} {w : World}

/-- **What was written is a front part of all files**, and the table is in it. -/
theorem Wrote.exists_rest {answer : Except Failure Unit} {written : List File} (h : c.Wrote r d answer written) :
    ∃ rest, written = c.tableOutputs d ++ rest ∧
      rest <+: c.plots.flatMap fun plot => plot.outputs r d c.settings.plotPath := by
  cases h with
  | everything => exact ⟨_, rfl, List.prefix_rfl⟩
  | upTo hplots hjobs hpart hvalues =>
    obtain ⟨more, hmore⟩ := hpart
    refine ⟨_, by rw [List.append_assoc, List.append_assoc], ?_⟩
    rw [hplots, List.flatMap_append, List.flatMap_cons, List.prefix_append_right_inj, Comparison.outputs, hjobs,
      List.flatMap_append, List.flatMap_cons, ← hmore]
    simp only [List.append_assoc, List.prefix_append_right_inj]
    exact List.prefix_append _ _

/-- Nothing is written over the table. -/
theorem Wrote.isLatest_table {answer : Except Failure Unit} {written : List File} (h : c.Wrote r d answer written)
    (s : Storage) {file : File} (hfile : file ∈ c.tableOutputs d) : s.IsLatest written file := by
  obtain ⟨rest, rfl, hrest⟩ := h.exists_rest
  unfold tableOutputs at hfile ⊢
  by_cases hsummary : c.settings.summary = true
  · rw [if_pos hsummary, List.mem_singleton] at hfile
    rw [if_pos hsummary, hfile]
    refine ⟨[], rest, rfl, fun other hother => ?_⟩
    obtain ⟨plot, _, hplot⟩ := List.mem_flatMap.mp (hrest.subset hother)
    obtain ⟨range, _, hpath⟩ := Comparison.exists_path_of_mem_outputs hplot
    rcases hpath with hpath | hpath <;> rw [hpath]
    · exact (c.settings.apart_summaryPath_values plot _ range s).symm
    · exact (c.settings.apart_summaryPath_picture plot _ range s).symm
  · rw [if_neg hsummary] at hfile
    cases hfile

/-- A report that comes to its plots takes all its steps, or those in front of the one at which a plot fails. -/
theorem finish_cases (hreaches : ReachesPlots (c.finish r d w).1) :
    (Plan.run (c.plan r d) w).1 = .ok () ∨
      ∃ front step back name cause, c.plan r d = front ++ step :: back ∧
        (Plan.run (c.plan r d) w).1 = .error (.plot name cause) ∧ (Plan.run front w).1 = .ok () ∧
        step.run (Plan.run front w).2 = (.error (.plot name cause), (Plan.run (c.plan r d) w).2) := by
  rw [c.performs_finish r d] at hreaches
  cases hrun : (Plan.run (c.plan r d) w).1 with
  | ok done => exact Or.inl rfl
  | error failure =>
    rw [hrun] at hreaches
    obtain ⟨front, step, back, hplan, hfront, hstop⟩ := Plan.exists_of_error hrun
    rcases hreaches with hok | ⟨name, cause, herror⟩
    · cases hok
    · obtain rfl : failure = .plot name cause := Except.error.inj herror
      exact Or.inr ⟨front, step, back, name, cause, hplan, rfl, hfront, hstop⟩

/-- **What a report has written that comes to its plots**, once its results are read. The files stand at their places, the
    latest of them where several have one place. -/
theorem finish_wrote (hreaches : ReachesPlots (c.finish r d w).1) :
    ∃ written, c.Wrote r d (c.finish r d w).1 written ∧
      ∀ file, w.storage.IsLatest written file → (c.finish r d w).2.storage.read file.1 = .ok file.2 := by
  have hcases := finish_cases hreaches
  rw [c.performs_finish r d]
  rcases hcases with hrun | ⟨front, step, back, name, cause, hplan, hanswer, hfront, hstop⟩
  · rw [hrun]
    refine ⟨c.outputs r d, .everything, fun file hlatest => ?_⟩
    exact Plan.read_of_isLatest hrun (by rwa [files_plan])
  · rw [hanswer]
    refine ⟨_, (stopsAt_of_fails hplan ⟨_, congrArg Prod.fst hstop⟩).wrote, fun file hlatest => ?_⟩
    show (Plan.run (c.plan r d) w).2.storage.read file.1 = .ok file.2
    rw [storage_of_stop hplan hfront hstop]
    exact Plan.read_of_isLatest hfront hlatest

/-- A report that comes to its plots has read its results. -/
theorem exists_ofDirectory_of_reachesPlots (h : ReachesPlots ((c.report r : Run _) w).1) :
    ∃ d, ((Dataset.ofDirectory c.settings.dataPath : Run _) w).1 = .ok d := by
  cases hlist : w.storage.list c.settings.dataPath with
  | ok names => exact exists_ofDirectory_of_list hlist
  | error e =>
    rw [report_of_list_error hlist] at h
    rcases h with h | ⟨name, cause, h⟩ <;> cases h

end Config

end LatencyReport
