import LatencyReport.Plot
import LatencyReport.Proofs.Dataset.File

/-!
# `Proofs.Plot.Sequence` — plots that run one after the other

A plot may do anything to the world, and it may fail. What a list of them does is told by the worlds between them: a plot
starts **in the world that the one before it left**, with the event that tells of that one (`Drawn`). Nothing else happens
between two plots.

The list comes to its end, or there is a first plot that fails (`drawn_or_stops`). Either way the plots in front are drawn,
and what the whole list does is what the rest of it does from where they left (`runFrom_append`): so the run ends in the
world of the plot that failed, and the plots behind it are never started. Their answers and their names do not matter.

## Contents

* `Drawn` — plots drawn one after the other;
* `runFrom_of_ok`, `runFrom_of_error` — one plot;
* `runFrom_append`, `drawn_or_stops` — lists of plots;
* `runFrom_eq_ok_iff`, `runFrom_eq_error_iff` — the two ends of a run;
* `drawnEvents`, `Drawn.filter_journal` — what was told;
* `runAll_outcome` — the run with its directory.
-/

namespace LatencyReport.Plot

variable {dir : Path} {w between last after : World} {plot : Plot Run} {plots front rest : List (Plot Run)}
  {files : List Path} {lists : List (List Path)}

/-- **Plots were drawn one after the other**: from a world, with the files of each, up to a world. -/
inductive Drawn (dir : Path) : World → List (Plot Run) → List (List Path) → World → Prop where
  | nothing (w : World) : Drawn dir w [] [] w
  | next {w after last : World} {plot : Plot Run} {rest : List (Plot Run)} {files : List Path} {lists : List (List Path)}
      (draw_eq : plot.draw dir w = (.ok files, after))
      (drawn_rest : Drawn dir (after.told [.plotDrawn plot.name files.length]) rest lists last) :
      Drawn dir w (plot :: rest) (files :: lists) last

/-! ## One plot -/

/-- A plot that is drawn: its event is told, and its files come in front of those of the rest. -/
theorem runFrom_of_ok (h : plot.draw dir w = (.ok files, after)) (rest : List (Plot Run)) :
    (runFrom dir (plot :: rest) : Run _) w =
      let run := (runFrom dir rest : Run _) (after.told [.plotDrawn plot.name files.length])
      (run.1.map (files ++ ·), run.2) := by
  rw [runFrom, bind_eq, h]
  simp only [bind_eq, log_eq]
  generalize (runFrom dir rest : Run _) (after.told [.plotDrawn plot.name files.length]) = run
  obtain ⟨answer, last⟩ := run
  cases answer <;> rfl

/-- **A plot that fails ends the run**, whatever the rest is. -/
theorem runFrom_of_error {cause : Failure} (h : plot.draw dir w = (.error cause, after)) (rest : List (Plot Run)) :
    (runFrom dir (plot :: rest) : Run _) w = (.error (.plot plot.name cause), after) := by
  rw [runFrom, bind_eq, h]
  rfl

/-! ## Lists of plots -/

/-- **Behind plots that were drawn, the run goes on from where they left.** -/
theorem runFrom_append (h : Drawn dir w front lists between) (back : List (Plot Run)) :
    (runFrom dir (front ++ back) : Run _) w =
      let run := (runFrom dir back : Run _) between
      (run.1.map (lists.flatten ++ ·), run.2) := by
  -- on the plots that were drawn: each adds its files in front
  induction h with
  | nothing w =>
    simp only [List.nil_append, List.flatten_nil]
    generalize (runFrom dir back : Run _) w = run
    obtain ⟨answer, last⟩ := run
    cases answer <;> rfl
  | next hdraw _ ih =>
    rw [List.cons_append, runFrom_of_ok hdraw, ih]
    simp only [List.flatten_cons]
    generalize (runFrom dir back : Run _) _ = run
    obtain ⟨answer, last⟩ := run
    cases answer with
    | error failure => rfl
    | ok more => simp only [Except.map, List.append_assoc]

/-- **All plots are drawn, or there is a first one that fails.** -/
theorem drawn_or_stops (dir : Path) (plots : List (Plot Run)) (w : World) :
    (∃ lists last, Drawn dir w plots lists last) ∨
      ∃ front plot back lists between cause last, plots = front ++ plot :: back ∧ Drawn dir w front lists between ∧
        plot.draw dir between = (.error cause, last) := by
  induction plots generalizing w with
  | nil => exact Or.inl ⟨[], w, .nothing w⟩
  | cons plot rest ih =>
    rcases hdraw : plot.draw dir w with ⟨cause | files, after⟩
    · exact Or.inr ⟨[], plot, rest, [], w, cause, after, rfl, .nothing w, hdraw⟩
    · rcases ih (after.told [.plotDrawn plot.name files.length]) with
        ⟨lists, last, hdrawn⟩ | ⟨front, stop, back, lists, between, cause, last, rfl, hdrawn, hstop⟩
      · exact Or.inl ⟨files :: lists, last, .next hdraw hdrawn⟩
      · exact Or.inr ⟨plot :: front, stop, back, files :: lists, between, cause, last, rfl, .next hdraw hdrawn, hstop⟩

theorem runFrom_of_drawn (h : Drawn dir w plots lists last) :
    (runFrom dir plots : Run _) w = (.ok lists.flatten, last) := by
  have hrun := runFrom_append h []
  rw [List.append_nil] at hrun
  rw [hrun]
  simp only [runFrom, pure_eq, Except.map, List.append_nil]

theorem runFrom_of_stops {cause : Failure} (h : Drawn dir w front lists between)
    (hstop : plot.draw dir between = (.error cause, last)) (back : List (Plot Run)) :
    (runFrom dir (front ++ plot :: back) : Run _) w = (.error (.plot plot.name cause), last) := by
  rw [runFrom_append h, runFrom_of_error hstop]
  rfl

/-- The run succeeds exactly if all plots are drawn, and its files are those of all of them, in order. -/
theorem runFrom_eq_ok_iff :
    (runFrom dir plots : Run _) w = (.ok files, last) ↔ ∃ lists, Drawn dir w plots lists last ∧ files = lists.flatten := by
  constructor
  · intro hrun
    rcases drawn_or_stops dir plots w with ⟨lists, reached, hdrawn⟩ | ⟨front, plot, back, lists, between, cause, reached,
      rfl, hdrawn, hstop⟩
    · rw [runFrom_of_drawn hdrawn] at hrun
      cases hrun
      exact ⟨lists, hdrawn, rfl⟩
    · rw [runFrom_of_stops hdrawn hstop] at hrun
      cases hrun
  · rintro ⟨lists, hdrawn, rfl⟩
    exact runFrom_of_drawn hdrawn

/-- The run fails exactly if there is a first plot that fails; it ends with this plot. -/
theorem runFrom_eq_error_iff {failure : Failure} :
    (runFrom dir plots : Run _) w = (.error failure, last) ↔
      ∃ front plot back lists between cause, plots = front ++ plot :: back ∧ Drawn dir w front lists between ∧
        plot.draw dir between = (.error cause, last) ∧ failure = .plot plot.name cause := by
  constructor
  · intro hrun
    rcases drawn_or_stops dir plots w with ⟨lists, reached, hdrawn⟩ | ⟨front, plot, back, lists, between, cause, reached,
      rfl, hdrawn, hstop⟩
    · rw [runFrom_of_drawn hdrawn] at hrun
      cases hrun
    · rw [runFrom_of_stops hdrawn hstop] at hrun
      cases hrun
      exact ⟨front, plot, back, lists, between, cause, rfl, hdrawn, hstop, rfl⟩
  · rintro ⟨front, plot, back, lists, between, cause, rfl, hdrawn, hstop, rfl⟩
    exact runFrom_of_stops hdrawn hstop back

/-! ## What was told -/

/-- Whether an event tells that a plot was drawn. -/
def isPlotDrawn : Event → Bool
  | .plotDrawn .. => true
  | _ => false

/-- The events of plots that were drawn, with the files of each. -/
def drawnEvents (plots : List (Plot Run)) (lists : List (List Path)) : List Event :=
  List.zipWith (fun plot files => .plotDrawn plot.name files.length) plots lists

/-- A plot does not tell by itself that a plot was drawn, nor does it take back what was told. -/
def TellsOtherwise (dir : Path) (plot : Plot Run) : Prop :=
  ∀ w, (plot.draw dir w).2.journal.filter isPlotDrawn = w.journal.filter isPlotDrawn

theorem Drawn.length_eq (h : Drawn dir w plots lists last) : lists.length = plots.length := by
  induction h with
  | nothing => rfl
  | next _ _ ih => rw [List.length_cons, List.length_cons, ih]

/-- **There is one event for each plot that was drawn**, in order. -/
theorem Drawn.filter_journal (h : Drawn dir w plots lists last) (hplots : ∀ plot ∈ plots, TellsOtherwise dir plot) :
    last.journal.filter isPlotDrawn = w.journal.filter isPlotDrawn ++ drawnEvents plots lists := by
  induction h with
  | nothing => exact (List.append_nil _).symm
  | @next w after last plot rest files lists hdraw _ ih =>
    obtain ⟨hplot, hrest⟩ := List.forall_mem_cons.mp hplots
    have hafter : after.journal.filter isPlotDrawn = w.journal.filter isPlotDrawn := by
      rw [← hplot w, hdraw]
    have htold : ((after.told [.plotDrawn plot.name files.length]).journal.filter isPlotDrawn) =
        w.journal.filter isPlotDrawn ++ [.plotDrawn plot.name files.length] := by
      rw [World.told, List.filter_append, hafter]
      rfl
    rw [ih hrest, htold, List.append_assoc]
    rfl

theorem length_drawnEvents (h : Drawn dir w plots lists last) : (drawnEvents plots lists).length = plots.length := by
  rw [drawnEvents, List.length_zipWith, h.length_eq, Nat.min_self]

theorem level_of_mem_drawnEvents {event : Event} (h : event ∈ drawnEvents plots lists) : event.level = .debug := by
  obtain ⟨i, hi, rfl⟩ := List.getElem_of_mem h
  simp only [drawnEvents, List.getElem_zipWith]
  rfl

/-! ## The whole run -/

theorem runAll_of_made {made : World} (hne : plots ≠ []) (hmade : (makePlotDirs [dir] : Run _) w = (.ok (), made)) :
    (runAll dir plots : Run _) w = (runFrom dir plots : Run _) made := by
  have hplots : plots.isEmpty = false := List.isEmpty_eq_false_iff.mpr hne
  simp only [runAll, hplots, Bool.false_eq_true, if_false, bind_eq, hmade]

/-- **How a run of plots ends.** Without plots there are no files, and the storage stays as it is. If there are plots, and
    the directory can be made, then

    * the run succeeds exactly if all plots are drawn, one after the other, and its files are those of each, in order;
    * it fails exactly if there is a first plot that fails: the plots in front were drawn, the world is the one that the
      failing plot left, so no plot behind it was started, and the failure is that of the plot, with its name;
    * of every plot that was drawn one event tells, at the level of details, in order, and no other event does. -/
theorem runAll_outcome (dir : Path) (plots : List (Plot Run)) (w : World) :
    ((runAll dir [] : Run _) w = (.ok [], w.told [.noPlots]) ∧ (w.told [.noPlots]).storage = w.storage) ∧
    ∀ made, plots ≠ [] → (makePlotDirs [dir] : Run _) w = (.ok (), made) →
      (∀ files last, (runAll dir plots : Run _) w = (.ok files, last) ↔
        ∃ lists, Drawn dir made plots lists last ∧ files = lists.flatten) ∧
      (∀ failure last, (runAll dir plots : Run _) w = (.error failure, last) ↔
        ∃ front plot back lists between cause, plots = front ++ plot :: back ∧ Drawn dir made front lists between ∧
          plot.draw dir between = (.error cause, last) ∧ failure = .plot plot.name cause ∧
          failure.texts = ("Render plot " ++ plot.name) :: cause.texts) ∧
      ∀ front lists between, Drawn dir made front lists between →
        (drawnEvents front lists).length = front.length ∧ (∀ event ∈ drawnEvents front lists, event.level = .debug) ∧
          ((∀ plot ∈ front, TellsOtherwise dir plot) →
            between.journal.filter isPlotDrawn = made.journal.filter isPlotDrawn ++ drawnEvents front lists) := by
  refine ⟨⟨rfl, rfl⟩, fun made hne hmade => ⟨fun files last => ?_, fun failure last => ?_, fun front lists between h => ?_⟩⟩
  · rw [runAll_of_made hne hmade]
    exact runFrom_eq_ok_iff
  · rw [runAll_of_made hne hmade, runFrom_eq_error_iff]
    constructor
    · rintro ⟨front, plot, back, lists, between, cause, hplots, hdrawn, hstop, rfl⟩
      exact ⟨front, plot, back, lists, between, cause, hplots, hdrawn, hstop, rfl, rfl⟩
    · rintro ⟨front, plot, back, lists, between, cause, hplots, hdrawn, hstop, hfailure, -⟩
      exact ⟨front, plot, back, lists, between, cause, hplots, hdrawn, hstop, hfailure⟩
  · exact ⟨length_drawnEvents h, fun event => level_of_mem_drawnEvents, h.filter_journal⟩

/-- Three plots, the second of which fails after it wrote a file: the first one is told, and the third one writes nothing. -/
theorem runAll_outcome_of_three :
    let plot (name : String) (answer : Except Failure (List Path)) : Plot Run :=
      ⟨name, fun dir => do
        let _ ← writeFile (dir.join (.ofString name)) []
        return answer⟩
    let dir : Path := .ofString "plots"
    let w : World := { storage := ⟨.dir [], []⟩ }
    let run := (runAll dir [plot "a" (.ok [dir]), plot "b" (.error (.other "no ink")), plot "c" (.ok [])] : Run _) w
    run.1 = .error (.plot "b" (.other "no ink")) ∧ run.2.journal = [.plotDrawn "a" 1] ∧
      ["a", "b", "c"].map (fun name => run.2.storage.isFile (dir.join (.ofString name))) = [true, true, false] := by
  intro plot dir w run
  obtain ⟨-, hrun⟩ := runAll_outcome dir [plot "a" (.ok [dir]), plot "b" (.error (.other "no ink")), plot "c" (.ok [])] w
  obtain ⟨-, hfails, -⟩ := hrun _ (List.cons_ne_nil _ _) rfl
  have hlast := (hfails _ _).mpr
    ⟨[plot "a" (.ok [dir])], plot "b" (.error (.other "no ink")), [plot "c" (.ok [])], [[dir]], _, .other "no ink", rfl,
      .next rfl (.nothing _), rfl, rfl, rfl⟩
  have hrun : run = _ := hlast
  rw [hrun]
  refine ⟨?_, ?_, ?_⟩
  · rfl
  · decide +kernel
  · decide +kernel

end LatencyReport.Plot
