import LatencyReport.Proofs.Storage.Runs
import LatencyReport.Report

/-!
# `Proofs.Report.Stages` — a report stops where it fails

A report reads, makes its directory, writes its table and draws. Reading changes no file (`onlyReads_ofDirectory`), and
making the directory knows of the files only, so **each stage is decided by the files that the stages before it left**
(`writeSummary_eq`, `report_eq`): when one of them fails, what is left is what it left (`report_stages`).

A directory is made with those above it, and the path may lead through any of them. So a directory that later stages
would make can be among those that are made before the table fails (`report_makes_plotDataDir_above`).

## Contents

* `onlyReads_ofDirectory`, `onlyReads_readResults` — the first stage changes nothing;
* `ofDirectory_of_list_error`, `exists_ofDirectory_of_list` — it fails exactly if there is no listing;
* `Config.writeSummary_eq`, `Config.report_eq`, `Config.drawPlots_nil` — the stages as equations;
* `Config.report_of_list_error`, `Config.report_of_writeSummary_error`, `Config.report_of_writeSummary_ok` — where a
  report stops;
* `Config.report_stages` — all of it; `Config.report_makes_plotDataDir_above` — what may be made before.
-/

namespace LatencyReport

open Storage

/-! ## Reading results -/

theorem onlyReads_onlyFiles (paths : List Path) : OnlyReads (Dataset.onlyFiles paths : Run _) := by
  intro w
  rw [onlyFiles_eq]

theorem onlyReads_readRecords (path : Path) : OnlyReads (readRecords path : Run _) := by
  refine (onlyReads_readFile path).bind fun content => ?_
  cases content with
  | error cause => exact onlyReads_pure _
  | ok data =>
    refine (onlyReads_tell _).bind fun _ => ?_
    cases (Records.parse path data).records? <;> exact onlyReads_pure _

theorem onlyReads_addFile (d : Dataset) (path : Path) : OnlyReads (d.addFile path : Run _) := by
  unfold Dataset.addFile
  cases Dataset.experimentOf path with
  | error cause => exact onlyReads_pure _
  | ok experiment =>
    refine (onlyReads_readRecords path).bind fun read => ?_
    cases read with
    | error cause => exact onlyReads_pure _
    | ok records => exact ((onlyReads_tell _).bind fun _ => onlyReads_pure _).bind fun _ => onlyReads_pure _

theorem onlyReads_addFiles (d : Dataset) (skipped : Nat) (paths : List Path) :
    OnlyReads (d.addFiles skipped paths : Run _) := by
  induction paths generalizing d skipped with
  | nil => exact onlyReads_pure _
  | cons path rest ih =>
    refine (onlyReads_addFile d path).bind fun added => ?_
    cases added with
    | ok more => exact ih more skipped
    | error cause => exact (onlyReads_log _).bind fun _ => ih d (skipped + 1)

/-- **Reading a directory changes no file.** -/
theorem onlyReads_ofDirectory (dir : Path) : OnlyReads (Dataset.ofDirectory dir : Run _) := by
  refine (onlyReads_listDir dir).bind fun listed => ?_
  cases listed with
  | error cause => exact onlyReads_pure _
  | ok names =>
    refine (onlyReads_onlyFiles _).bind fun files => (onlyReads_addFiles _ _ _).bind fun read => ?_
    exact (onlyReads_log _).bind fun _ => onlyReads_pure _

theorem listDir_eq (dir : Path) (w : World) : (listDir dir : Run _) w = (w.storage.list dir, w) := rfl

/-- Reading a directory fails if it cannot be listed, and then before anything is told. -/
theorem ofDirectory_of_list_error {dir : Path} {w : World} {e : OsError} (h : w.storage.list dir = .error e) :
    (Dataset.ofDirectory dir : Run _) w = (.error (.io dir e), w) := by
  unfold Dataset.ofDirectory
  rw [bind_eq, listDir_eq, h]
  rfl

/-- Reading a directory that can be listed gives a dataset. -/
theorem exists_ofDirectory_of_list {dir : Path} {w : World} {names : List (List UInt8)}
    (h : w.storage.list dir = .ok names) : ∃ d, ((Dataset.ofDirectory dir : Run _) w).1 = .ok d := by
  unfold Dataset.ofDirectory
  rw [bind_eq, listDir_eq, h]
  exact ⟨_, rfl⟩

namespace Config

variable {c : Config} {w : World}

theorem onlyReads_readResults (c : Config) : OnlyReads (c.readResults : Run _) := by
  refine (onlyReads_ofDirectory _).bind fun read => ?_
  cases read with
  | error cause => exact onlyReads_pure _
  | ok d =>
    show OnlyReads (if d.rows.isEmpty then _ else _)
    cases d.rows.isEmpty with
    | true => exact (onlyReads_log _).bind fun _ => onlyReads_pure _
    | false => exact onlyReads_pure _

theorem readResults_fst {d : Dataset} (h : ((Dataset.ofDirectory c.settings.dataPath : Run _) w).1 = .ok d) :
    ((c.readResults : Run _) w).1 = .ok d := by
  unfold readResults
  rw [bind_eq, h]
  show ((if d.rows.isEmpty then _ else _ : Run _) _).1 = _
  cases d.rows.isEmpty <;> rfl

/-! ## The stages -/

/-- Making a directory knows of the files only, not of what was told. -/
theorem makeDirs_of_storage_eq {path : Path} {w w' : World} (h : w'.storage = w.storage) :
    (makeDirs path : Run _) w' =
      (((makeDirs path : Run _) w).1, { w' with storage := ((makeDirs path : Run _) w).2.storage }) := by
  rw [makeDirs, makeDirsFrom_eq, makeDirsFrom_eq, h]

/-- **The second stage**: the directory that is written to is made, and the table written into it if it is asked
    for. -/
theorem writeSummary_eq (c : Config) (d : Dataset) (w : World) :
    (c.writeSummary d : Run _) w =
      match (makeDirs c.settings.plotPath : Run _) w with
      | (.error e, made) => (.error (.plotDir c.settings.plotPath e), made)
      | (.ok (), made) =>
        if c.settings.summary then
          match made.storage.write c.settings.summaryPath (Utf8.encode d.table.toList) with
          | .error e => (.error (.summary c.settings.summaryPath (.table c.settings.summaryPath e)), made)
          | .ok storage => (.ok (), ({ made with storage } : World).told [.summaryWritten c.settings.summaryPath])
        else (.ok (), made) := by
  unfold writeSummary makePlotDirs
  simp only [bind_eq]
  cases (makeDirs c.settings.plotPath : Run _) w with
  | mk answer made =>
    cases answer with
    | error e => rfl
    | ok done =>
      cases c.settings.summary with
      | false => rfl
      | true =>
        have hwrite : (writeFile c.settings.summaryPath (Utf8.encode d.table.toList) : Run _) made =
            made.change (made.storage.write c.settings.summaryPath (Utf8.encode d.table.toList)) := rfl
        simp only [makePlotDirs, pure_eq, if_true, Dataset.writeTable, bind_eq, hwrite]
        cases made.storage.write c.settings.summaryPath (Utf8.encode d.table.toList) <;> rfl

/-- The second stage is decided by the files that it finds, not by what was told before. -/
theorem writeSummary_of_storage_eq {w' : World} (h : w'.storage = w.storage) (d : Dataset) :
    (c.writeSummary d : Run _) w' =
      match (makeDirs c.settings.plotPath : Run _) w with
      | (.error e, made) => (.error (.plotDir c.settings.plotPath e), { w' with storage := made.storage })
      | (.ok (), made) =>
        if c.settings.summary then
          match made.storage.write c.settings.summaryPath (Utf8.encode d.table.toList) with
          | .error e =>
            (.error (.summary c.settings.summaryPath (.table c.settings.summaryPath e)),
              { w' with storage := made.storage })
          | .ok storage => (.ok (), ({ w' with storage } : World).told [.summaryWritten c.settings.summaryPath])
        else (.ok (), ({ w' with storage := made.storage } : World).told []) := by
  rw [writeSummary_eq, makeDirs_of_storage_eq h]
  cases (makeDirs c.settings.plotPath : Run _) w with
  | mk answer made =>
    cases answer with
    | error e => rfl
    | ok done =>
      simp only [World.told_nil]

/-- A report is its stages, and each starts only after the one before it succeeded. -/
theorem report_eq (c : Config) (r : Renderer) (w : World) :
    (c.report r : Run _) w =
      match (c.readResults : Run _) w with
      | (.error failure, reading) => (.error failure, reading)
      | (.ok d, reading) =>
        match (c.writeSummary d : Run _) reading with
        | (.error failure, writing) => (.error failure, writing)
        | (.ok (), writing) => (c.drawPlots r d : Run _) writing := by
  unfold report
  simp only [bind_eq]
  cases (c.readResults : Run _) w with
  | mk answer reading =>
    cases answer with
    | error failure => rfl
    | ok d =>
      simp only [bind_eq]
      cases (c.writeSummary d : Run _) reading with
      | mk answer writing => cases answer <;> rfl

/-- Without plots nothing is drawn. -/
theorem drawPlots_nil (h : c.plots = []) (r : Renderer) (d : Dataset) (w : World) :
    (c.drawPlots r d : Run _) w = (.ok (), w.told [.noPlots, .reportDone c.name 0 c.settings.plotPath]) := by
  unfold drawPlots
  rw [h, bind_eq]
  show (_, (w.told [.noPlots]).told [.reportDone c.name 0 c.settings.plotPath]) = _
  rw [World.told_told, List.singleton_append]

/-! ## Where a report stops -/

section
variable {r : Renderer} {d : Dataset} {made : World} {e : OsError}

/-- The report stops at the first stage. -/
theorem report_of_list_error (h : w.storage.list c.settings.dataPath = .error e) :
    (c.report r : Run _) w = (.error (.results c.settings.dataPath (.io c.settings.dataPath e)), w) := by
  have hreading : (c.readResults : Run _) w =
      (.error (.results c.settings.dataPath (.io c.settings.dataPath e)), w) := by
    unfold readResults
    rw [bind_eq, ofDirectory_of_list_error h]
    rfl
  rw [report_eq, hreading]

/-- What follows the first stage starts from the same files, and knows nothing of the plots until it draws them. -/
theorem report_of_ofDirectory (hd : ((Dataset.ofDirectory c.settings.dataPath : Run _) w).1 = .ok d) :
    ∃ reading : World, reading.storage = w.storage ∧ ∀ plots,
      (({ c with plots } : Config).report r : Run _) w =
        match (c.writeSummary d : Run _) reading with
        | (.error failure, writing) => (.error failure, writing)
        | (.ok (), writing) => (({ c with plots } : Config).drawPlots r d : Run _) writing := by
  refine ⟨((c.readResults : Run _) w).2, onlyReads_readResults c w, fun plots => ?_⟩
  have hreading : (({ c with plots } : Config).readResults : Run _) w = (.ok d, ((c.readResults : Run _) w).2) :=
    Prod.ext (readResults_fst hd) rfl
  rw [report_eq, hreading]
  rfl

/-- The report stops at the second stage. -/
theorem report_of_writeSummary_error {failure : Failure} {s : Storage}
    (hd : ((Dataset.ofDirectory c.settings.dataPath : Run _) w).1 = .ok d)
    (hstage : ∀ reading : World, reading.storage = w.storage →
      (c.writeSummary d : Run _) reading = (.error failure, { reading with storage := s })) :
    ((c.report r : Run _) w).1 = .error failure ∧ ((c.report r : Run _) w).2.storage = s ∧
      ∀ plots, (({ c with plots } : Config).report r : Run _) w = (c.report r : Run _) w := by
  obtain ⟨reading, hreading, hreport⟩ := report_of_ofDirectory hd
  simp only [hstage reading hreading] at hreport
  have hthis : (c.report r : Run _) w = (.error failure, { reading with storage := s }) := hreport c.plots
  rw [hthis]
  exact ⟨rfl, rfl, hreport⟩

/-- The report comes to its end if there are no plots. -/
theorem report_of_writeSummary_ok {s : Storage} {told : List Event}
    (hd : ((Dataset.ofDirectory c.settings.dataPath : Run _) w).1 = .ok d)
    (hstage : ∀ reading : World, reading.storage = w.storage →
      (c.writeSummary d : Run _) reading = (.ok (), ({ reading with storage := s } : World).told told))
    (hplots : c.plots = []) :
    ((c.report r : Run _) w).1 = .ok () ∧ ((c.report r : Run _) w).2.storage = s := by
  obtain ⟨reading, hreading, hreport⟩ := report_of_ofDirectory hd
  simp only [hstage reading hreading] at hreport
  have hthis : (c.report r : Run _) w = (c.drawPlots r d : Run _) (({ reading with storage := s } : World).told told) :=
    hreport c.plots
  rw [hthis, drawPlots_nil hplots]
  exact ⟨rfl, rfl⟩

end

/-- **A report stops at the stage that fails**, and nothing of the later stages was done. For every configuration, all
    files, and whatever draws the pictures: if the results cannot be listed, nothing is changed or told. If the directory
    that is written to cannot be made, some directories above it were made at most, and no file was touched. If the table
    is asked for and cannot be written, no plot was run: what is answered, told and left is the same with any other plots,
    no file was touched, and no directory was made but the one that is written to and those above it. And if there are no
    plots the report succeeds with these directories, and with the table exactly if it is asked for. -/
theorem report_stages (c : Config) (r : Renderer) (w : World) :
    match w.storage.list c.settings.dataPath with
    | .error e => (c.report r : Run _) w = (.error (.results c.settings.dataPath (.io c.settings.dataPath e)), w)
    | .ok _ =>
      ∃ d, ((Dataset.ofDirectory c.settings.dataPath : Run _) w).1 = .ok d ∧
        match (makeDirs c.settings.plotPath : Run _) w with
        | (.error e, made) =>
          Grows noPath (· ∈ c.settings.plotPath.ancestors.tail) w.storage made.storage ∧
            ((c.report r : Run _) w).1 = .error (.plotDir c.settings.plotPath e) ∧
            ((c.report r : Run _) w).2.storage = made.storage
        | (.ok (), made) =>
          Grows noPath (· ∈ c.settings.plotPath.ancestors) w.storage made.storage ∧
            if c.settings.summary then
              match made.storage.write c.settings.summaryPath (Utf8.encode d.table.toList) with
              | .error e =>
                ((c.report r : Run _) w).1 = .error (.summary c.settings.summaryPath (.table c.settings.summaryPath e)) ∧
                  ((c.report r : Run _) w).2.storage = made.storage ∧
                  ∀ plots, (({ c with plots } : Config).report r : Run _) w = (c.report r : Run _) w
              | .ok after =>
                Grows (· = c.settings.summaryPath) noPath made.storage after ∧
                  after.read c.settings.summaryPath = .ok (Utf8.encode d.table.toList) ∧
                  (c.plots = [] → ((c.report r : Run _) w).1 = .ok () ∧ ((c.report r : Run _) w).2.storage = after)
            else
              c.plots = [] → ((c.report r : Run _) w).1 = .ok () ∧ ((c.report r : Run _) w).2.storage = made.storage := by
  cases hlist : w.storage.list c.settings.dataPath with
  | error e => exact report_of_list_error hlist
  | ok names =>
    obtain ⟨d, hd⟩ := exists_ofDirectory_of_list hlist
    refine ⟨d, hd, ?_⟩
    have hmakes := (attemptAt_makeDirs c.settings.plotPath w).2
    -- the stages that follow find the files of `w`, whatever was told while reading
    have hstage := fun (reading : World) (hreading : reading.storage = w.storage) =>
      writeSummary_of_storage_eq (c := c) hreading d
    cases hdirs : (makeDirs c.settings.plotPath : Run _) w with
    | mk answer made =>
      rw [hdirs] at hmakes
      simp only [hdirs] at hstage
      cases answer with
      | error e =>
        obtain ⟨hanswer, hleft, _⟩ := report_of_writeSummary_error hd hstage
        exact ⟨hmakes, hanswer, hleft⟩
      | ok done =>
        refine ⟨hmakes.1, ?_⟩
        cases hsummary : c.settings.summary with
        | false =>
          simp only [hsummary, Bool.false_eq_true, if_false] at hstage
          exact report_of_writeSummary_ok hd hstage
        | true =>
          simp only [hsummary, if_true] at hstage
          simp only [if_true]
          cases hwrite : made.storage.write c.settings.summaryPath (Utf8.encode d.table.toList) with
          | error e =>
            simp only [hwrite] at hstage
            exact report_of_writeSummary_error hd hstage
          | ok after =>
            simp only [hwrite] at hstage
            exact ⟨grows_of_write hwrite rfl, read_of_write hwrite, report_of_writeSummary_ok hd hstage⟩

/-- An empty directory of results and no plots: the report succeeds, and leaves an empty table. -/
theorem report_stages_without_plots :
    let c : Config := { name := "x", plots := [] }
    let w : World := { storage := ⟨.dir [(Utf8.encode "results".toList, .dir [])], []⟩ }
    c.plots = [] ∧ ((c.report : Run _) w).1 = .ok () ∧
      ((c.report : Run _) w).2.storage.isDir c.settings.plotPath = true ∧
      ∃ d : Dataset,
        ((c.report : Run _) w).2.storage.read c.settings.summaryPath = .ok (Utf8.encode d.table.toList) := by
  intro c w
  let made : World := { storage := ⟨.dir [(Utf8.encode "results".toList, .dir []),
    (Utf8.encode "plots".toList, .dir [])], []⟩ }
  have hdata : c.settings.dataPath = .ofString "results" := rfl
  have hplot : c.settings.plotPath = .ofString "plots" := rfl
  have hlist : w.storage.list (.ofString "results") = .ok [] := rfl
  have hdirs : (makeDirs (.ofString "plots") : Run _) w = (.ok (), made) := rfl
  have hstages := report_stages c .withoutFont w
  rw [hdata, hlist, hplot] at hstages
  obtain ⟨d, _, hrest⟩ := hstages
  rw [hdirs] at hrest
  obtain ⟨_, hrest⟩ := hrest
  rw [if_pos (show c.settings.summary = true from rfl)] at hrest
  obtain ⟨after, hwrite⟩ : ∃ after, made.storage.write (.ofString "plots/summary.csv") (Utf8.encode d.table.toList) =
      .ok after := ⟨_, rfl⟩
  have hsummary : c.settings.summaryPath = .ofString "plots/summary.csv" := by
    show (Path.ofString "plots").join (.ofString "summary.csv") = _
    decide
  rw [hsummary, hwrite] at hrest
  obtain ⟨hgrows, hread, hend⟩ := hrest
  obtain ⟨hanswer, hleft⟩ := hend rfl
  rw [hleft, hplot, hsummary]
  exact ⟨rfl, hanswer, hgrows.keeps.isDir rfl, d, hread⟩

/-- **A directory for values can be made although no table can be written**: it is one of those above the directory
    that is written to, if the path of that one leads through it. -/
theorem report_makes_plotDataDir_above :
    let c : Config := { name := "x", settings := { plotDir := "plot_data/.." }, plots := [] }
    let w : World := { storage := ⟨.dir [(Utf8.encode "results".toList, .dir []),
      (Utf8.encode "summary.csv".toList, .dir [])], []⟩ }
    ((c.report : Run _) w).1 =
        .error (.summary c.settings.summaryPath (.table c.settings.summaryPath .isADirectory)) ∧
      w.storage.isDir (plotDataDir c.settings.plotPath) = false ∧
      ((c.report : Run _) w).2.storage.isDir (plotDataDir c.settings.plotPath) = true := by
  intro c w
  let made : Storage := ⟨.dir [(Utf8.encode "results".toList, .dir []), (Utf8.encode "summary.csv".toList, .dir []),
    (Utf8.encode "plot_data".toList, .dir [])], []⟩
  have hdata : c.settings.dataPath = .ofString "results" := rfl
  have hplot : c.settings.plotPath = .ofString "plot_data/.." := rfl
  have hsummary : c.settings.summaryPath = .ofString "plot_data/../summary.csv" := by
    show (Path.ofString "plot_data/..").join (.ofString "summary.csv") = _
    decide
  have hlist : w.storage.list (.ofString "results") = .ok [] := rfl
  have hdirs : w.storage.makeDirsFrom (Path.ofString "plot_data/..").ancestors = (.ok (), made) := rfl
  have hwrite : ∀ content, made.write (.ofString "plot_data/../summary.csv") content = .error .isADirectory :=
    fun _ => rfl
  obtain ⟨d, hd⟩ := exists_ofDirectory_of_list hlist
  have hstage : ∀ reading : World, reading.storage = w.storage → (c.writeSummary d : Run _) reading =
      (.error (.summary c.settings.summaryPath (.table c.settings.summaryPath .isADirectory)),
        { reading with storage := made }) := by
    intro reading hreading
    rw [writeSummary_eq, hplot, makeDirs, makeDirsFrom_eq, hreading, hdirs]
    simp only [hsummary, hwrite]
    rfl
  obtain ⟨hanswer, hleft, _⟩ := report_of_writeSummary_error (hdata ▸ hd) hstage
  rw [hleft, hplot]
  exact ⟨hanswer, rfl, rfl⟩

end Config

end LatencyReport
