import LatencyReport.Proofs.Report.Progress
import LatencyReport.Proofs.Storage.Route

/-!
# `Proofs.Report.Within` — where a report's files lie

The table lies inside the directory that the report writes to. The files of a plot are written to paths that are joined from
this directory and a name that starts as the plot is called, and nobody looks at that name first. So a file lies inside **if
and only if its name leads there** (`Comparison.within_join_fileName_iff`): a name without a slash always does, a name that
starts at the root or leads up may lead anywhere.

The values lie in a directory of their own, one level below the pictures. So a name that leads up one level leaves the
directory with its picture, while its values are still inside.

## Contents

* `Comparison.fileName`, `Comparison.StaysWithin` — names of files, and which of them stay inside;
* `Comparison.ValuesStay`, `Comparison.PictureStays` — values, and pictures;
* `Settings.within_summaryPath`, `Comparison.within_valuesPath_iff`, `Comparison.within_picturePath_iff`,
  `Comparison.staysWithin_of_not_mem` — the files;
* `Config.report_within` — the whole report.
-/

namespace LatencyReport

open Storage

theorem isName_summaryName : IsName summaryName :=
  by decide

/-- The directory for values is in the directory of the pictures. -/
theorem target_plotDataDir (s : Storage) (dir : Path) : s.target (plotDataDir dir) = s.target dir ++ [plotDataName] :=
  s.target_join_of_isName isName_plotDataName

/-- The table is inside the directory that is written to. -/
theorem Settings.within_summaryPath (settings : Settings) (s : Storage) :
    Within (s.target settings.plotPath) (s.target settings.summaryPath) :=
  ⟨summaryName, [], s.target_join_of_isName isName_summaryName⟩

namespace Comparison

/-! ## Names of files -/

variable (c : Comparison) (extension : String) (range : Range)

/-- The name of a file of a range. It is not a name if the plot's is none. -/
def fileName : Path :=
  .ofString (c.stem range ++ extension)

/-- The route that the name of a file leads. -/
def fileRoute : Route :=
  Route.ofParts (c.fileName extension range).parts

/-- The name of a file **does not lead out of a directory**, seen from some levels below: it starts at the root and goes
    down along that directory, or it leads up no further than these levels, or it comes back down along the names that it
    left. -/
def StaysWithin (levels : Nat) (dir : Place) : Prop :=
  if (c.fileName extension range).isAbsolute then
    Within dir (c.fileRoute extension range).down
  else
    (c.fileRoute extension range).up ≤ levels ∨
      Within (dir.drop (dir.length + levels - (c.fileRoute extension range).up)) (c.fileRoute extension range).down

/-- The name of the file for values does not lead out of a directory. It is seen from the directory for values. -/
def ValuesStay (dir : Place) : Prop :=
  c.StaysWithin ".json" range 1 dir

/-- The name of the picture does not lead out of a directory. -/
def PictureStays (dir : Place) : Prop :=
  c.StaysWithin ".png" range 0 dir

theorem fileName_eq : c.fileName extension range = ⟨Utf8.encode c.name.toList ++ rangeEnding extension range⟩ := by
  simp [fileName, stem, rangeEnding, Path.ofString]

section
variable {extension} (hextension : '/' ∉ extension.toList)
include hextension

/-- Whatever the plot is called, the last part of the name is gone down along. -/
theorem fileRoute_down_ne_nil : (c.fileRoute extension range).down ≠ [] := by
  have hending := isEnding_rangeEnding hextension range
  obtain ⟨above, stem, hparts⟩ := Text.exists_splitWith_append (· == Path.slash) (Utf8.encode c.name.toList)
  have hmarks : ∀ b ∈ rangeEnding extension range, (b == Path.slash) = false := by
    intro b hb
    rw [beq_eq_false_iff_ne]
    rintro rfl
    exact hending.no_slash hb
  rw [fileRoute, fileName_eq, Path.parts, hparts _ hmarks, Route.ofParts, List.foldl_append]
  show (Route.step _ (stem ++ rangeEnding extension range)).down ≠ []
  rw [Route.step_name _ (hending.not_idle stem) (hending.not_up stem)]
  exact List.append_ne_nil_of_right_ne_nil _ (List.cons_ne_nil _ _)

/-- **A file is inside a directory** if and only if its name does not lead out of it. -/
theorem within_join_fileName_iff {s : Storage} {dir above : Path} {below : Place}
    (habove : s.target above = s.target dir ++ below) :
    Within (s.target dir) (s.target (above.join (c.fileName extension range))) ↔
      c.StaysWithin extension range below.length (s.target dir) := by
  unfold StaysWithin
  cases habsolute : (c.fileName extension range).isAbsolute with
  | true =>
    rw [if_pos rfl, s.target_join_of_isAbsolute habsolute, Route.seenFrom, List.take_nil, List.nil_append]
    rfl
  | false =>
    rw [if_neg Bool.false_ne_true, s.target_join habsolute, habove]
    exact within_seenFrom_append_iff (c.fileRoute_down_ne_nil range hextension) _ _

/-- **A name without a slash stays inside** every directory. -/
theorem staysWithin_of_not_mem (hname : '/' ∉ c.name.toList) (levels : Nat) (dir : Place) :
    c.StaysWithin extension range levels dir := by
  have hending := isEnding_rangeEnding hextension range
  have hslash : Path.slash ∉ Utf8.encode c.name.toList := Utf8.not_mem_encode (by decide) (by decide) hname
  have hbytes : Path.slash ∉ Utf8.encode c.name.toList ++ rangeEnding extension range := by
    rw [List.mem_append, not_or]
    exact ⟨hslash, hending.no_slash⟩
  have hparts : (c.fileName extension range).parts = [Utf8.encode c.name.toList ++ rangeEnding extension range] := by
    rw [fileName_eq, Path.parts]
    refine Text.splitWith_of_forall_not fun b hb => ?_
    rw [beq_eq_false_iff_ne]
    rintro rfl
    exact hbytes hb
  have habsolute : (c.fileName extension range).isAbsolute = false := by
    rw [fileName_eq, hending.isAbsolute_append, Path.isAbsolute, beq_eq_false_iff_ne]
    exact fun hhead => hslash (List.mem_of_mem_head? hhead)
  have hroute : c.fileRoute extension range = ⟨0, [Utf8.encode c.name.toList ++ rangeEnding extension range]⟩ := by
    rw [fileRoute, hparts]
    show Route.step {} _ = _
    exact Route.step_name {} (hending.not_idle _) (hending.not_up _)
  unfold StaysWithin
  rw [habsolute, if_neg Bool.false_ne_true, hroute]
  exact Or.inl (Nat.zero_le levels)

end

/-! ## Values and pictures -/

/-- **The values are inside the directory of the pictures** if and only if their name does not lead out of it. -/
theorem within_valuesPath_iff (s : Storage) (dir : Path) :
    Within (s.target dir) (s.target (c.valuesPath dir range)) ↔ c.ValuesStay range (s.target dir) :=
  c.within_join_fileName_iff range (by decide) (target_plotDataDir s dir)

/-- **A picture is inside the directory** if and only if its name does not lead out of it. -/
theorem within_picturePath_iff (s : Storage) (dir : Path) :
    Within (s.target dir) (s.target (c.picturePath dir range)) ↔ c.PictureStays range (s.target dir) :=
  c.within_join_fileName_iff range (by decide) (List.append_nil (s.target dir)).symm

end Comparison

namespace Config

variable {c : Config} {r : Renderer} {d : Dataset} {w : World} {answer : Except Failure Unit} {written : List File}

/-! ## What is written -/

/-- A report that comes to its plots has written its files. At each place that their paths lead to stands the latest. -/
theorem report_wrote (hd : ((Dataset.ofDirectory c.settings.dataPath : Run _) w).1 = .ok d)
    (hreaches : ReachesPlots ((c.report r : Run _) w).1) :
    ∃ written, c.Wrote r d ((c.report r : Run _) w).1 written ∧ ∀ file ∈ written,
      ∃ latest, w.storage.IsLatest written latest ∧ w.storage.target latest.1 = w.storage.target file.1 ∧
        ((c.report r : Run _) w).2.storage.root.find? (w.storage.target file.1) = some (.file latest.2) := by
  have hkeeps := (growsBy_report c r w).keeps
  have hread : ((c.readResults : Run _) w).2.storage = w.storage := onlyReads_readResults c w
  rw [report_of_readResults r hd] at hreaches hkeeps ⊢
  obtain ⟨written, hwrote, hstands⟩ := finish_wrote hreaches
  rw [hread] at hstands
  refine ⟨written, hwrote, fun file hfile => ?_⟩
  obtain ⟨latest, hlatest, hplace⟩ := exists_isLatest (s := w.storage) ⟨file, hfile, rfl⟩
  obtain ⟨place, hlocate, hkind⟩ := read_eq_ok_iff.mp (hstands latest hlatest)
  refine ⟨latest, hlatest, hplace, ?_⟩
  rw [← hplace, ← hkeeps.target, target_of_locate hlocate]
  exact kind?_eq_file_iff.mp hkind

/-- The files that were written are the table and files of plots. -/
theorem Wrote.path_cases (h : c.Wrote r d answer written) {file : File} (hfile : file ∈ written) :
    file.1 = c.settings.summaryPath ∨ ∃ plot ∈ c.plots, ∃ range ∈ plot.ranges,
      file.1 = plot.valuesPath c.settings.plotPath range ∨ file.1 = plot.picturePath c.settings.plotPath range := by
  obtain ⟨rest, rfl, hrest⟩ := h.exists_rest
  have houtput : file ∈ c.outputs r d := by
    rcases List.mem_append.mp hfile with htable | hplots
    · exact List.mem_append_left _ htable
    · exact List.mem_append_right _ (hrest.subset hplots)
  exact isOutput_of_mem_outputs houtput

/-- **All files that were written are inside** if and only if none of their names leads out. -/
theorem Wrote.within_iff (h : c.Wrote r d answer written) (s : Storage) :
    (∀ file ∈ written, Within (s.target c.settings.plotPath) (s.target file.1)) ↔
      ∀ plot ∈ c.plots, ∀ range ∈ plot.ranges,
        (plot.valuesPath c.settings.plotPath range ∈ written.map Prod.fst →
          plot.ValuesStay range (s.target c.settings.plotPath)) ∧
        (plot.picturePath c.settings.plotPath range ∈ written.map Prod.fst →
          plot.PictureStays range (s.target c.settings.plotPath)) := by
  constructor
  · intro hwithin plot _ range _
    have hpaths : ∀ path ∈ written.map Prod.fst, Within (s.target c.settings.plotPath) (s.target path) :=
      List.forall_mem_map.mpr hwithin
    exact ⟨fun hvalues => (plot.within_valuesPath_iff range s _).mp (hpaths _ hvalues),
      fun hpicture => (plot.within_picturePath_iff range s _).mp (hpaths _ hpicture)⟩
  · intro hstay file hfile
    have hpath : file.1 ∈ written.map Prod.fst := List.mem_map_of_mem hfile
    rcases h.path_cases hfile with htable | ⟨plot, hplot, range, hrange, hvalues | hpicture⟩
    · rw [htable]
      exact c.settings.within_summaryPath s
    · rw [hvalues] at hpath ⊢
      exact (plot.within_valuesPath_iff range s _).mpr ((hstay plot hplot range hrange).1 hpath)
    · rw [hpicture] at hpath ⊢
      exact (plot.within_picturePath_iff range s _).mpr ((hstay plot hplot range hrange).2 hpath)

/-- A report that succeeds has written the values of all its plots. -/
theorem Wrote.mem_values (h : c.Wrote r d (.ok ()) written) {plot : Comparison} (hplot : plot ∈ c.plots) {range : Range}
    (hrange : range ∈ plot.ranges) :
    (plot.valuesPath c.settings.plotPath range, Utf8.encode (plot.figure d range).toJson.pretty.toList) ∈ written := by
  cases h
  refine List.mem_append_right _ (List.mem_flatMap.mpr ⟨plot, hplot, ?_⟩)
  exact List.mem_flatMap.mpr ⟨plot.job d range, List.mem_map_of_mem hrange, List.mem_cons_self⟩

end Config

end LatencyReport
