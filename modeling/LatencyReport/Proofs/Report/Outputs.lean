import LatencyReport.Proofs.Figure.Stem
import LatencyReport.Proofs.Storage.Runs
import LatencyReport.Proofs.Text.Utf8
import LatencyReport.Report

/-!
# `Proofs.Report.Outputs` — the files that a report writes

The files of a plot are called after the plot, and a plot may have any name, slashes and dots included. So nothing is known
of the directory that such a path leads to. But **how the name ends is known**: a path leads to a name that ends as the
path does, whatever stands before (`exists_target_append`). Hence the files of one plot are different files
(`Comparison.apart_valuesPath`, `Comparison.apart_picturePath`, `Comparison.apart_values_picture`), none of them is the
table (`Settings.apart_summaryPath_values`, `Settings.apart_summaryPath_picture`), and none of a report's files has the
name of a results file (`Config.IsOutput.target_ne`). Two plots that are called alike do write to the same files.

## Contents

* `IsEnding`, `exists_target_append`, `apart_of_ending`, `target_ne_of_ending` — how paths end;
* `join_append`, `isEnding_encode`, `rangeEnding` — the ends of joined paths, of texts and of a plot's files;
* `Comparison.valuesPath`, `Comparison.picturePath` — the files of a plot, and that they are different files;
* `FigureJob.output`, `Comparison.outputs`, `Config.outputs` — what is written there;
* `Config.IsOutput`, `Config.IsOutput.target_ne` — the paths of a report's files.
-/

namespace LatencyReport

open Storage

/-! ## How a path ends -/

/-- What a name can end with: no slash, and something besides dots. -/
structure IsEnding (tail : List UInt8) : Prop where
  no_slash : Path.slash ∉ tail
  not_dots : ∃ b ∈ tail, b ≠ Path.dot

theorem IsEnding.ne_nil {tail : List UInt8} (h : IsEnding tail) : tail ≠ [] := by
  rintro rfl
  obtain ⟨b, hb, _⟩ := h.not_dots
  cases hb

/-- A part with such an end leads somewhere. -/
theorem IsEnding.not_idle {tail : List UInt8} (h : IsEnding tail) (stem : List UInt8) :
    Path.isIdle (stem ++ tail) = false := by
  obtain ⟨b, hb, hdot⟩ := h.not_dots
  have hmem : b ∈ stem ++ tail := List.mem_append_right _ hb
  unfold Path.isIdle
  rw [Bool.or_eq_false_iff, beq_eq_false_iff_ne, beq_eq_false_iff_ne]
  refine ⟨List.ne_nil_of_mem hmem, fun heq => ?_⟩
  rw [heq] at hmem
  exact hdot (List.mem_singleton.mp hmem)

/-- A part with such an end does not lead up. -/
theorem IsEnding.not_up {tail : List UInt8} (h : IsEnding tail) (stem : List UInt8) : stem ++ tail ≠ Path.up := by
  obtain ⟨b, hb, hdot⟩ := h.not_dots
  have hmem : b ∈ stem ++ tail := List.mem_append_right _ hb
  intro heq
  rw [heq] at hmem
  simp only [Path.up, List.mem_cons, List.not_mem_nil, or_false, or_self] at hmem
  exact hdot hmem

/-- A part with such an end is a name. -/
theorem IsEnding.resolve_eq {tail : List UInt8} (h : IsEnding tail) (place : Place) (stem : List UInt8) :
    resolve place (stem ++ tail) = place ++ [stem ++ tail] := by
  rw [resolve, h.not_idle, if_neg Bool.false_ne_true, if_neg (h.not_up stem)]

/-- Whether a path starts at the root is not decided by such an end. -/
theorem IsEnding.isAbsolute_append {tail : List UInt8} (h : IsEnding tail) (front : List UInt8) :
    Path.isAbsolute ⟨front ++ tail⟩ = Path.isAbsolute ⟨front⟩ := by
  cases front with
  | cons b rest => rfl
  | nil =>
    obtain ⟨b, rest, rfl⟩ := List.exists_cons_of_ne_nil h.ne_nil
    unfold Path.isAbsolute
    rw [List.nil_append, List.head?_cons, List.head?_nil, beq_eq_false_iff_ne.mpr]
    · rfl
    · intro hb
      exact h.no_slash (Option.some.inj hb ▸ List.mem_cons_self)

/-- **A path with a name at its end leads to a name with that end**, in a directory and with a start that do not depend
    on it. -/
theorem exists_target_append (s : Storage) (front : List UInt8) :
    ∃ place stem, ∀ tail, IsEnding tail → s.target ⟨front ++ tail⟩ = place ++ [stem ++ tail] := by
  obtain ⟨above, stem, hparts⟩ := Text.exists_splitWith_append (· == Path.slash) front
  refine ⟨above.foldl resolve (s.start ⟨front⟩), stem, fun tail htail => ?_⟩
  have hmarks : ∀ b ∈ tail, (b == Path.slash) = false := by
    intro b hb
    rw [beq_eq_false_iff_ne]
    rintro rfl
    exact htail.no_slash hb
  have hstart : s.start ⟨front ++ tail⟩ = s.start ⟨front⟩ := by
    rw [start, start, htail.isAbsolute_append]
  -- all parts but the last are those of the front, and the last is a name
  rw [target, hstart, Path.parts, hparts tail hmarks, List.foldl_append]
  exact htail.resolve_eq _ stem

/-- Paths that differ in the name's end only lead to different places. -/
theorem apart_of_ending {front tail other : List UInt8} (htail : IsEnding tail) (hother : IsEnding other)
    (hne : tail ≠ other) : Apart ⟨front ++ tail⟩ ⟨front ++ other⟩ := by
  intro s heq
  obtain ⟨place, stem, htarget⟩ := exists_target_append s front
  rw [htarget tail htail, htarget other hother] at heq
  have hname := List.append_cancel_left heq
  rw [List.cons.injEq, List.append_cancel_left_eq] at hname
  exact hne hname.1

/-- A path leads to no name that ends in another byte than the path. -/
theorem target_ne_of_ending {front tail : List UInt8} (htail : IsEnding tail) {s : Storage} {place : Place}
    {stem other : List UInt8} (hother : other ≠ []) (hlast : tail.getLast? ≠ other.getLast?) :
    s.target ⟨front ++ tail⟩ ≠ place ++ [stem ++ other] := by
  intro heq
  obtain ⟨above, start, htarget⟩ := exists_target_append s front
  rw [htarget tail htail] at heq
  have hname : start ++ tail = stem ++ other := by
    have hlasts := congrArg List.getLast? heq
    simpa using hlasts
  have hbytes := congrArg List.getLast? hname
  rw [List.getLast?_append_of_ne_nil _ htail.ne_nil, List.getLast?_append_of_ne_nil _ hother] at hbytes
  exact hlast hbytes

/-- Paths whose last bytes differ lead to different places. -/
theorem apart_of_getLast? {front tail start other : List UInt8} (htail : IsEnding tail) (hother : IsEnding other)
    (hlast : tail.getLast? ≠ other.getLast?) : Apart ⟨front ++ tail⟩ ⟨start ++ other⟩ := by
  intro s
  obtain ⟨place, stem, htarget⟩ := exists_target_append s start
  rw [htarget other hother]
  exact target_ne_of_ending htail hother.ne_nil hlast

/-! ## The paths of a report's files -/

/-- What is put at the end of a name stands at the end of its path. -/
theorem join_append (dir : Path) (name : List UInt8) {tail : List UInt8} (h : IsEnding tail) :
    dir.join ⟨name ++ tail⟩ = ⟨(dir.join ⟨name⟩).bytes ++ tail⟩ := by
  unfold Path.join
  rw [h.isAbsolute_append]
  split
  · rfl
  · split <;> simp

/-- A text without a slash that is not all dots is what a name can end with. -/
theorem isEnding_encode {s : List Char} (hslash : '/' ∉ s) {c : Char} (hc : c ∈ s) (hdot : c ≠ '.') :
    IsEnding (Utf8.encode s) where
  no_slash := Utf8.not_mem_encode (by decide) (by decide) hslash
  not_dots := by
    have hno : Path.dot ∉ Utf8.encode [c] :=
      Utf8.not_mem_encode (c := '.') (by decide) (by decide) (by simpa using hdot.symm)
    obtain ⟨b, rest, hbytes⟩ := List.exists_cons_of_ne_nil (String.utf8EncodeChar_ne_nil (c := c))
    have hb : b ∈ String.utf8EncodeChar c := hbytes ▸ List.mem_cons_self
    refine ⟨b, List.mem_flatMap.mpr ⟨c, hc, hb⟩, ?_⟩
    rintro rfl
    exact hno (List.mem_flatMap.mpr ⟨c, List.mem_cons_self, hb⟩)

theorem slash_not_mem_slug (range : Range) : '/' ∉ range.slug.toList := by
  have hsize : ∀ size, '/' ∉ (Size.format size).toList := Size.not_mem_format (by decide) (by decide)
  cases range with
  | all => decide
  | atMost threshold => simp [Range.slug, hsize]
  | above threshold => simp [Range.slug, hsize]

/-- How a file of a range ends. -/
def rangeEnding (extension : String) (range : Range) : List UInt8 :=
  Utf8.encode ("_" ++ range.slug ++ extension).toList

section
variable {extension : String}

theorem isEnding_rangeEnding (hextension : '/' ∉ extension.toList) (range : Range) :
    IsEnding (rangeEnding extension range) := by
  have hunderscore : '_' ∈ ("_" ++ range.slug ++ extension).toList := by simp
  exact isEnding_encode (by simp [slash_not_mem_slug, hextension]) hunderscore (by decide)

/-- The end of a file tells its range. -/
theorem rangeEnding_injective (extension : String) : Function.Injective (rangeEnding extension) := by
  intro a b h
  have htexts := Utf8.encode_injective h
  simp only [String.toList_append] at htexts
  have hslugs : [] ++ '_' :: a.slug.toList = [] ++ '_' :: b.slug.toList := List.append_cancel_right htexts
  exact (stem_inj hslugs).2

theorem getLast?_rangeEnding (hextension : Utf8.encode extension.toList ≠ []) (range : Range) :
    (rangeEnding extension range).getLast? = (Utf8.encode extension.toList).getLast? := by
  rw [rangeEnding, String.toList_append, Utf8.encode_append, List.getLast?_append_of_ne_nil _ hextension]

end

/-- The name of the table. -/
def summaryName : List UInt8 := Utf8.encode "summary.csv".toList

theorem isEnding_summaryName : IsEnding summaryName :=
  isEnding_encode (by decide) (c := 's') (by decide) (by decide)

/-- The name of the directory for values. -/
def plotDataName : List UInt8 := Utf8.encode "plot_data".toList

theorem isName_plotDataName : IsName plotDataName :=
  by decide

theorem Settings.exists_summaryPath_eq (s : Settings) : ∃ front, s.summaryPath = ⟨front ++ summaryName⟩ := by
  have hpath := join_append s.plotPath [] isEnding_summaryName
  exact ⟨_, hpath⟩

namespace Comparison

/-- The file for the values of a range of a plot. -/
def valuesPath (c : Comparison) (dir : Path) (range : Range) : Path :=
  plotDataPath dir (c.stem range)

/-- The file for the picture of a range of a plot. -/
def picturePath (c : Comparison) (dir : Path) (range : Range) : Path :=
  plotPicturePath dir (c.stem range)

theorem isEnding_values (range : Range) : IsEnding (rangeEnding ".json" range) :=
  isEnding_rangeEnding (by decide) range

theorem isEnding_picture (range : Range) : IsEnding (rangeEnding ".png" range) :=
  isEnding_rangeEnding (by decide) range

theorem getLast?_values (range : Range) : (rangeEnding ".json" range).getLast? = some 0x6E :=
  getLast?_rangeEnding (by decide) range

theorem getLast?_picture (range : Range) : (rangeEnding ".png" range).getLast? = some 0x67 :=
  getLast?_rangeEnding (by decide) range

/-- A name with a range and an extension, seen from a directory: all that the range changes of the path is its end. -/
theorem join_stem_eq (c : Comparison) (dir : Path) {extension : String} (hextension : '/' ∉ extension.toList)
    (range : Range) :
    dir.join (.ofString (c.stem range ++ extension)) =
      ⟨(dir.join (.ofString c.name)).bytes ++ rangeEnding extension range⟩ := by
  rw [Path.ofString, Path.ofString, ← join_append _ _ (isEnding_rangeEnding hextension range)]
  simp [stem, rangeEnding]

theorem exists_valuesPath_eq (c : Comparison) (dir : Path) :
    ∃ front, ∀ range, c.valuesPath dir range = ⟨front ++ rangeEnding ".json" range⟩ :=
  ⟨_, c.join_stem_eq (plotDataDir dir) (by decide)⟩

theorem exists_picturePath_eq (c : Comparison) (dir : Path) :
    ∃ front, ∀ range, c.picturePath dir range = ⟨front ++ rangeEnding ".png" range⟩ :=
  ⟨_, c.join_stem_eq dir (by decide)⟩

/-- The values of different ranges lie at different places, since their names end differently. -/
theorem apart_valuesPath (c : Comparison) (dir : Path) {a b : Range} (h : a ≠ b) :
    Apart (c.valuesPath dir a) (c.valuesPath dir b) := by
  obtain ⟨front, hpath⟩ := c.exists_valuesPath_eq dir
  rw [hpath, hpath]
  exact apart_of_ending (isEnding_values a) (isEnding_values b) ((rangeEnding_injective _).ne h)

/-- The pictures of different ranges lie at different places. -/
theorem apart_picturePath (c : Comparison) (dir : Path) {a b : Range} (h : a ≠ b) :
    Apart (c.picturePath dir a) (c.picturePath dir b) := by
  obtain ⟨front, hpath⟩ := c.exists_picturePath_eq dir
  rw [hpath, hpath]
  exact apart_of_ending (isEnding_picture a) (isEnding_picture b) ((rangeEnding_injective _).ne h)

/-- **Values and pictures are different files**, whatever the plots are called. -/
theorem apart_values_picture (c other : Comparison) (dir : Path) (a b : Range) :
    Apart (c.valuesPath dir a) (other.picturePath dir b) := by
  obtain ⟨front, hvalues⟩ := c.exists_valuesPath_eq dir
  obtain ⟨start, hpicture⟩ := other.exists_picturePath_eq dir
  rw [hvalues, hpicture]
  refine apart_of_getLast? (isEnding_values a) (isEnding_picture b) ?_
  rw [getLast?_values, getLast?_picture]
  decide

theorem nodup_ranges (c : Comparison) : c.ranges.Nodup := by
  unfold ranges
  cases c.threshold <;> simp

end Comparison

/-- **No plot is called so that its values become the table.** -/
theorem Settings.apart_summaryPath_values (s : Settings) (c : Comparison) (dir : Path) (range : Range) :
    Apart s.summaryPath (c.valuesPath dir range) := by
  obtain ⟨front, htable⟩ := s.exists_summaryPath_eq
  obtain ⟨start, hvalues⟩ := c.exists_valuesPath_eq dir
  rw [htable, hvalues]
  refine apart_of_getLast? isEnding_summaryName (Comparison.isEnding_values range) ?_
  rw [Comparison.getLast?_values]
  decide

/-- No plot is called so that its picture becomes the table. -/
theorem Settings.apart_summaryPath_picture (s : Settings) (c : Comparison) (dir : Path) (range : Range) :
    Apart s.summaryPath (c.picturePath dir range) := by
  obtain ⟨front, htable⟩ := s.exists_summaryPath_eq
  obtain ⟨start, hpicture⟩ := c.exists_picturePath_eq dir
  rw [htable, hpicture]
  refine apart_of_getLast? isEnding_summaryName (Comparison.isEnding_picture range) ?_
  rw [Comparison.getLast?_picture]
  decide

/-! ## What is written there -/

/-- The file for the values of a figure. -/
def FigureJob.output (dir : Path) (job : FigureJob) : File :=
  (plotDataPath dir job.stem, Utf8.encode job.figure.toJson.pretty.toList)

namespace Comparison

/-- What becomes of the picture of a figure. -/
def rendering (c : Comparison) (r : Renderer) (dir : Path) (job : FigureJob) : Rendering :=
  r.render (plotPicturePath dir job.stem) (c.picture job)

/-- The file of a picture, if anything is put into it. -/
def pictureOutputs (c : Comparison) (r : Renderer) (dir : Path) (job : FigureJob) : List File :=
  (c.rendering r dir job).content?.toList.map fun content => (plotPicturePath dir job.stem, content)

/-- The files of a figure. -/
def figureOutputs (c : Comparison) (r : Renderer) (dir : Path) (job : FigureJob) : List File :=
  job.output dir :: c.pictureOutputs r dir job

/-- The files of a plot: for each figure its values, and then its picture. -/
def outputs (c : Comparison) (r : Renderer) (d : Dataset) (dir : Path) : List File :=
  (c.figures d).flatMap (c.figureOutputs r dir)

/-- The files of a plot lie where the values and the pictures of its ranges do. -/
theorem exists_path_of_mem_outputs {c : Comparison} {r : Renderer} {d : Dataset} {dir : Path} {file : File}
    (h : file ∈ c.outputs r d dir) :
    ∃ range ∈ c.ranges, file.1 = c.valuesPath dir range ∨ file.1 = c.picturePath dir range := by
  obtain ⟨job, hjob, hfile⟩ := List.mem_flatMap.mp h
  obtain ⟨range, hrange, rfl⟩ := List.mem_map.mp hjob
  refine ⟨range, hrange, ?_⟩
  rcases List.mem_cons.mp hfile with rfl | hpicture
  · exact Or.inl rfl
  · obtain ⟨content, _, rfl⟩ := List.mem_map.mp hpicture
    exact Or.inr rfl

end Comparison

namespace Config

/-- The file of the table, if it is asked for. -/
def tableOutputs (c : Config) (d : Dataset) : List File :=
  if c.settings.summary then [(c.settings.summaryPath, Utf8.encode d.table.toList)] else []

/-- **The files of a report**, in the order in which they are written: the table, and those of each plot. -/
def outputs (c : Config) (r : Renderer) (d : Dataset) : List File :=
  c.tableOutputs d ++ c.plots.flatMap fun plot => plot.outputs r d c.settings.plotPath

/-- A file that a report writes. -/
def IsOutput (c : Config) (path : Path) : Prop :=
  path = c.settings.summaryPath ∨
    ∃ plot ∈ c.plots, ∃ range ∈ plot.ranges,
      path = plot.valuesPath c.settings.plotPath range ∨ path = plot.picturePath c.settings.plotPath range

/-- A directory that a report makes. -/
def IsOutputDir (c : Config) (path : Path) : Prop :=
  path ∈ c.settings.plotPath.ancestors ∨ path ∈ (plotDataDir c.settings.plotPath).ancestors

/-- Files are written where a report's files lie. -/
theorem isOutput_of_mem_outputs {c : Config} {r : Renderer} {d : Dataset} {file : File} (h : file ∈ c.outputs r d) :
    c.IsOutput file.1 := by
  rcases List.mem_append.mp h with htable | hplots
  · unfold tableOutputs at htable
    split at htable
    · rw [List.mem_singleton.mp htable]
      exact Or.inl rfl
    · cases htable
  · obtain ⟨plot, hplot, hfile⟩ := List.mem_flatMap.mp hplots
    exact Or.inr ⟨plot, hplot, Comparison.exists_path_of_mem_outputs hfile⟩

end Config

/-- The end of a results file's name. -/
def textEnding : List UInt8 := Utf8.encode ".txt".toList

/-- **No file that a report writes can be a results file**: its name has another end, whatever the plots are called. -/
theorem Config.IsOutput.target_ne {c : Config} {path : Path} (h : c.IsOutput path) (s : Storage) (place : Place)
    (stem : List UInt8) : s.target path ≠ place ++ [stem ++ textEnding] := by
  rcases h with rfl | ⟨plot, _, range, _, rfl | rfl⟩
  · obtain ⟨front, hpath⟩ := c.settings.exists_summaryPath_eq
    rw [hpath]
    exact target_ne_of_ending isEnding_summaryName (by decide) (by decide)
  · obtain ⟨front, hpath⟩ := plot.exists_valuesPath_eq c.settings.plotPath
    rw [hpath]
    refine target_ne_of_ending (Comparison.isEnding_values range) (by decide) ?_
    rw [Comparison.getLast?_values]
    decide
  · obtain ⟨front, hpath⟩ := plot.exists_picturePath_eq c.settings.plotPath
    rw [hpath]
    refine target_ne_of_ending (Comparison.isEnding_picture range) (by decide) ?_
    rw [Comparison.getLast?_picture]
    decide

end LatencyReport
