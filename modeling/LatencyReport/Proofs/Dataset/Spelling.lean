import LatencyReport.Dataset.Table
import LatencyReport.Proofs.Dataset.Directory
import LatencyReport.Proofs.Experiment.FileName
import LatencyReport.Proofs.Figure.Points
import LatencyReport.Proofs.Text.Utf8
import Mathlib.Data.List.Pairwise

/-!
# `Proofs.Dataset.Spelling` — experiments that are spelled in two ways

The names of a directory's files differ, but the experiments that they tell need not: a size can be spelled with
leading zeros or with a plus sign, and **every spelling is a name of its own** (`nameWith_injective`). So a dataset has
one row for every experiment exactly when no two of its files spell one experiment differently
(`nodup_experiments_iff`). Then, and only by that, a series has one point at most for every message size, and the table
one line at most for every phase of an experiment. Nothing looks for a second file of an experiment
(`ofDirectory_repeats_experiment`).

## Contents

* `Experiment.IsNumeral`, `Experiment.nameWith` — the names of one experiment;
* `SpelledOnce`, `nodup_experiments_iff` — when no experiment has two rows;
* `nodup_sizes`, `nodup_keys` — what follows for figures and for the table;
* `ofDirectory_experiments` — directories; `ofDirectory_repeats_experiment` — one with two files of one experiment.
-/

namespace LatencyReport

/-! ## The names of one experiment -/

namespace Experiment

/-- A text spells the experiment's message size. -/
def IsNumeral (e : Experiment) (numeral : String) : Prop :=
  Text.Spells numeral.toList e.messageSize.toNat

/-- The bytes of the experiment's name with this text for its message size. -/
def nameWith (e : Experiment) (numeral : String) : List UInt8 :=
  Utf8.encode (e.label.stem ++ "_" ++ numeral ++ ".txt").toList

/-- **Names tell experiment and spelling.** -/
theorem nameWith_injective {e₁ e₂ : Experiment} {numeral₁ numeral₂ : String} (h₁ : e₁.IsNumeral numeral₁)
    (h₂ : e₂.IsNumeral numeral₂) (h : e₁.nameWith numeral₁ = e₂.nameWith numeral₂) : e₁ = e₂ ∧ numeral₁ = numeral₂ := by
  have hname := String.toList_inj.mp (Utf8.encode_injective h)
  have hcut₁ : IsCut (e₁.label.stem ++ "_" ++ numeral₁ ++ ".txt") e₁.label.stem numeral₁ := ⟨rfl, not_mem_of_spells h₁⟩
  have hcut₂ : IsCut (e₁.label.stem ++ "_" ++ numeral₁ ++ ".txt") e₂.label.stem numeral₂ :=
    ⟨hname, not_mem_of_spells h₂⟩
  obtain ⟨hstem, hnumeral⟩ := hcut₁.unique hcut₂
  have hlabel : e₁.label = e₂.label := by
    have hfind := ofStem?_eq_some_iff.mpr hstem
    rw [ofStem?_eq_some_iff.mpr rfl] at hfind
    exact (Option.some.inj hfind).symm
  have hsize : e₁.messageSize = e₂.messageSize := by
    unfold IsNumeral at h₁ h₂
    rw [hnumeral] at h₁
    exact UInt64.toNat_inj.mp (h₁.unique h₂)
  refine ⟨?_, hnumeral⟩
  cases e₁
  cases e₂
  cases hlabel
  cases hsize
  rfl

end Experiment

/-- A file that gives a row has a name of the row's experiment. -/
theorem name_of_rowOf? {dir : Path} {name content : List UInt8} {row : Row} (h : rowOf? dir name content = some row) :
    ∃ numeral, row.experiment.IsNumeral numeral ∧ name = row.experiment.nameWith numeral := by
  unfold rowOf? at h
  cases htext : Utf8.decode name with
  | error offset => simp [htext] at h
  | ok text =>
    cases hclassify : Experiment.classify (String.ofList text) with
    | error cause => simp [htext, hclassify] at h
    | ok experiment =>
      rw [htext] at h
      simp only [hclassify] at h
      obtain ⟨records, _, rfl⟩ := Option.map_eq_some_iff.mp h
      obtain ⟨_, numeral, hspells, hname⟩ := Experiment.classify_eq_ok_iff.mp hclassify
      have hbytes : Experiment.nameWith experiment numeral = Utf8.encode text := by
        rw [Experiment.nameWith, ← hname, String.toList_ofList]
      exact ⟨numeral, hspells, (Utf8.decode_eq_ok_iff.mp htext).trans hbytes.symm⟩

/-! ## One row for every experiment -/

/-- A file of this name is there and gives a row. -/
def HasRow (dir : Path) (files : List (List UInt8 × List UInt8)) (name : List UInt8) : Prop :=
  ∃ content, (name, content) ∈ files ∧ (rowOf? dir name content).isSome = true

/-- Of the files that give a row, no two spell one experiment differently. -/
def SpelledOnce (dir : Path) (files : List (List UInt8 × List UInt8)) : Prop :=
  ∀ (e : Experiment) (one other : String), e.IsNumeral one → e.IsNumeral other →
    HasRow dir files (e.nameWith one) → HasRow dir files (e.nameWith other) → one = other

/-- Two files do not have rows of one experiment. -/
def RowsDiffer (dir : Path) (f g : List UInt8 × List UInt8) : Prop :=
  ∀ r, rowOf? dir f.1 f.2 = some r → ∀ s, rowOf? dir g.1 g.2 = some s → r.experiment ≠ s.experiment

instance (dir : Path) : Std.Symm (RowsDiffer dir) where
  symm _ _ h r hr s hs heq := h s hs r hr heq.symm

/-- **No experiment has two rows exactly when none is spelled in two ways.** -/
theorem nodup_experiments_iff {dir : Path} {files : List (List UInt8 × List UInt8)} (h : SortedByName files) :
    ((rowsOf dir files).map (·.experiment)).Nodup ↔ SpelledOnce dir files := by
  have hpairs : ((rowsOf dir files).map (·.experiment)).Nodup ↔ files.Pairwise (RowsDiffer dir) := by
    rw [List.Nodup, List.pairwise_map, rowsOf, List.pairwise_filterMap]
    rfl
  rw [hpairs]
  constructor
  · rintro hdiffer e one other hone hother ⟨content₁, hmem₁, hrow₁⟩ ⟨content₂, hmem₂, hrow₂⟩
    obtain ⟨r, hr⟩ := Option.isSome_iff_exists.mp hrow₁
    obtain ⟨s, hs⟩ := Option.isSome_iff_exists.mp hrow₂
    obtain ⟨numeral₁, hnumeral₁, hname₁⟩ := name_of_rowOf? hr
    obtain ⟨numeral₂, hnumeral₂, hname₂⟩ := name_of_rowOf? hs
    have he₁ := (Experiment.nameWith_injective hone hnumeral₁ hname₁).1
    have he₂ := (Experiment.nameWith_injective hother hnumeral₂ hname₂).1
    by_contra hne
    have hfiles : (e.nameWith one, content₁) ≠ (e.nameWith other, content₂) := by
      intro heq
      exact hne (Experiment.nameWith_injective hone hother (Prod.mk.inj heq).1).2
    -- two files that differ have rows of different experiments, whichever comes first
    exact hdiffer.forall hmem₁ hmem₂ hfiles r hr s hs (he₁.symm.trans he₂)
  · intro honce
    refine h.imp_of_mem fun {f g} hf hg hlt r hr s hs heq => ?_
    obtain ⟨numeral₁, hnumeral₁, hname₁⟩ := name_of_rowOf? hr
    obtain ⟨numeral₂, hnumeral₂, hname₂⟩ := name_of_rowOf? hs
    rw [heq] at hnumeral₁ hname₁
    have hrow₁ : HasRow dir files (s.experiment.nameWith numeral₁) := ⟨f.2, hname₁ ▸ hf, by rw [← hname₁, hr]; rfl⟩
    have hrow₂ : HasRow dir files (s.experiment.nameWith numeral₂) := ⟨g.2, hname₂ ▸ hg, by rw [← hname₂, hs]; rfl⟩
    rw [hname₁, hname₂, honce _ _ _ hnumeral₁ hnumeral₂ hrow₁ hrow₂] at hlt
    exact List.lt_irrefl _ hlt

/-- Files with the names that are written for their experiments spell each of them once. -/
theorem spelledOnce_of_fileName {dir : Path} {files : List (List UInt8 × List UInt8)}
    (h : ∀ file ∈ files, ∀ row, rowOf? dir file.1 file.2 = some row →
      file.1 = Utf8.encode row.experiment.fileName.toList) : SpelledOnce dir files := by
  have hwritten : ∀ (e : Experiment) (numeral : String), e.IsNumeral numeral →
      HasRow dir files (e.nameWith numeral) → numeral = toString e.messageSize := by
    intro e numeral hnumeral ⟨content, hmem, hrow⟩
    obtain ⟨row, hsome⟩ := Option.isSome_iff_exists.mp hrow
    have hname := h _ hmem row hsome
    obtain ⟨rfl, heq⟩ := Experiment.nameWith_injective hnumeral (Text.spells_toString row.experiment.messageSize) hname
    exact heq
  intro e one other hone hother hrow₁ hrow₂
  rw [hwritten e one hone hrow₁, hwritten e other hother hrow₂]

/-! ## Figures -/

/-- **Rows of different experiments give a series points of different sizes.** -/
theorem nodup_sizes_of_rows {rows : List Row} (h : (rows.map (·.experiment)).Nodup) (s : Series) (k : Statistic) :
    ((rows.filterMap (Row.point? s k)).map (·.1)).Nodup := by
  rw [List.Nodup, List.pairwise_map] at h ⊢
  refine List.pairwise_filterMap.mpr (h.imp fun {row other} hne p hp q hq hsize => hne ?_)
  have hlabel : ∀ {r : Row} {x : UInt64 × Float}, r.point? s k = some x → r.experiment = ⟨s.label, x.1⟩ := by
    intro r x hx
    have hr := size_of_point? hx
    unfold Row.point? at hx
    split at hx
    · rename_i hsame
      rw [← hsame, hr]
      rfl
    · cases hx
  rw [hlabel hp, hlabel hq, hsize]

/-- **A series has one point at most for every message size**, in every range and for every statistic, if no experiment
    has two rows. -/
theorem nodup_sizes {d : Dataset} (h : (d.rows.map (·.experiment)).Nodup) (range : Range) (s : Series)
    (k : Statistic) : (((d.partition range).points s k).map (·.1)).Nodup := by
  rw [points_eq, rows_partition]
  refine nodup_sizes_of_rows ?_ s k
  refine ((perm_bySize _).map _).nodup_iff.mpr ?_
  exact (List.filter_sublist.map _).nodup h

/-! ## The table -/

/-- The cells that say what a line is about: the label, the message size and the phase. -/
def Row.key (row : Row) (phase : Phase) : List String :=
  [row.experiment.label.name, toString row.experiment.messageSize, phase.column]

/-- A label is found by its name. -/
@[simp] theorem Label.ofName?_name (l : Label) : ofName? l.name = some l := by
  cases l <;> rfl

/-- A phase is found by its name. -/
@[simp] theorem Phase.ofColumn?_column (p : Phase) : ofColumn? p.column = some p := by
  cases p <;> rfl

/-- **What a line is about tells the experiment and the phase.** -/
theorem Row.key_injective {row other : Row} {p q : Phase} (h : row.key p = other.key q) :
    row.experiment = other.experiment ∧ p = q := by
  unfold Row.key at h
  simp only [List.cons.injEq, and_true] at h
  obtain ⟨hname, hsize, hcolumn⟩ := h
  have hlabel : row.experiment.label = other.experiment.label := by
    have hsome := Label.ofName?_name row.experiment.label
    rw [hname, Label.ofName?_name] at hsome
    exact (Option.some.inj hsome).symm
  have hphase : p = q := by
    have hsome := Phase.ofColumn?_column p
    rw [hcolumn, Phase.ofColumn?_column] at hsome
    exact (Option.some.inj hsome).symm
  have hspells := Text.spells_toString row.experiment.messageSize
  rw [hsize] at hspells
  have hnat := hspells.unique (Text.spells_toString other.experiment.messageSize)
  have hmessage := UInt64.toNat_inj.mp hnat
  refine ⟨?_, hphase⟩
  cases hrow : row.experiment
  cases hother : other.experiment
  rw [hrow, hother] at hlabel hmessage
  cases hlabel
  cases hmessage
  rfl

/-- What the lines of a row are about. -/
theorem keys_of_row (row : Row) : row.lines.map (·.take 3) = row.phases.toList.map fun entry => row.key entry.1 := by
  rw [Row.lines, List.map_map]
  rfl

theorem exists_key_of_mem {row : Row} {cells : List String} (h : cells ∈ row.lines.map (·.take 3)) :
    ∃ phase, row.key phase = cells := by
  rw [keys_of_row] at h
  obtain ⟨entry, _, hkey⟩ := List.mem_map.mp h
  exact ⟨entry.1, hkey⟩

/-- A phase is listed once. -/
theorem nodup_phases_toList {α : Type} (m : PhaseMap α) : (m.toList.map (·.1)).Nodup := by
  have hall : Phase.all.Nodup := by decide
  rw [List.Nodup, List.pairwise_map]
  refine List.pairwise_filterMap.mpr (hall.imp fun {p q} hne x hx y hy heq => hne ?_)
  obtain ⟨_, _, rfl⟩ := Option.map_eq_some_iff.mp hx
  obtain ⟨_, _, rfl⟩ := Option.map_eq_some_iff.mp hy
  exact heq

/-- **The table has one line at most for every label, message size and phase**, if no experiment has two rows. -/
theorem nodup_keys {d : Dataset} (h : (d.rows.map (·.experiment)).Nodup) : (d.tableLines.map (·.take 3)).Nodup := by
  rw [Dataset.tableLines, List.map_flatMap, List.nodup_flatMap]
  rw [List.Nodup, List.pairwise_map] at h
  constructor
  · intro row _
    rw [keys_of_row, List.Nodup, List.pairwise_map]
    refine (List.pairwise_map.mp (nodup_phases_toList row.phases)).imp fun hne heq => ?_
    exact hne (Row.key_injective heq).2
  · refine h.imp fun {row other} hne key hrow hother => ?_
    obtain ⟨p, rfl⟩ := exists_key_of_mem hrow
    obtain ⟨q, hkey⟩ := exists_key_of_mem hother
    exact hne (Row.key_injective hkey).1.symm

/-! ## Directories -/

/-- **The experiments of a directory.** No two rows of its dataset have one experiment exactly when no two of its files
    that give a row spell one experiment differently, which is so if they have the names that are written for their
    experiments. Then every curve of every figure has one point at most for every message size, and the table one line
    at most for every label, message size and phase. -/
theorem ofDirectory_experiments {w : World} {dir : Path} {entries : List (List UInt8 × Node)}
    (hdir : w.storage.node dir = .ok (.dir entries)) (h : IsListing entries) :
    ∃ files d, FilesInOrder dir entries files ∧ ((Dataset.ofDirectory dir : Run _) w).1 = .ok d ∧
      d.rows = rowsOf dir files ∧
      ((d.rows.map (·.experiment)).Nodup ↔ SpelledOnce dir files) ∧
      ((∀ file ∈ files, ∀ row, rowOf? dir file.1 file.2 = some row →
          file.1 = Utf8.encode row.experiment.fileName.toList) → SpelledOnce dir files) ∧
      (SpelledOnce dir files →
        (∀ c : Comparison, ∀ job ∈ c.figures d, ∀ panel ∈ job.figure.panels,
            (panel.curves.map (·.series)).Nodup ∧ ∀ curve ∈ panel.curves, (curve.points.map (·.1)).Nodup) ∧
          (d.tableLines.map (·.take 3)).Nodup) := by
  have hnodup := @nodup_experiments_iff dir _ (sorted_visits dir h)
  refine ⟨visits dir entries, ⟨rowsOf dir (visits dir entries)⟩, ⟨sorted_visits dir h, fun _ _ => mem_visits_iff h⟩,
    ?_, rfl, hnodup, spelledOnce_of_fileName, fun honce => ⟨?_, nodup_keys (hnodup.mpr honce)⟩⟩
  · rw [ofDirectory_eq hdir h, filterMap_visitedFiles hdir h]
  · intro c job hjob panel hpanel
    obtain ⟨range, _, rfl⟩ := List.mem_map.mp hjob
    have hindexed := isIndexed_ofPartition (c.figureTitle range) (Dataset.partition ⟨rowsOf dir (visits dir entries)⟩ range)
      (nodup_newOnes [] (c.selections.flatMap Selection.series))
    refine ⟨hindexed.nodup panel hpanel, fun curve hcurve => ?_⟩
    rw [points_of_mem_curves hpanel hcurve]
    exact nodup_sizes (hnodup.mpr honce) _ _ _

/-- Two files of one mechanism, with sizes of one digit and of two. -/
theorem ofDirectory_experiments_of_two :
    let dir := Path.ofString "d"
    let content := Utf8.encode "write_duration_nsec\n7\n".toList
    let entries : List (List UInt8 × Node) :=
      [(Utf8.encode "sync_io_4.txt".toList, .file content), (Utf8.encode "sync_io_16.txt".toList, .file content)]
    let full : World := { storage := ⟨.dir [(dir.bytes, .dir entries)], []⟩ }
    full.storage.node dir = .ok (.dir entries) ∧ IsListing entries ∧
      ∃ d, ((Dataset.ofDirectory dir : Run _) full).1 = .ok d ∧ (d.rows.map (·.experiment)).Nodup := by
  intro dir content entries full
  have hdir : full.storage.node dir = .ok (.dir entries) := rfl
  have hlisting : IsListing entries := by decide
  obtain ⟨files, d, hfiles, hd, _, hnodup, hwritten, _⟩ := ofDirectory_experiments hdir hlisting
  refine ⟨hdir, hlisting, d, hd, hnodup.mpr (hwritten fun file hfile row hrow => ?_)⟩
  obtain ⟨name, found⟩ := file
  have hentry := ((hfiles.mem_iff name found).mp hfile).1
  have hexperiment : (rowOf? dir name found).map (·.experiment) = some row.experiment := congrArg _ hrow
  simp only [entries, List.mem_cons, List.not_mem_nil, or_false, Prod.mk.injEq, Node.file.injEq] at hentry
  rcases hentry with ⟨rfl, rfl⟩ | ⟨rfl, rfl⟩
  · have hfour : row.experiment = ⟨.syncIo, 4⟩ := Option.some.inj (hexperiment.symm.trans rfl)
    rw [hfour]
    rfl
  · have hsixteen : row.experiment = ⟨.syncIo, 16⟩ := Option.some.inj (hexperiment.symm.trans rfl)
    rw [hsixteen]
    rfl

/-- **An experiment has two rows if two files tell it**: one with the size as it is written, and one with a zero in
    front of it. -/
theorem ofDirectory_repeats_experiment :
    let dir := Path.ofString "d"
    let content := Utf8.encode "write_duration_nsec\n7\n".toList
    let entries : List (List UInt8 × Node) :=
      [(Utf8.encode "sync_io_4.txt".toList, .file content), (Utf8.encode "sync_io_04.txt".toList, .file content)]
    let full : World := { storage := ⟨.dir [(dir.bytes, .dir entries)], []⟩ }
    full.storage.node dir = .ok (.dir entries) ∧ IsListing entries ∧
      ∃ d, ((Dataset.ofDirectory dir : Run _) full).1 = .ok d ∧ ¬(d.rows.map (·.experiment)).Nodup := by
  intro dir content entries full
  have hdir : full.storage.node dir = .ok (.dir entries) := rfl
  have hlisting : IsListing entries := by decide
  refine ⟨hdir, hlisting, ⟨rowsOf dir (visits dir entries)⟩, ?_, ?_⟩
  · rw [ofDirectory_eq hdir hlisting, filterMap_visitedFiles hdir hlisting]
  · rw [nodup_experiments_iff (sorted_visits dir hlisting)]
    intro honce
    have hfour : Experiment.IsNumeral ⟨.syncIo, 4⟩ "4" := ⟨['4'], Or.inl rfl, by decide, List.all_eq_true.mp rfl, by decide⟩
    have hzero : Experiment.IsNumeral ⟨.syncIo, 4⟩ "04" :=
      ⟨['0', '4'], Or.inl rfl, by decide, List.all_eq_true.mp rfl, by decide⟩
    have hrow : ∀ numeral, (Experiment.nameWith ⟨.syncIo, 4⟩ numeral, Node.file content) ∈ entries →
        (dir.join ⟨Experiment.nameWith ⟨.syncIo, 4⟩ numeral⟩).bytes.length < Storage.pathBound →
        (rowOf? dir (Experiment.nameWith ⟨.syncIo, 4⟩ numeral) content).isSome = true →
        HasRow dir (visits dir entries) (Experiment.nameWith ⟨.syncIo, 4⟩ numeral) :=
      fun numeral hmem hshort hsome => ⟨content, (mem_visits_iff hlisting).mpr ⟨hmem, hshort⟩, hsome⟩
    have hsame := honce ⟨.syncIo, 4⟩ "4" "04" hfour hzero
      (hrow "4" List.mem_cons_self (by decide) rfl)
      (hrow "04" (List.mem_cons_of_mem _ List.mem_cons_self) (by decide) rfl)
    exact absurd hsame (by decide)

end LatencyReport
