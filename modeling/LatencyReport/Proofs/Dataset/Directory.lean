import LatencyReport.Proofs.Dataset.File
import LatencyReport.Proofs.Dataset.Listing

/-!
# `Proofs.Dataset.Directory` — the dataset of a directory

Whatever a directory holds and in whatever order it is listed, reading it succeeds, and its rows are **the rows of
its files in the order of their names** (`ofDirectory_rows`). Each file is read for itself: one entry more adds its
row at the place of its name, or nothing, and leaves all other rows as they are. A file that gives no row is told of
once and counted.

A file is found by its path, and a path that is too long leads to nothing: then the file is passed over as if it were
a directory (`ofDirectory_passes_over`).

## Contents

* `rowOf?`, `fileRow?_join` — the row of an entry;
* `Event.isLeaving`, `filter_isLeaving_fileEvents` — what is told of files that give no row;
* `ofDirectory_eq` — the run over a directory;
* `FilesInOrder`, `ofDirectory_rows` — its rows; `ofDirectory_passes_over` — a file that is not among them.
-/

namespace LatencyReport

/-! ## The row of an entry -/

/-- The row of an entry: its name is text and tells an experiment, and its content is a table. -/
def rowOf? (dir : Path) (name content : List UInt8) : Option Row :=
  match Utf8.decode name with
  | .error _ => none
  | .ok text =>
    match Experiment.classify (String.ofList text) with
    | .error _ => none
    | .ok experiment => (Records.parse (dir.join ⟨name⟩) content).records?.map (Row.ofRecords experiment)

/-- The row that a file gives by its path is the one that its name and content give. -/
theorem fileRow?_join {dir : Path} (hdir : dir.bytes ≠ []) {name : List UInt8} (h : IsName name)
    (content : List UInt8) : fileRow? (dir.join ⟨name⟩, content) = rowOf? dir name content := by
  simp only [fileRow?, fileRow, rowOf?, Dataset.experimentOf, fileName?_join hdir h]
  cases Utf8.decode name with
  | error offset => rfl
  | ok text =>
    simp only
    cases Experiment.classify (String.ofList text) with
    | error cause => rfl
    | ok experiment =>
      simp only
      cases (Records.parse (dir.join ⟨name⟩) content).records? <;> rfl

/-! ## What is told of files that give no row -/

/-- Whether an event tells that a file is left out. -/
def Event.isLeaving : Event → Bool
  | .fileIgnored _ | .fileSkipped _ => true
  | _ => false

/-- An event that tells why a file is left out: a debug event if its label is unknown, else a warning. -/
def Event.LeavesFor (event : Event) (cause : FileError) : Prop :=
  (event = .fileIgnored cause ∧ event.level = .debug ∧ ∃ name stem, cause = .unknownLabel name stem) ∨
    (event = .fileSkipped cause ∧ event.level = .warn ∧ ∀ name stem, cause ≠ .unknownLabel name stem)

theorem leavesFor_skipEvent (cause : FileError) : (Dataset.skipEvent cause).LeavesFor cause := by
  cases cause with
  | unknownLabel name stem => exact Or.inl ⟨rfl, rfl, name, stem, rfl⟩
  | badName name fault => exact Or.inr ⟨rfl, rfl, fun _ _ => by simp⟩
  | noHeader path => exact Or.inr ⟨rfl, rfl, fun _ _ => by simp⟩
  | io path cause => exact Or.inr ⟨rfl, rfl, fun _ _ => by simp⟩
  | table path cause => exact Or.inr ⟨rfl, rfl, fun _ _ => by simp⟩

/-- Reading a content tells nothing of files that are left out. -/
theorem filter_isLeaving_events (path : Path) (reading : Reading) :
    (reading.events path).filter Event.isLeaving = [] := by
  rw [List.filter_eq_nil_iff]
  intro event hevent
  rcases List.mem_append.mp hevent with hrow | htable
  · obtain ⟨row, _, rfl⟩ := List.mem_map.mp hrow
    simp [Event.isLeaving]
  · cases hrecords : reading.records? with
    | none => simp [hrecords] at htable
    | some records =>
      rw [hrecords] at htable
      rw [List.mem_singleton.mp htable]
      simp [Event.isLeaving]

theorem filter_isLeaving_rowEvents (row : Row) (path : Path) : (row.events path).filter Event.isLeaving = [] := by
  unfold Row.events
  split <;> rfl

theorem isLeaving_skipEvent (cause : FileError) : (Dataset.skipEvent cause).isLeaving = true := by
  cases cause <;> rfl

/-- **A file is told to be left out once if it gives no row**, with the cause, and never if it gives one. -/
theorem filter_isLeaving_fileEvents (path : Path) (content : List UInt8) :
    (fileEvents path content).filter Event.isLeaving =
      match fileRow path content with
      | .ok _ => []
      | .error cause => [Dataset.skipEvent cause] := by
  have hone : ∀ cause, [Dataset.skipEvent cause].filter Event.isLeaving = [Dataset.skipEvent cause] :=
    fun cause => List.filter_cons_of_pos (isLeaving_skipEvent cause)
  unfold fileEvents fileRow
  cases Dataset.experimentOf path with
  | error cause => exact hone cause
  | ok experiment =>
    simp only [List.filter_append, filter_isLeaving_events, List.nil_append]
    cases (Records.parse path content).records? with
    | none => exact hone _
    | some records => exact filter_isLeaving_rowEvents _ _

/-! ## The run over a directory -/

/-- The files that are visited, with their paths. -/
def visitedFiles (dir : Path) (entries : List (List UInt8 × Node)) : List File :=
  (visits dir entries).map fun file => (dir.join ⟨file.1⟩, file.2)

/-- **Reading a directory** reads the files that are visited, one after the other, and tells of them as a whole. -/
theorem ofDirectory_eq {w : World} {dir : Path} {entries : List (List UInt8 × Node)}
    (hdir : w.storage.node dir = .ok (.dir entries)) (h : IsListing entries) :
    (Dataset.ofDirectory dir : Run _) w =
      (.ok ⟨(visitedFiles dir entries).filterMap fileRow?⟩,
        w.told (filesEvents (visitedFiles dir entries) ++
          [.filesRead dir ((visitedFiles dir entries).filterMap fileRow?).length
            (countUseless (visitedFiles dir entries))])) := by
  have hlist : (listDir dir : Run _) w = (.ok (entries.map (·.1)), w) := by
    show (w.storage.list dir, w) = _
    rw [Storage.list, hdir]
  have hread : ∀ file ∈ visitedFiles dir entries, w.storage.read file.1 = .ok file.2 := by
    intro file hfile
    obtain ⟨visit, hvisit, rfl⟩ := List.mem_map.mp hfile
    exact read_of_mem_visits hdir h hvisit
  have hpaths : (visits dir entries).map (fun file => dir.join ⟨file.1⟩) = (visitedFiles dir entries).map (·.1) := by
    rw [visitedFiles, List.map_map]
    rfl
  unfold Dataset.ofDirectory
  rw [bind_eq, hlist]
  simp only [bind_eq, onlyFiles_eq, filter_isFile_eq hdir h, hpaths, addFiles_eq hread, log_eq, pure_eq,
    World.told_told, List.nil_append, Nat.zero_add]

/-! ## The rows of a directory -/

/-- The files of a directory whose paths are not too long: names and contents, sorted by the bytes of the names. -/
structure FilesInOrder (dir : Path) (entries : List (List UInt8 × Node)) (files : List (List UInt8 × List UInt8)) :
    Prop where
  sorted : files.Pairwise (·.1 < ·.1)
  mem_iff : ∀ name content, (name, content) ∈ files ↔
    (name, Node.file content) ∈ entries ∧ (dir.join ⟨name⟩).bytes.length < Storage.pathBound

/-- The rows of files of a directory. -/
def rowsOf (dir : Path) (files : List (List UInt8 × List UInt8)) : List Row :=
  files.filterMap fun file => rowOf? dir file.1 file.2

/-- The row that one entry more adds: that of a file whose path is not too long, if it has one. -/
def newRow? (dir : Path) (name : List UInt8) (node : Node) : Option Row :=
  (visited? dir name node).bind (rowOf? dir name)

theorem rowsOf_insert (dir : Path) (name : List UInt8) (node : Node) (below above : List (List UInt8 × List UInt8)) :
    rowsOf dir (below ++ ((visited? dir name node).map (name, ·)).toList ++ above) =
      rowsOf dir below ++ (newRow? dir name node).toList ++ rowsOf dir above := by
  have hnew : rowsOf dir ((visited? dir name node).map (name, ·)).toList = (newRow? dir name node).toList := by
    unfold newRow?
    cases visited? dir name node with
    | none => rfl
    | some content =>
      rw [Option.map_some, Option.toList_some, Option.bind_some, rowsOf]
      cases hrow : rowOf? dir name content <;> simp [hrow]
  rw [rowsOf, List.filterMap_append, List.filterMap_append]
  exact congrArg (fun rows => rowsOf dir below ++ rows ++ rowsOf dir above) hnew

section
variable {w : World} {dir : Path} {entries : List (List UInt8 × Node)}

theorem ne_nil_of_node (hdir : w.storage.node dir = .ok (.dir entries)) : dir.bytes ≠ [] :=
  (refuse?_eq_none_iff.mp (node_eq_ok_iff.mp hdir).1).2.1

theorem isName_of_mem_visits (h : IsListing entries) {file : List UInt8 × List UInt8}
    (hfile : file ∈ visits dir entries) : IsName file.1 :=
  h.isName _ ((mem_visits_iff h).mp hfile).1

/-- The rows of the files that are visited. -/
theorem filterMap_visitedFiles (hdir : w.storage.node dir = .ok (.dir entries)) (h : IsListing entries) :
    (visitedFiles dir entries).filterMap fileRow? = rowsOf dir (visits dir entries) := by
  rw [visitedFiles, List.filterMap_map]
  refine List.filterMap_congr fun file hfile => ?_
  exact fileRow?_join (ne_nil_of_node hdir) (isName_of_mem_visits h hfile) file.2

/-- A visited file has a row and is not told to be left out, or it has none and is told so once, with the cause. -/
theorem isLeaving_of_mem_visits (hdir : w.storage.node dir = .ok (.dir entries)) (h : IsListing entries)
    {file : List UInt8 × List UInt8} (hfile : file ∈ visits dir entries) :
    match fileRow (dir.join ⟨file.1⟩) file.2 with
    | .ok row => rowOf? dir file.1 file.2 = some row ∧
        (fileEvents (dir.join ⟨file.1⟩) file.2).filter Event.isLeaving = []
    | .error cause => rowOf? dir file.1 file.2 = none ∧
        ∃ event, (fileEvents (dir.join ⟨file.1⟩) file.2).filter Event.isLeaving = [event] ∧ event.LeavesFor cause := by
  rw [← fileRow?_join (ne_nil_of_node hdir) (isName_of_mem_visits h hfile), filter_isLeaving_fileEvents, fileRow?]
  cases fileRow (dir.join ⟨file.1⟩) file.2 with
  | ok row => exact ⟨rfl, rfl⟩
  | error cause => exact ⟨rfl, _, rfl, leavesFor_skipEvent cause⟩

/-- **The dataset of a directory** is the rows of its files in the order of their names, however it is listed. What is
    told is what its files tell, in that order, and how many of them gave no row; each of these is told to be left out
    once. One entry more, wherever it is listed, adds its row at the place of its name if it has one, and changes no
    other row. -/
theorem ofDirectory_rows (hdir : w.storage.node dir = .ok (.dir entries)) (h : IsListing entries) :
    ∃ files, FilesInOrder dir entries files ∧
      (∃ skipped,
        (Dataset.ofDirectory dir : Run _) w =
            (.ok ⟨rowsOf dir files⟩,
              w.told (files.flatMap (fun file => fileEvents (dir.join ⟨file.1⟩) file.2) ++
                [.filesRead dir (rowsOf dir files).length skipped])) ∧
          (rowsOf dir files).length + skipped = files.length) ∧
      (∀ file ∈ files,
        match fileRow (dir.join ⟨file.1⟩) file.2 with
        | .ok row => rowOf? dir file.1 file.2 = some row ∧
            (fileEvents (dir.join ⟨file.1⟩) file.2).filter Event.isLeaving = []
        | .error cause => rowOf? dir file.1 file.2 = none ∧
            ∃ event, (fileEvents (dir.join ⟨file.1⟩) file.2).filter Event.isLeaving = [event] ∧
              event.LeavesFor cause) ∧
      ∀ (other : World) (others : List (List UInt8 × Node)) (name : List UInt8) (node : Node),
        other.storage.node dir = .ok (.dir others) → IsListing others → others.Perm ((name, node) :: entries) →
          ∃ below above, files = below ++ above ∧ (∀ file ∈ below, file.1 < name) ∧ (∀ file ∈ above, name < file.1) ∧
            ((Dataset.ofDirectory dir : Run _) other).1 =
              .ok ⟨rowsOf dir below ++ (newRow? dir name node).toList ++ rowsOf dir above⟩ := by
  refine ⟨visits dir entries, ⟨sorted_visits dir h, fun name content => mem_visits_iff h⟩, ?_, ?_, ?_⟩
  · refine ⟨countUseless (visitedFiles dir entries), ?_, ?_⟩
    · rw [ofDirectory_eq hdir h, filterMap_visitedFiles hdir h, filesEvents, visitedFiles, List.flatMap_map]
    · rw [← filterMap_visitedFiles hdir h, length_filterMap_fileRow?_add, visitedFiles, List.length_map]
  · exact fun file hfile => isLeaving_of_mem_visits hdir h hfile
  · intro other others name node hother hlisting hperm
    obtain ⟨below, above, hold, hnew, hlt, hgt⟩ := visits_insert dir hlisting hperm
    refine ⟨below, above, hold, hlt, hgt, ?_⟩
    rw [ofDirectory_eq hother hlisting, filterMap_visitedFiles hother hlisting, hnew, rowsOf_insert]

end

/-- A directory that is listed in some order, with two results files, a directory, a file whose name says nothing and one
    whose mechanism is not known; and the directory with one more results file, whose row comes between the others. -/
theorem ofDirectory_rows_of_mixed :
    let dir := Path.ofString "d"
    let content (samples : String) := Utf8.encode ("write_duration_nsec\n" ++ samples).toList
    let row (label : Label) (size : UInt64) (name : String) (samples : List Float) : Row :=
      .ofRecords ⟨label, size⟩ ⟨dir.join (.ofString name), ["write_duration_nsec"], samples.map ([·])⟩
    let entries : List (List UInt8 × Node) :=
      [(Utf8.encode "sync_io_4.txt".toList, .file (content "7\n8\n")), (Utf8.encode "sub".toList, .dir []),
        (Utf8.encode "README".toList, .file (content "1\n")), (Utf8.encode "tcp_io_64.txt".toList, .file (content "2\n")),
        (Utf8.encode "async_io_2.txt".toList, .file (content "3\n"))]
    let name := Utf8.encode "mmap_io_1.txt".toList
    let holding (entries : List (List UInt8 × Node)) : World := { storage := ⟨.dir [(dir.bytes, .dir entries)], []⟩ }
    let full := entries ++ [(name, .file (content "5\n"))]
    (holding entries).storage.node dir = .ok (.dir entries) ∧ IsListing entries ∧
      ((Dataset.ofDirectory dir : Run _) (holding entries)).1 =
        .ok ⟨[row .asyncIo 2 "async_io_2.txt" [3.0], row .syncIo 4 "sync_io_4.txt" [7.0, 8.0]]⟩ ∧
      ((Dataset.ofDirectory dir : Run _) (holding entries)).2.journal.getLast? = some (.filesRead dir 2 2) ∧
      ((Dataset.ofDirectory dir : Run _) (holding full)).1 =
        .ok ⟨[row .asyncIo 2 "async_io_2.txt" [3.0], row .mmapIo 1 "mmap_io_1.txt" [5.0],
          row .syncIo 4 "sync_io_4.txt" [7.0, 8.0]]⟩ := by
  intro dir content row entries name holding full
  have hlisting : IsListing entries := by decide
  have hlisting' : IsListing full := by decide
  have hnode : ∀ entries, (holding entries).storage.node dir = .ok (.dir entries) := fun _ => rfl
  let front := [(Utf8.encode "README".toList, content "1\n"), (Utf8.encode "async_io_2.txt".toList, content "3\n")]
  let back := [(Utf8.encode "sync_io_4.txt".toList, content "7\n8\n"), (Utf8.encode "tcp_io_64.txt".toList, content "2\n")]
  obtain ⟨files, hfiles, ⟨skipped, hrun, hskipped⟩, _, hinsert⟩ := ofDirectory_rows (hnode entries) hlisting
  obtain rfl : files = front ++ back := by
    have hsorted : (front ++ back).Pairwise (·.1 < ·.1) := by decide
    refine eq_of_sorted hfiles.sorted hsorted fun file => (hfiles.mem_iff file.1 file.2).trans ?_
    obtain ⟨other, found⟩ := file
    simp only [entries, front, back, List.cons_append, List.nil_append, List.mem_cons, List.not_mem_nil, or_false,
      Prod.mk.injEq, Node.file.injEq, reduceCtorEq, and_false, false_or]
    constructor
    · rintro ⟨⟨rfl, rfl⟩ | ⟨rfl, rfl⟩ | ⟨rfl, rfl⟩ | ⟨rfl, rfl⟩, _⟩ <;> simp
    · rintro (⟨rfl, rfl⟩ | ⟨rfl, rfl⟩ | ⟨rfl, rfl⟩ | ⟨rfl, rfl⟩) <;> exact ⟨by simp, by decide⟩
  have hrows : rowsOf dir (front ++ back) =
      [row .asyncIo 2 "async_io_2.txt" [3.0], row .syncIo 4 "sync_io_4.txt" [7.0, 8.0]] := rfl
  rw [hrows] at hrun hskipped
  obtain rfl : skipped = 2 := Nat.add_left_cancel hskipped
  obtain ⟨below, above, hsplit, hbelow, habove, hfull⟩ :=
    hinsert (holding full) full name _ (hnode full) hlisting' (List.perm_append_singleton _ _)
  -- the new name comes between the two names of each half
  obtain rfl : below = front := by
    have hall : below.filter (fun file => decide (file.1 < name)) = below :=
      List.filter_eq_self.mpr fun file hfile => decide_eq_true (hbelow file hfile)
    have hnone : above.filter (fun file => decide (file.1 < name)) = [] :=
      List.filter_eq_nil_iff.mpr fun file hfile hlt => List.lt_asymm (habove file hfile) (of_decide_eq_true hlt)
    have hfront : (front ++ back).filter (fun file => decide (file.1 < name)) = front := by decide
    rwa [hsplit, List.filter_append, hall, hnone, List.append_nil] at hfront
  obtain rfl := List.append_cancel_left hsplit
  refine ⟨rfl, hlisting, by rw [hrun], ?_, hfull⟩
  rw [hrun, World.told, List.getLast?_append_of_ne_nil _ (by simp)]
  exact List.getLast?_concat

/-! ## Files that are passed over -/

/-- The path of a directory with dots in front of it that lead nowhere. -/
def dotted (n : Nat) (name : List UInt8) : Path :=
  ⟨(List.replicate n [Path.dot, Path.slash]).flatten ++ name⟩

theorem length_dotted (n : Nat) (name : List UInt8) : (dotted n name).bytes.length = 2 * n + name.length := by
  simp [dotted]
  omega

theorem parts_dotted (n : Nat) {name : List UInt8} (h : IsName name) :
    (dotted n name).parts = List.replicate n [Path.dot] ++ [name] := by
  induction n with
  | zero => exact h.splitWith_eq
  | succ n ih =>
    have hdot : ∀ b ∈ [Path.dot], (b == Path.slash) = false := by
      intro b hb
      rw [List.mem_singleton.mp hb]
      rfl
    exact (Text.splitWith_piece_mark hdot rfl (dotted n name).bytes).trans (congrArg ([Path.dot] :: ·) ih)

/-- Dots lead nowhere, however many. -/
theorem walk_dots {s : Storage} {place : List (List UInt8)} {entries : List (List UInt8 × Node)}
    (h : s.root.find? place = some (.dir entries)) (n : Nat) (rest : List (List UInt8)) :
    s.walk place (List.replicate n [Path.dot] ++ rest) = s.walk place rest := by
  induction n with
  | zero => rfl
  | succ n ih =>
    have hstep : s.step place [Path.dot] = .ok place := by
      unfold Storage.step
      rw [h]
      rfl
    rw [List.replicate_succ, List.cons_append, Storage.walk, hstep]
    exact ih

/-- What a dotted path leads to is what the name leads to, as long as the path is not too long. -/
theorem node_dotted {s : Storage} {entries : List (List UInt8 × Node)} (hroot : s.root = .dir entries)
    (hstart : s.workingDir = []) {name : List UInt8} (h : IsName name) {node : Node}
    (hnode : entries.lookup name = some node) {n : Nat} (hn : 2 * n + name.length < Storage.pathBound) :
    s.node (dotted n name) = .ok node := by
  have hplace : s.root.find? [] = some (.dir entries) := by rw [hroot, Node.find?]
  have hlength := length_dotted n name
  have hrelative : (dotted n name).isAbsolute = false := by
    cases n with
    | zero => exact h.isAbsolute_eq
    | succ n => rfl
  have hnul : 0 ∉ (dotted n name).bytes := by
    simp [dotted, h.no_nul, Path.dot, Path.slash]
  refine node_eq_ok_iff.mpr ⟨refuse?_eq_none_iff.mpr ⟨hnul, ?_, by omega⟩, [name], ?_, ?_⟩
  · rw [← List.length_pos_iff, hlength]
    have := List.length_pos_iff.mpr h.ne_nil
    omega
  · rw [Storage.start, hrelative, hstart, parts_dotted n h, if_neg Bool.false_ne_true, walk_dots hplace, Storage.walk,
      Storage.step_name hplace h]
    rfl
  · rw [← List.nil_append [name], Node.find?_append hplace, hnode]

/-- **A file is passed over if its path is too long**, although its directory is listed and its name and content are
    fine: it gives no row and is not counted. And of a file without a header more than one warning can be told: one for
    every row that is left out of it comes before the one for the file. -/
theorem ofDirectory_passes_over :
    let name := Utf8.encode "sync_io_1.txt".toList
    let good := Utf8.encode "write_duration_nsec\n7\n".toList
    let bad : List UInt8 := [0xFF]
    let d := Utf8.encode "d".toList
    let holding (content : List UInt8) : World := { storage := ⟨.dir [(d, .dir [(name, .file content)])], []⟩ }
    ((holding good).storage.node (dotted 2045 d) = .ok (.dir [(name, .file good)]) ∧
        (rowOf? (dotted 2045 d) name good).isSome = true ∧
        (Dataset.ofDirectory (dotted 2045 d) : Run _) (holding good) =
          (.ok ⟨[]⟩, (holding good).told [.filesRead (dotted 2045 d) 0 0])) ∧
      ∃ path, (Dataset.ofDirectory ⟨d⟩ : Run _) (holding bad) =
        (.ok ⟨[]⟩, (holding bad).told
          [.rowSkipped path ⟨1, .notUtf8 0 0⟩, .fileSkipped (.noHeader path), .filesRead ⟨d⟩ 0 1]) := by
  intro name good bad d holding
  have hname : IsName name := by decide
  have hd : IsName d := by decide
  have hlisting : ∀ content, IsListing [(name, Node.file content)] := fun content => ⟨by simpa using hname, by simp⟩
  refine ⟨⟨?_, rfl, ?_⟩, ?_⟩
  · exact node_dotted rfl rfl hd rfl (by decide)
  · have hdir : (holding good).storage.node (dotted 2045 d) = .ok (.dir [(name, .file good)]) :=
      node_dotted rfl rfl hd rfl (by decide)
    -- the directory's path is below the bound, and the file's is not
    have hlong : visited? (dotted 2045 d) name (.file good) = none := by
      have hlength := length_add_le_join (ne_nil_of_node hdir) hname
      rw [length_dotted] at hlength
      have hbound : Storage.pathBound ≤ 2 * 2045 + d.length + name.length := by decide
      rw [visited?, if_pos (hbound.trans hlength)]
    have hnone : visitedFiles (dotted 2045 d) [(name, .file good)] = [] := by
      rw [visitedFiles, visits_singleton (hlisting good), hlong]
      rfl
    rw [ofDirectory_eq hdir (hlisting good), hnone]
    rfl
  · have hdir : (holding bad).storage.node ⟨d⟩ = .ok (.dir [(name, .file bad)]) := rfl
    have hone : visitedFiles ⟨d⟩ [(name, .file bad)] = [(Path.join ⟨d⟩ ⟨name⟩, bad)] := by
      rw [visitedFiles, visits_singleton (hlisting bad)]
      rfl
    refine ⟨Path.join ⟨d⟩ ⟨name⟩, ?_⟩
    rw [ofDirectory_eq hdir (hlisting bad), hone]
    rfl

end LatencyReport
