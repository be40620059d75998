import LatencyReport.Proofs.Report.Stages
import LatencyReport.Proofs.Text.Utf8

/-!
# `Proofs.Dataset.Building` — a dataset that is asked for one row after the other

A dataset is built by requests: for the row of a table, or for the row of a file. A file is put to four tests, in this
order: its name has to be a text, the name has to tell an experiment, the file has to be there to be read, and its content
has to have a header. **What a file gives is decided by the first test that it fails**, or else is its row
(`Storage.FileGives`, `addFile_eq_iff`); and until the last test is passed nothing is added.

So a dataset that has served any requests has **the rows of those that succeeded, in the order of the requests**, behind
the rows that it had before (`rows_of_requests`). A request that fails is answered with its cause, and leaves no trace. The
files may become others between two requests: each is served from the files that it finds.

## Contents

* `Storage.FileGives` — what a file gives; `exists_fileGives` — it gives something;
* `addFile_of_fileGives`, `addFile_eq_iff` — the run that adds a file;
* `Request`, `Dataset.serve`, `Outcomes`, `exists_outcomes` — many requests;
* `Dataset.serve_append`, `rows_of_requests` — the rows that they leave.
-/

namespace LatencyReport

/-! ## What a file gives -/

/-- The name that a path ends in is this text. -/
def Path.IsNamed (path : Path) (name : String) : Prop :=
  path.fileName? = some (Utf8.encode name.toList)

/-- **What a file gives**: the cause that belongs to the first test which it fails, or its row. -/
inductive Storage.FileGives (s : Storage) (path : Path) : Except FileError Row → Prop where
  | notText (h : ∀ name, ¬path.IsNamed name) : FileGives s path (.error (.badName path.display .notUtf8))
  | unclassified {name : String} {cause : FileError} (hname : path.IsNamed name)
      (h : Experiment.classify name = .error cause) : FileGives s path (.error cause)
  | unread {name : String} {e : Experiment} {cause : OsError} (hname : path.IsNamed name)
      (he : Experiment.classify name = .ok e) (h : s.read path = .error cause) :
      FileGives s path (.error (.io path cause))
  | headless {name : String} {e : Experiment} {content : List UInt8} (hname : path.IsNamed name)
      (he : Experiment.classify name = .ok e) (hread : s.read path = .ok content)
      (h : (Records.parse path content).records? = none) : FileGives s path (.error (.noHeader path))
  | row {name : String} {e : Experiment} {content : List UInt8} {R : Records} (hname : path.IsNamed name)
      (he : Experiment.classify name = .ok e) (hread : s.read path = .ok content)
      (hR : (Records.parse path content).records? = some R) : FileGives s path (.ok (Row.ofRecords e R))

/-- Every file gives something. -/
theorem exists_fileGives (s : Storage) (path : Path) : ∃ outcome, s.FileGives path outcome := by
  by_cases hname : ∃ name, path.IsNamed name
  · obtain ⟨name, hname⟩ := hname
    cases he : Experiment.classify name with
    | error cause => exact ⟨_, .unclassified hname he⟩
    | ok e =>
      cases hread : s.read path with
      | error cause => exact ⟨_, .unread hname he hread⟩
      | ok content =>
        cases hR : (Records.parse path content).records? with
        | none => exact ⟨_, .headless hname he hread hR⟩
        | some R => exact ⟨_, .row hname he hread hR⟩
  · exact ⟨_, .notText (not_exists.mp hname)⟩

/-! ## The run that adds a file -/

theorem experimentOf_of_isNamed {path : Path} {name : String} (h : path.IsNamed name) :
    Dataset.experimentOf path = Experiment.classify name := by
  unfold Dataset.experimentOf
  rw [h]
  simp only [Utf8.decode_encode, String.ofList_toList]

theorem experimentOf_of_not_isNamed {path : Path} (h : ∀ name, ¬path.IsNamed name) :
    Dataset.experimentOf path = .error (.badName path.display .notUtf8) := by
  unfold Dataset.experimentOf
  cases hname : path.fileName? with
  | none => rfl
  | some name =>
    cases htext : Utf8.decode name with
    | error offset => simp only [htext]
    | ok text =>
      rw [Utf8.decode_eq_ok_iff] at htext
      refine absurd ?_ (h (String.ofList text))
      unfold Path.IsNamed
      rw [hname, htext, String.toList_ofList]

/-- The table of a file that cannot be read. -/
theorem readRecords_of_error {path : Path} {cause : OsError} {w : World} (h : w.storage.read path = .error cause) :
    (readRecords path : Run _) w = (.error (.io path cause), w) := by
  unfold readRecords
  rw [bind_eq, readFile_eq, h]
  rfl

variable {w : World} {path : Path} {outcome : Except FileError Row}

/-- **The run answers what the file gives.** -/
theorem addFile_of_fileGives (d : Dataset) (h : w.storage.FileGives path outcome) :
    ((d.addFile path : Run _) w).1 = outcome.map d.add := by
  unfold Dataset.addFile
  cases h with
  | notText h =>
    rw [experimentOf_of_not_isNamed h]
    rfl
  | unclassified hname h =>
    rw [experimentOf_of_isNamed hname, h]
    rfl
  | unread hname he h =>
    rw [experimentOf_of_isNamed hname, he]
    simp only [bind_eq, readRecords_of_error h]
    rfl
  | headless hname he hread h =>
    rw [experimentOf_of_isNamed hname, he]
    simp only [bind_eq, readRecords_eq hread, h]
    rfl
  | row hname he hread hR =>
    rw [experimentOf_of_isNamed hname, he]
    simp only [bind_eq, readRecords_eq hread, hR]
    rfl

theorem Dataset.add_injective (d : Dataset) {row other : Row} (h : d.add row = d.add other) : row = other := by
  have hrows : d.rows ++ [row] = d.rows ++ [other] := congrArg Dataset.rows h
  exact List.singleton_injective (List.append_cancel_left hrows)

/-- **The answer is that of the first test which fails, or the rows with one more.** -/
theorem addFile_eq_iff (d : Dataset) :
    ((d.addFile path : Run _) w).1 = outcome.map d.add ↔ w.storage.FileGives path outcome := by
  refine ⟨fun h => ?_, addFile_of_fileGives d⟩
  obtain ⟨other, hother⟩ := exists_fileGives w.storage path
  rw [addFile_of_fileGives d hother] at h
  cases other with
  | error cause =>
    cases outcome with
    | error _ => cases h; exact hother
    | ok _ => cases h
  | ok row =>
    cases outcome with
    | error _ => cases h
    | ok _ =>
      obtain rfl := d.add_injective (Except.ok.inj h)
      exact hother

/-! ## Many requests -/

/-- What is asked of a dataset: the row of a table, or that of a file. In between, the files may become others. -/
inductive Request where
  | records (e : Experiment) (R : Records)
  | file (path : Path)
  | elsewhere (files : Storage)

/-- Serves requests one after the other, and answers all that ask for a row. -/
def Dataset.serve (d : Dataset) : List Request → Run (Dataset × List (Except FileError Unit))
  | [] => pure (d, [])
  | .records e R :: rest => do
    let more ← d.addRecords e R
    let served ← more.serve rest
    return (served.1, .ok () :: served.2)
  | .file path :: rest => do
    match ← d.addFile path with
    | .ok more =>
      let served ← more.serve rest
      return (served.1, .ok () :: served.2)
    | .error cause =>
      let served ← d.serve rest
      return (served.1, .error cause :: served.2)
  | .elsewhere files :: rest => do
    modify fun w => { w with storage := files }
    d.serve rest

/-- What requests give, each from the files that it finds: a table its row, a file what it gives. -/
inductive Outcomes : Storage → List Request → List (Except FileError Row) → Prop where
  | done (s : Storage) : Outcomes s [] []
  | records {s : Storage} {rest : List Request} {outcomes : List (Except FileError Row)} (e : Experiment) (R : Records)
      (hrest : Outcomes s rest outcomes) : Outcomes s (.records e R :: rest) (.ok (Row.ofRecords e R) :: outcomes)
  | file {s : Storage} {rest : List Request} {path : Path} {outcome : Except FileError Row}
      {outcomes : List (Except FileError Row)} (h : s.FileGives path outcome) (hrest : Outcomes s rest outcomes) :
      Outcomes s (.file path :: rest) (outcome :: outcomes)
  | elsewhere {s : Storage} {rest : List Request} {outcomes : List (Except FileError Row)} (files : Storage)
      (hrest : Outcomes files rest outcomes) : Outcomes s (.elsewhere files :: rest) outcomes

/-- The answer to a request that gives this. -/
def answerOf (outcome : Except FileError Row) : Except FileError Unit :=
  outcome.map fun _ => ()

/-- What was served: the rows that were given, behind those that were there, and all answers. -/
def Dataset.served (d : Dataset) (outcomes : List (Except FileError Row)) : Dataset × List (Except FileError Unit) :=
  (⟨d.rows ++ outcomes.filterMap Except.toOption⟩, outcomes.map answerOf)

theorem Dataset.served_ok (d : Dataset) (row : Row) (outcomes : List (Except FileError Row)) :
    d.served (.ok row :: outcomes) = (((d.add row).served outcomes).1, .ok () :: ((d.add row).served outcomes).2) := by
  have hrow : (Except.ok row : Except FileError Row).toOption = some row := rfl
  simp only [served, List.filterMap_cons_some hrow, add, List.append_assoc, List.singleton_append, List.map_cons]
  rfl

theorem Dataset.served_error (d : Dataset) (cause : FileError) (outcomes : List (Except FileError Row)) :
    d.served (.error cause :: outcomes) = ((d.served outcomes).1, .error cause :: (d.served outcomes).2) := by
  have hnone : (Except.error cause : Except FileError Row).toOption = none := rfl
  simp only [served, List.filterMap_cons_none hnone, List.map_cons]
  rfl

/-- The row of a table is always added. -/
theorem addRecords_eq (d : Dataset) (e : Experiment) (R : Records) (w : World) :
    (d.addRecords e R : Run _) w = (d.add (Row.ofRecords e R), w.told ((Row.ofRecords e R).events R.path)) := by
  unfold Dataset.addRecords
  rw [bind_eq, tell_eq, pure_eq]

/-- **A run of requests** leaves the rows that they give, and answers each of them. -/
theorem exists_outcomes (d : Dataset) (w : World) (requests : List Request) :
    ∃ outcomes, Outcomes w.storage requests outcomes ∧ (d.serve requests w).1 = d.served outcomes := by
  -- each request starts from the rows and the files that those before it leave
  induction requests generalizing d w with
  | nil =>
    refine ⟨[], .done _, ?_⟩
    rw [Dataset.serve, pure_eq, Dataset.served, List.filterMap_nil, List.append_nil, List.map_nil]
  | cons request rest ih =>
    cases request with
    | records e R =>
      obtain ⟨outcomes, hrest, hserve⟩ :=
        ih (d.add (Row.ofRecords e R)) (w.told ((Row.ofRecords e R).events R.path))
      refine ⟨_, .records e R hrest, ?_⟩
      rw [Dataset.serve, bind_eq, addRecords_eq, Dataset.served_ok, ← hserve]
      rfl
    | file path =>
      obtain ⟨outcome, houtcome⟩ := exists_fileGives w.storage path
      have hanswer := addFile_of_fileGives d houtcome
      have hkeeps := onlyReads_addFile d path w
      rw [Dataset.serve, bind_eq]
      generalize (d.addFile path : Run _) w = run at hanswer hkeeps ⊢
      obtain ⟨answer, after⟩ := run
      obtain rfl : answer = outcome.map d.add := hanswer
      cases outcome with
      | ok row =>
        obtain ⟨outcomes, hrest, hserve⟩ := ih (d.add row) after
        refine ⟨_, .file houtcome (hkeeps ▸ hrest), ?_⟩
        rw [Dataset.served_ok, ← hserve]
        rfl
      | error cause =>
        obtain ⟨outcomes, hrest, hserve⟩ := ih d after
        refine ⟨_, .file houtcome (hkeeps ▸ hrest), ?_⟩
        rw [Dataset.served_error, ← hserve]
        rfl
    | elsewhere files =>
      obtain ⟨outcomes, hrest, hserve⟩ := ih d { w with storage := files }
      exact ⟨_, .elsewhere files hrest, hserve⟩

/-- Requests behind others start from what these leave. -/
theorem Dataset.serve_append (d : Dataset) (w : World) (front back : List Request) :
    d.serve (front ++ back) w =
      (let first := d.serve front w
       let second := first.1.1.serve back first.2
       ((second.1.1, first.1.2 ++ second.1.2), second.2)) := by
  induction front generalizing d w with
  | nil => rfl
  | cons request rest ih =>
    cases request with
    | records e R =>
      rw [List.cons_append, serve, serve]
      simp only [bind_eq, pure_eq, ih, List.cons_append]
    | file path =>
      rw [List.cons_append, serve, serve, bind_eq, bind_eq]
      generalize (d.addFile path : Run _) w = run
      obtain ⟨answer, after⟩ := run
      cases answer with
      | ok more => simp only [bind_eq, pure_eq, ih, List.cons_append]
      | error cause => simp only [bind_eq, pure_eq, ih, List.cons_append]
    | elsewhere files =>
      exact ih d { w with storage := files }

/-- **One file more**, after any requests, gives one row more or none, and one answer more. -/
theorem exists_outcome_serve_file (d : Dataset) (w : World) (requests : List Request) (path : Path) :
    ∃ outcome, (d.serve requests w).2.storage.FileGives path outcome ∧
      (d.serve (requests ++ [.file path]) w).1 =
        (⟨(d.serve requests w).1.1.rows ++ outcome.toOption.toList⟩, (d.serve requests w).1.2 ++ [answerOf outcome]) := by
  generalize hrun : d.serve requests w = run
  obtain ⟨⟨last, answers⟩, after⟩ := run
  obtain ⟨outcomes, houtcomes, hserve⟩ := exists_outcomes last after [.file path]
  cases houtcomes with
  | @file _ _ _ outcome outcomes houtcome hrest =>
    cases hrest
    refine ⟨outcome, houtcome, ?_⟩
    rw [Dataset.serve_append, hrun]
    simp only [hserve, Dataset.served, List.map_cons, List.map_nil]
    cases outcome <;> rfl

/-- **The rows of a dataset are those of the requests that succeeded, in order.** Adding a file answers with the cause of
    the first test that fails — its name is a text, the name tells an experiment, the file can be read, it has a header —
    and otherwise adds the row of its experiment and table. Any requests, in any mix, whether or not the files become
    others in between, leave exactly one row for each that succeeded, behind the rows that were there before, and one
    answer for each that asked for a row. And after any requests, a file that fails leaves all rows as they are. -/
theorem rows_of_requests :
    (∀ (d : Dataset) (w : World) (path : Path) (outcome : Except FileError Row),
        ((d.addFile path : Run _) w).1 = outcome.map d.add ↔ w.storage.FileGives path outcome) ∧
      (∀ (d : Dataset) (w : World) (requests : List Request),
        ∃ outcomes, Outcomes w.storage requests outcomes ∧
          (d.serve requests w).1 = (⟨d.rows ++ outcomes.filterMap Except.toOption⟩, outcomes.map answerOf)) ∧
      ∀ (d : Dataset) (w : World) (requests : List Request) (path : Path),
        ∃ outcome, (d.serve requests w).2.storage.FileGives path outcome ∧
          (d.serve (requests ++ [.file path]) w).1 =
            (⟨(d.serve requests w).1.1.rows ++ outcome.toOption.toList⟩,
              (d.serve requests w).1.2 ++ [answerOf outcome]) :=
  ⟨fun d _ _ _ => addFile_eq_iff d, exists_outcomes, exists_outcome_serve_file⟩

end LatencyReport
