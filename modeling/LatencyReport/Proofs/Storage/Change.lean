import LatencyReport.Proofs.Storage.Walk

/-!
# `Proofs.Storage.Change` — what a change changes

Writing a file changes what stands at the place that its path leads to, and making a directory puts one where nothing
stood; **neither changes anything else** (`sets_of_write`, `sets_of_makeDir`). So what many writes and new directories
leave of a storage is told by their paths alone (`Grows`): every directory stays, and every file stays as it is where
none of the paths leads that are written to.

## Contents

* `Sets`, `sets_of_write`, `sets_of_makeDir` — one change;
* `read_of_write`, `isDir_of_makeDir`, `makeDir_of_isDir`, `makeDir_join_ne_notFound` — one change, and the next;
* `Grows` — many changes.
-/

namespace LatencyReport

namespace Storage

variable {s s' : Storage} {path : Path} {place next : Place}

/-! ## Changes at a place -/

/-- What stands after a leaf was put where no directory stands. -/
theorem kind?_put {name : List UInt8} {new : Node} (hplace : s.kind? place = some .dir)
    (hfree : s.kind? (place ++ [name]) ≠ some .dir) (hnew : new.IsLeaf) (p : Place) :
    (s.put (place ++ [name]) new).kind? p = if p = place ++ [name] then some new.kind else s.kind? p := by
  obtain ⟨entries, hentries⟩ := kind?_eq_dir_iff.mp hplace
  exact Node.kind_find?_put hentries (fun others hothers => hfree (kind?_eq_dir_iff.mpr ⟨others, hothers⟩)) hnew p

/-- Directories and files all of whose directories are listings. -/
def IsTree (s : Storage) : Prop :=
  s.root.IsTree

/-- A change at the place that a path leads to, where no directory stood. -/
structure Sets (s : Storage) (path : Path) (kind : Kind) (s' : Storage) : Prop where
  workingDir_eq : s'.workingDir = s.workingDir
  free : s.kind? (s.target path) ≠ some .dir
  kind?_eq : ∀ place, s'.kind? place = if place = s.target path then some kind else s.kind? place
  isTree : s.IsTree → s'.IsTree

theorem EntryAt.sets {name : List UInt8} {slashes : List (List UInt8)} (h : EntryAt s path place name slashes)
    (hfree : s.kind? (place ++ [name]) ≠ some .dir) {new : Node} (hleaf : new.IsLeaf) (hnew : new.IsTree) :
    Sets s path new.kind (s.put (place ++ [name]) new) where
  workingDir_eq := rfl
  free := by rwa [h.target_eq]
  kind?_eq := by
    rw [h.target_eq]
    exact kind?_put h.isDir hfree hleaf
  isTree := by
    intro htree
    obtain ⟨entries, hentries⟩ := kind?_eq_dir_iff.mp h.isDir
    exact Node.IsTree.put htree hentries h.isName hnew

theorem Sets.keeps {kind : Kind} (h : Sets s path kind s') : Keeps s s' where
  workingDir_eq := h.workingDir_eq
  dir := by
    intro place hplace
    rw [h.kind?_eq, if_neg]
    · exact hplace
    · rintro rfl
      exact h.free hplace

theorem write_eq_ok_iff {content : List UInt8} :
    s.write path content = .ok s' ↔
      ∃ entry, s.locateEntry path = .ok entry ∧ entry.slashed = false ∧ entry.isNamed = true ∧
        entry.name.length ≤ maxName ∧ s.kind? (entry.place ++ [entry.name]) ≠ some .dir ∧
        s' = s.put (entry.place ++ [entry.name]) (.file content) := by
  unfold write
  cases s.locateEntry path with
  | error e => simp
  | ok entry =>
    simp only [Except.ok.injEq, exists_eq_left']
    cases hslashed : entry.slashed with
    | true => simp
    | false =>
      cases hnamed : entry.isNamed with
      | false => simp
      | true =>
        by_cases hlong : maxName < entry.name.length
        · simp [hlong, Nat.not_le.mpr hlong]
        · rw [Ne, kind?_eq_dir_iff]
          cases s.root.find? (entry.place ++ [entry.name]) with
          | none => simp [hlong, Nat.not_lt.mp hlong, eq_comm]
          | some node => cases node <;> simp [hlong, Nat.not_lt.mp hlong, eq_comm]

theorem makeDir_eq_ok_iff :
    s.makeDir path = .ok s' ↔
      ∃ entry, s.locateEntry path = .ok entry ∧ entry.isNamed = true ∧ entry.name.length ≤ maxName ∧
        s.kind? (entry.place ++ [entry.name]) = none ∧ s' = s.put (entry.place ++ [entry.name]) (.dir []) := by
  unfold makeDir kind?
  cases s.locateEntry path with
  | error e => simp
  | ok entry =>
    simp only [Except.ok.injEq, exists_eq_left']
    cases hnamed : entry.isNamed with
    | false => simp
    | true =>
      by_cases hlong : maxName < entry.name.length
      · simp [hlong, Nat.not_le.mpr hlong]
      · cases s.root.find? (entry.place ++ [entry.name]) with
        | none => simp [hlong, Nat.not_lt.mp hlong, eq_comm]
        | some node => simp [hlong]

/-- **Writing a file** changes what stands at the place that the path leads to, and nothing else. -/
theorem sets_of_write {content : List UInt8} (h : s.write path content = .ok s') :
    Sets s path (.file content) s' := by
  obtain ⟨entry, hentry, _, hnamed, hshort, hfree, rfl⟩ := write_eq_ok_iff.mp h
  obtain ⟨slashes, hat, _⟩ := entryAt_of_locateEntry hentry hnamed hshort
  exact hat.sets hfree (Node.isLeaf_file content) (Node.isTree_file content)

/-- **Making a directory** changes what stands at the place that the path leads to, where nothing stood. -/
theorem sets_of_makeDir (h : s.makeDir path = .ok s') : Sets s path .dir s' ∧ s.kind? (s.target path) = none := by
  obtain ⟨entry, hentry, hnamed, hshort, hfree, rfl⟩ := makeDir_eq_ok_iff.mp h
  obtain ⟨slashes, hat, _⟩ := entryAt_of_locateEntry hentry hnamed hshort
  refine ⟨hat.sets (by rw [hfree]; simp) Node.isLeaf_dir_nil Node.isTree_dir_nil, ?_⟩
  rw [hat.target_eq, hfree]

/-- What was written can be read. -/
theorem read_of_write {content : List UInt8} (h : s.write path content = .ok s') : s'.read path = .ok content := by
  have hsets := sets_of_write h
  obtain ⟨entry, hentry, hslashed, hnamed, hshort, _, _⟩ := write_eq_ok_iff.mp h
  obtain ⟨slashes, hat, hslashes⟩ := entryAt_of_locateEntry hentry hnamed hshort
  refine read_eq_ok_iff.mpr ⟨_, hsets.keeps.locate (hat.locate_eq (Or.inl (hslashes hslashed))), ?_⟩
  rw [hsets.kind?_eq, if_pos hat.target_eq.symm]

/-- A directory that was made is there. -/
theorem isDir_of_makeDir (h : s.makeDir path = .ok s') : s'.isDir path = true := by
  obtain ⟨hsets, _⟩ := sets_of_makeDir h
  obtain ⟨entry, hentry, hnamed, hshort, _, _⟩ := makeDir_eq_ok_iff.mp h
  obtain ⟨slashes, hat, _⟩ := entryAt_of_locateEntry hentry hnamed hshort
  have hthere : s'.kind? (entry.place ++ [entry.name]) = some .dir := by
    rw [hsets.kind?_eq, if_pos hat.target_eq.symm]
  obtain ⟨above, hparts, hwalk⟩ := hat.exists_above
  have hat' : EntryAt s' path entry.place entry.name slashes :=
    { refuse_eq := hat.refuse_eq
      exists_above := ⟨above, hparts, by rw [hsets.keeps.start]; exact hsets.keeps.walk hwalk⟩
      blank := hat.blank
      isDir := hsets.keeps.dir _ hat.isDir
      isName := hat.isName }
  exact isDir_iff.mpr ⟨_, hat'.locate_eq (Or.inr hthere), hthere⟩

/-- **A directory that is there cannot be made**, and the answer says that it is there. -/
theorem makeDir_of_isDir (h : s.isDir path = true) : s.makeDir path = .error .alreadyExists := by
  obtain ⟨place, hlocate, hkind⟩ := isDir_iff.mp h
  obtain ⟨entry, hentry, hplace, hlength⟩ := exists_entry_of_locate hlocate
  obtain ⟨entries, hentries⟩ := kind?_eq_dir_iff.mp hkind
  unfold makeDir
  rw [hentry]
  cases hnamed : entry.isNamed with
  | false => simp [hnamed]
  | true =>
    have hnot := hnamed
    simp only [Entry.isNamed, Bool.and_eq_true, Bool.not_eq_true', bne_iff_ne] at hnot
    have hthere : place = entry.place ++ [entry.name] := by
      rw [hplace, resolve, hnot.1, if_neg Bool.false_ne_true, if_neg hnot.2]
    rw [hthere] at hentries
    simp [hnamed, Nat.not_lt.mpr (hlength hnamed), hentries]

/-- **In a directory that is there**, nothing is missing for another one to be made. -/
theorem makeDir_join_ne_notFound {dir : Path} {name : List UInt8} (hdir : s.isDir dir = true) (hname : IsName name) :
    s.makeDir (dir.join ⟨name⟩) ≠ .error .notFound := by
  obtain ⟨place, hlocate, hkind⟩ := isDir_iff.mp hdir
  obtain ⟨hrefuse, hwalk⟩ := locate_eq_ok_iff.mp hlocate
  obtain ⟨entries, hentries⟩ := kind?_eq_dir_iff.mp hkind
  have hjoin := walk_join (refuse?_eq_none_iff.mp hrefuse).2.1 hwalk hentries hname
  by_cases hlong : pathBound ≤ (dir.join ⟨name⟩).bytes.length
  · unfold makeDir locateEntry
    rw [refuse?_join hrefuse hname, if_pos hlong]
    simp
  · have hrefuse' : refuse? (dir.join ⟨name⟩) = none := by rw [refuse?_join hrefuse hname, if_neg hlong]
    obtain ⟨entry, hentry, _, _⟩ := exists_entry_of_locate (locate_eq_ok_iff.mpr ⟨hrefuse', hjoin⟩)
    unfold makeDir
    rw [hentry]
    simp only
    split
    · simp
    · split
      · simp
      · split <;> simp

/-! ## Growth -/

/-- **What becomes of a storage** when files are written at some paths and directories made at others: at each place
    stands what stood there, or a file at the place of one of the first where no directory was, or a directory at the
    place of one of the others where nothing was. -/
structure Grows (files dirs : Path → Prop) (s s' : Storage) : Prop where
  workingDir_eq : s'.workingDir = s.workingDir
  stands : ∀ place, s'.kind? place = s.kind? place ∨
    (∃ path, files path ∧ place = s.target path) ∧ s.kind? place ≠ some .dir ∧
      (∃ content, s'.kind? place = some (.file content)) ∨
    (∃ path, dirs path ∧ place = s.target path) ∧ s.kind? place = none ∧ s'.kind? place = some .dir
  isTree : s.IsTree → s'.IsTree

section
variable {files dirs : Path → Prop} {s'' : Storage}

theorem Grows.keeps (h : Grows files dirs s s') : Keeps s s' where
  workingDir_eq := h.workingDir_eq
  dir := by
    intro place hdir
    rcases h.stands place with hsame | ⟨_, hfree, _⟩ | ⟨_, hfree, _⟩
    · rw [hsame, hdir]
    · exact absurd hdir hfree
    · rw [hdir] at hfree
      cases hfree

theorem Grows.refl (s : Storage) : Grows files dirs s s :=
  ⟨rfl, fun _ => Or.inl rfl, id⟩

theorem Grows.trans (h : Grows files dirs s s') (h' : Grows files dirs s' s'') : Grows files dirs s s'' := by
  refine ⟨h'.workingDir_eq.trans h.workingDir_eq, fun place => ?_, fun htree => h'.isTree (h.isTree htree)⟩
  have htarget := h.keeps.target
  rcases h'.stands place with hsame | ⟨⟨path, hpath, hplace⟩, hfree, hfile⟩ | ⟨⟨path, hpath, hplace⟩, hfree, hdir⟩
  · rw [hsame]
    exact h.stands place
  · refine Or.inr (Or.inl ⟨⟨path, hpath, hplace.trans (htarget path)⟩, ?_, hfile⟩)
    exact fun hdir => hfree (h.keeps.dir place hdir)
  · refine Or.inr (Or.inr ⟨⟨path, hpath, hplace.trans (htarget path)⟩, ?_, hdir⟩)
    -- nothing stood there after the first change, so nothing did before
    rcases h.stands place with hsame | ⟨_, _, content, hfile⟩ | ⟨_, _, hmade⟩
    · rw [← hsame, hfree]
    · rw [hfree] at hfile
      cases hfile
    · rw [hfree] at hmade
      cases hmade

theorem Grows.mono {files' dirs' : Path → Prop} (h : Grows files dirs s s') (hfiles : ∀ path, files path → files' path)
    (hdirs : ∀ path, dirs path → dirs' path) : Grows files' dirs' s s' := by
  refine ⟨h.workingDir_eq, fun place => ?_, h.isTree⟩
  rcases h.stands place with hsame | ⟨⟨path, hpath, hplace⟩, hrest⟩ | ⟨⟨path, hpath, hplace⟩, hrest⟩
  · exact Or.inl hsame
  · exact Or.inr (Or.inl ⟨⟨path, hfiles path hpath, hplace⟩, hrest⟩)
  · exact Or.inr (Or.inr ⟨⟨path, hdirs path hpath, hplace⟩, hrest⟩)

/-- **Files stay as they are** where no path leads at which files are written. -/
theorem Grows.file_iff (h : Grows files dirs s s') {place : Place} (hplace : ∀ path, files path → place ≠ s.target path)
    {content : List UInt8} : s'.kind? place = some (.file content) ↔ s.kind? place = some (.file content) := by
  rcases h.stands place with hsame | ⟨⟨path, hpath, htarget⟩, _⟩ | ⟨_, hfree, hdir⟩
  · rw [hsame]
  · exact absurd htarget (hplace path hpath)
  · rw [hfree, hdir]
    simp

/-- What can be read at a path can be read when files are written elsewhere. -/
theorem Grows.read (h : Grows files dirs s s') {content : List UInt8} (hread : s.read path = .ok content)
    (hpath : ∀ other, files other → s.target other ≠ s.target path) : s'.read path = .ok content := by
  obtain ⟨place, hlocate, hfile⟩ := read_eq_ok_iff.mp hread
  refine read_eq_ok_iff.mpr ⟨place, h.keeps.locate hlocate, (h.file_iff fun other hother => ?_).mpr hfile⟩
  rw [← target_of_locate hlocate]
  exact (hpath other hother).symm

theorem grows_of_write {content : List UInt8} (h : s.write path content = .ok s') (hpath : files path) :
    Grows files dirs s s' := by
  have hsets := sets_of_write h
  refine ⟨hsets.workingDir_eq, fun place => ?_, hsets.isTree⟩
  rw [hsets.kind?_eq]
  by_cases hplace : place = s.target path
  · rw [if_pos hplace]
    exact Or.inr (Or.inl ⟨⟨path, hpath, hplace⟩, hplace ▸ hsets.free, content, rfl⟩)
  · rw [if_neg hplace]
    exact Or.inl rfl

theorem grows_of_makeDir (h : s.makeDir path = .ok s') (hpath : dirs path) : Grows files dirs s s' := by
  obtain ⟨hsets, hfree⟩ := sets_of_makeDir h
  refine ⟨hsets.workingDir_eq, fun place => ?_, hsets.isTree⟩
  rw [hsets.kind?_eq]
  by_cases hplace : place = s.target path
  · rw [if_pos hplace]
    exact Or.inr (Or.inr ⟨⟨path, hpath, hplace⟩, hplace ▸ hfree, rfl⟩)
  · rw [if_neg hplace]
    exact Or.inl rfl

end

end Storage

end LatencyReport
