import LatencyReport.Proofs.Dataset.File
import LatencyReport.Proofs.Storage.Change

/-!
# `Proofs.Storage.Overwrite` — files over files

Where a file stands, another content can be put, and **all that changes is that content**: every directory keeps its
entries, in their order. So of many contents that are put at one place only the last one counts (`Node.put_put`), and
contents at different places can be put in any order (`Node.put_comm`).

Files that are written one after the other may have paths that lead to one place. What stands there then is the latest of
them (`IsLatest`). If each place has the latest already, writing them all once more **changes nothing**
(`overwrite_eq_self`), although the storages in between may differ: an earlier file is put in place of the latest, and the
latest comes back.

## Contents

* `Node.put_put`, `Node.put_comm` — two contents;
* `Storage.IsFileAt`, `Storage.write_over` — one file over another;
* `IsLatest`, `exists_isLatest` — the last file at its place;
* `Storage.overwrite`, `overwrite_put`, `overwrite_eq_self` — many files.
-/

namespace LatencyReport

/-! ## Two contents -/

namespace Node

variable {node x y : Node} {p q : Place} {a b : List UInt8}

theorem setEntry_setEntry (name : List UInt8) (x y : Node) (entries : List (List UInt8 × Node)) :
    setEntry name y (setEntry name x entries) = setEntry name y entries := by
  induction entries with
  | nil => simp only [setEntry, if_true]
  | cons entry rest ih =>
    obtain ⟨first, old⟩ := entry
    rw [setEntry, setEntry]
    by_cases hfirst : first = name
    · rw [if_pos hfirst, if_pos hfirst, setEntry, if_pos rfl]
    · rw [if_neg hfirst, if_neg hfirst, setEntry, if_neg hfirst, ih]

/-- Two entries can be set in any order. One of them has to be there, since new entries come at the end. -/
theorem setEntry_comm {name other : List UInt8} {entries : List (List UInt8 × Node)} {child : Node} (hne : name ≠ other)
    (h : entries.lookup name = some child) (x y : Node) :
    setEntry other y (setEntry name x entries) = setEntry name x (setEntry other y entries) := by
  induction entries with
  | nil => cases h
  | cons entry rest ih =>
    obtain ⟨first, old⟩ := entry
    rw [lookup_cons_eq] at h
    by_cases hname : first = name
    · subst hname
      simp only [setEntry, if_pos, if_neg hne]
    · rw [if_neg (Ne.symm hname)] at h
      by_cases hother : first = other
      · subst hother
        simp only [setEntry, if_pos, if_neg hname]
      · simp only [setEntry, if_neg hname, if_neg hother, ih h]

/-- Of two nodes that are put at one place the second counts. -/
theorem put_put (node : Node) (p : Place) (x y : Node) : (node.put p x).put p y = node.put p y := by
  induction p generalizing node with
  | nil => rfl
  | cons name p ih =>
    cases node with
    | file content => rfl
    | dir entries =>
      rw [put, put, put, lookup_setEntry, if_pos rfl, Option.getD_some, ih, setEntry_setEntry]

/-- What is put in place of two files can be put there in any order. -/
theorem put_comm (hp : node.find? p = some (.file a)) (hq : node.find? q = some (.file b)) (hne : p ≠ q) (x y : Node) :
    (node.put p x).put q y = (node.put q y).put p x := by
  induction p generalizing node q with
  | nil =>
    rw [find?, Option.some.injEq] at hp
    subst hp
    cases q with
    | nil => exact absurd rfl hne
    | cons name q => cases hq
  | cons name p ih =>
    cases node with
    | file content => cases hp
    | dir entries =>
      cases q with
      | nil => cases hq
      | cons other q =>
        rw [find?] at hp hq
        cases hchild : entries.lookup name with
        | none => simp [hchild] at hp
        | some child =>
          rw [hchild] at hp
          by_cases hsame : name = other
          · subst hsame
            rw [hchild] at hq
            have hrest : p ≠ q := fun heq => hne (by rw [heq])
            simp only [put, lookup_setEntry, if_true, hchild, Option.getD_some, setEntry_setEntry, ih hp hq hrest]
          · have hother : other ≠ name := Ne.symm hsame
            simp only [put, lookup_setEntry, if_neg hsame, if_neg hother]
            rw [setEntry_comm hsame hchild]

end Node

namespace Storage

variable {s s' later : Storage} {path : Path} {place : Place} {content : List UInt8} {files : List File}

/-! ## One file over another -/

/-- A file stands at a place. -/
def IsFileAt (s : Storage) (place : Place) : Prop :=
  ∃ content, s.kind? place = some (.file content)

theorem kind?_put_of_isFileAt (h : s.IsFileAt place) (content : List UInt8) (p : Place) :
    (s.put place (.file content)).kind? p = if p = place then some (.file content) else s.kind? p := by
  obtain ⟨old, hold⟩ := h
  obtain rfl | ⟨above, name, rfl⟩ := List.eq_nil_or_concat place
  · -- the root is a file, and stays one
    obtain ⟨root, workingDir⟩ := s
    obtain rfl : root = .file old := Option.some.inj (kind?_eq_file_iff.mp hold)
    cases p with
    | nil => rfl
    | cons first rest => rfl
  · rw [List.concat_eq_append] at hold ⊢
    obtain ⟨entries, hentries⟩ := Node.find?_of_append (kind?_eq_file_iff.mp hold)
    refine kind?_put (kind?_eq_dir_iff.mpr ⟨entries, hentries⟩) ?_ (Node.isLeaf_file content) p
    rw [hold]
    simp

theorem IsFileAt.put (h : s.IsFileAt place) (content : List UInt8) {p : Place} (hp : s.IsFileAt p) :
    (s.put place (.file content)).IsFileAt p := by
  unfold IsFileAt
  rw [kind?_put_of_isFileAt h]
  split
  · exact ⟨content, rfl⟩
  · exact hp

/-- A content in place of another leaves all directories. -/
theorem IsFileAt.keeps_put (h : s.IsFileAt place) (content : List UInt8) : Keeps s (s.put place (.file content)) where
  workingDir_eq := rfl
  dir := by
    intro p hp
    rw [kind?_put_of_isFileAt h, if_neg, hp]
    rintro rfl
    obtain ⟨old, hold⟩ := h
    rw [hp] at hold
    cases hold

theorem put_eq_self (h : s.kind? place = some (.file content)) : s.put place (.file content) = s := by
  rw [put, Node.put_of_find? (kind?_eq_file_iff.mp h)]

/-- **What was written once can be written over another file** that has come to its place. -/
theorem write_over (h : s.write path content = .ok s') (hkeeps : Keeps s later) (hfile : later.IsFileAt (s.target path)) :
    later.write path content = .ok (later.put (s.target path) (.file content)) := by
  obtain ⟨entry, hentry, hslashed, hnamed, hshort, _, _⟩ := write_eq_ok_iff.mp h
  obtain ⟨slashes, hat, _⟩ := entryAt_of_locateEntry hentry hnamed hshort
  obtain ⟨old, hold⟩ := hfile
  rw [hat.target_eq] at hold ⊢
  exact write_eq_ok_iff.mpr ⟨entry, hkeeps.locateEntry hentry, hslashed, hnamed, hshort, by rw [hold]; simp, rfl⟩

/-! ## Many files -/

/-- **The latest file at its place**: the paths of those behind it lead elsewhere. -/
def IsLatest (s : Storage) (files : List File) (file : File) : Prop :=
  ∃ front back, files = front ++ file :: back ∧ ∀ other ∈ back, s.target other.1 ≠ s.target file.1

theorem IsLatest.mem {file : File} (h : s.IsLatest files file) : file ∈ files := by
  obtain ⟨front, back, rfl, _⟩ := h
  simp

theorem isLatest_cons_iff {first file : File} {rest : List File} :
    s.IsLatest (first :: rest) file ↔
      file = first ∧ (∀ other ∈ rest, s.target other.1 ≠ s.target first.1) ∨ s.IsLatest rest file := by
  constructor
  · rintro ⟨front, back, hfiles, hback⟩
    cases front with
    | nil =>
      rw [List.nil_append, List.cons.injEq] at hfiles
      obtain ⟨rfl, rfl⟩ := hfiles
      exact Or.inl ⟨rfl, hback⟩
    | cons head front =>
      rw [List.cons_append, List.cons.injEq] at hfiles
      exact Or.inr ⟨front, back, hfiles.2, hback⟩
  · rintro (⟨rfl, hrest⟩ | ⟨front, back, rfl, hback⟩)
    · exact ⟨[], rest, rfl, hrest⟩
    · exact ⟨first :: front, back, rfl, hback⟩

/-- Every place that files are written to has a latest one. -/
theorem exists_isLatest (h : ∃ file ∈ files, s.target file.1 = place) :
    ∃ latest, s.IsLatest files latest ∧ s.target latest.1 = place := by
  induction files with
  | nil => simp at h
  | cons first rest ih =>
    by_cases hrest : ∃ file ∈ rest, s.target file.1 = place
    · obtain ⟨latest, hlatest, hplace⟩ := ih hrest
      exact ⟨latest, isLatest_cons_iff.mpr (Or.inr hlatest), hplace⟩
    · -- no file of the rest is written there, so it is the first
      obtain ⟨file, hfile, rfl⟩ := h
      rcases List.mem_cons.mp hfile with rfl | hmem
      · exact ⟨file, isLatest_cons_iff.mpr (Or.inl ⟨rfl, fun other hother heq => hrest ⟨other, hother, heq⟩⟩), rfl⟩
      · exact absurd ⟨file, hmem, rfl⟩ hrest

/-- The storage with files at the places that their paths lead to, put there one after the other. -/
def overwrite (s : Storage) (files : List File) : Storage :=
  files.foldl (fun s file => s.put (s.target file.1) (.file file.2)) s

theorem overwrite_cons (s : Storage) (file : File) (rest : List File) :
    s.overwrite (file :: rest) = (s.put (s.target file.1) (.file file.2)).overwrite rest := rfl

/-- Where a path leads is not changed by what stands somewhere. -/
theorem target_put (s : Storage) (place : Place) (node : Node) (path : Path) :
    (s.put place node).target path = s.target path := rfl

/-- **What is put somewhere does not count** if a file is put there afterwards. -/
theorem overwrite_put (hfiles : ∀ file ∈ files, s.IsFileAt (s.target file.1))
    (hplace : ∃ file ∈ files, s.target file.1 = place) (content : List UInt8) :
    (s.put place (.file content)).overwrite files = s.overwrite files := by
  induction files generalizing s with
  | nil => simp at hplace
  | cons first rest ih =>
    have hfirst := hfiles first List.mem_cons_self
    rw [overwrite_cons, overwrite_cons, target_put]
    by_cases hsame : s.target first.1 = place
    · rw [hsame, put, put, put, Node.put_put]
    · have hthere : s.IsFileAt place := by
        obtain ⟨file, hfile, rfl⟩ := hplace
        exact hfiles file hfile
      obtain ⟨old, hold⟩ := hthere
      obtain ⟨other, hother⟩ := hfirst
      -- the first file goes elsewhere, so it may as well be put before
      have hswap : (s.put place (.file content)).put (s.target first.1) (.file first.2) =
          (s.put (s.target first.1) (.file first.2)).put place (.file content) := by
        unfold put
        rw [Node.put_comm (kind?_eq_file_iff.mp hold) (kind?_eq_file_iff.mp hother) (Ne.symm hsame)]
      rw [hswap]
      refine ih (fun file hfile => ?_) ?_
      · exact (hfiles first List.mem_cons_self).put _ (hfiles file (List.mem_cons_of_mem _ hfile))
      · obtain ⟨file, hfile, htarget⟩ := hplace
        rcases List.mem_cons.mp hfile with rfl | hrest
        · exact absurd htarget hsame
        · exact ⟨file, hrest, htarget⟩

/-- **Where the latest files stand already, writing all of them once more changes nothing.** -/
theorem overwrite_eq_self (hlatest : ∀ file, s.IsLatest files file → s.kind? (s.target file.1) = some (.file file.2)) :
    s.overwrite files = s := by
  have hfiles : ∀ file ∈ files, s.IsFileAt (s.target file.1) := by
    intro file hfile
    obtain ⟨latest, hlast, hplace⟩ := exists_isLatest (s := s) ⟨file, hfile, rfl⟩
    exact ⟨latest.2, hplace ▸ hlatest latest hlast⟩
  induction files with
  | nil => rfl
  | cons first rest ih =>
    have hrest : s.overwrite rest = s :=
      ih (fun file hfile => hlatest file (isLatest_cons_iff.mpr (Or.inr hfile)))
        fun file hfile => hfiles file (List.mem_cons_of_mem _ hfile)
    rw [overwrite_cons]
    by_cases hlater : ∃ other ∈ rest, s.target other.1 = s.target first.1
    · rw [overwrite_put (fun file hfile => hfiles file (List.mem_cons_of_mem _ hfile)) hlater, hrest]
    · have hlast : s.IsLatest (first :: rest) first :=
        isLatest_cons_iff.mpr (Or.inl ⟨rfl, fun other hother heq => hlater ⟨other, hother, heq⟩⟩)
      rw [put_eq_self (hlatest first hlast), hrest]

end Storage

end LatencyReport
