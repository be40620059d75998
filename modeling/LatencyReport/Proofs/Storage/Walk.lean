import LatencyReport.Proofs.Storage.Place

/-!
# `Proofs.Storage.Walk` — where paths lead

There are no links, so the place that a path leads to is **known before any directory is looked at**
(`Storage.target`): names are added and two dots take one away. A walk asks only whether it comes through directories,
so it arrives at that place or nowhere (`walk_eq_ok`), and it goes on to arrive while directories stay (`Keeps.walk`).

A file is written and a directory is made as an entry of a directory that exists (`EntryAt`); where the entry stands
and where the path leads are the same place.

## Contents

* `Storage.kind?` — what stands at a place;
* `resolve`, `target`, `step_eq_ok_iff`, `walk_eq_ok` — where paths lead;
* `Keeps` — storages that have all directories of another;
* `EntryAt`, `locateEntry_eq_ok_iff`, `entryAt_of_locateEntry`, `exists_entry_of_locate` — entries.
-/

namespace LatencyReport

namespace Storage

/-- What stands at a place. -/
def kind? (s : Storage) (place : Place) : Option Kind :=
  (s.root.find? place).map Node.kind

variable {s s' : Storage} {path : Path} {place next : Place}

theorem kind?_eq_dir_iff : s.kind? place = some .dir ↔ ∃ entries, s.root.find? place = some (.dir entries) := by
  unfold kind?
  cases s.root.find? place with
  | none => simp
  | some node => cases node <;> simp [Node.kind]

theorem kind?_eq_file_iff {content : List UInt8} :
    s.kind? place = some (.file content) ↔ s.root.find? place = some (.file content) := by
  unfold kind?
  cases s.root.find? place with
  | none => simp
  | some node => cases node <;> simp [Node.kind]

/-! ## Where paths lead -/

/-- The place that a part leads to, if it leads anywhere. -/
def resolve (place : Place) (part : List UInt8) : Place :=
  if Path.isIdle part then place else if part = Path.up then place.dropLast else place ++ [part]

/-- **The place that a path leads to, if it leads anywhere.** There are no links, so it is known before any directory
    is looked at. -/
def target (s : Storage) (path : Path) : Place :=
  path.parts.foldl resolve (s.start path)

theorem kind?_of_step {part : List UInt8} (h : s.step place part = .ok next) : s.kind? place = some .dir := by
  rw [kind?_eq_dir_iff]
  unfold step at h
  cases hfind : s.root.find? place with
  | none =>
    rw [hfind] at h
    cases h
  | some node =>
    cases node with
    | file content =>
      rw [hfind] at h
      cases h
    | dir entries => exact ⟨entries, rfl⟩

/-- A step out of a directory asks only whether the part is too long. -/
theorem step_of_dir (h : s.kind? place = some .dir) (part : List UInt8) :
    s.step place part =
      if Path.isIdle part = false ∧ part ≠ Path.up ∧ maxName < part.length then .error .nameTooLong
      else .ok (resolve place part) := by
  obtain ⟨entries, hentries⟩ := kind?_eq_dir_iff.mp h
  unfold step resolve
  rw [hentries]
  cases hidle : Path.isIdle part with
  | true => simp
  | false =>
    by_cases hup : part = Path.up
    · simp only [hup, ne_eq, not_true_eq_false, false_and, and_false, if_false, Bool.false_eq_true, if_true]
    · by_cases hlong : maxName < part.length
      · simp only [hup, hlong, ne_eq, not_false_eq_true, and_self, if_true, if_false, Bool.false_eq_true]
      · simp only [hup, hlong, and_false, if_false, Bool.false_eq_true]

/-- A step leads somewhere only out of a directory, and to the place that the part leads to. -/
theorem step_eq_ok_iff {part : List UInt8} :
    s.step place part = .ok next ↔
      s.kind? place = some .dir ∧ next = resolve place part ∧
        (Path.isIdle part = false → part ≠ Path.up → part.length ≤ maxName) := by
  constructor
  · intro h
    have hdir := kind?_of_step h
    rw [step_of_dir hdir] at h
    split at h
    · cases h
    · rename_i hlong
      exact ⟨hdir, (Except.ok.inj h).symm, fun hidle hup => Nat.not_lt.mp fun hlt => hlong ⟨hidle, hup, hlt⟩⟩
  · rintro ⟨hdir, rfl, hlength⟩
    rw [step_of_dir hdir, if_neg]
    rintro ⟨hidle, hup, hlt⟩
    exact Nat.not_lt.mpr (hlength hidle hup) hlt

theorem walk_cons_eq_ok_iff {part : List UInt8} {rest : List (List UInt8)} :
    s.walk place (part :: rest) = .ok next ↔ ∃ there, s.step place part = .ok there ∧ s.walk there rest = .ok next := by
  rw [walk]
  cases s.step place part <;> simp

theorem walk_append_eq_ok_iff {front back : List (List UInt8)} :
    s.walk place (front ++ back) = .ok next ↔
      ∃ there, s.walk place front = .ok there ∧ s.walk there back = .ok next := by
  rw [walk_append]
  cases s.walk place front <;> simp

/-- **A walk that arrives has resolved the parts**, one after the other. -/
theorem walk_eq_ok {parts : List (List UInt8)} (h : s.walk place parts = .ok next) :
    next = parts.foldl resolve place := by
  induction parts generalizing place with
  | nil => exact (Except.ok.inj h).symm
  | cons part rest ih =>
    obtain ⟨there, hstep, hwalk⟩ := walk_cons_eq_ok_iff.mp h
    obtain ⟨_, rfl, _⟩ := step_eq_ok_iff.mp hstep
    exact ih hwalk

/-- Storages with the same start for relative paths of which the second has all directories of the first. -/
structure Keeps (s s' : Storage) : Prop where
  workingDir_eq : s'.workingDir = s.workingDir
  dir : ∀ place, s.kind? place = some .dir → s'.kind? place = some .dir

theorem Keeps.trans {s'' : Storage} (h : Keeps s s') (h' : Keeps s' s'') : Keeps s s'' :=
  ⟨h'.workingDir_eq.trans h.workingDir_eq, fun place hplace => h'.dir place (h.dir place hplace)⟩

/-- **A walk that arrives goes on to arrive** while directories stay. -/
theorem Keeps.walk (h : Keeps s s') {parts : List (List UInt8)} (hwalk : s.walk place parts = .ok next) :
    s'.walk place parts = .ok next := by
  induction parts generalizing place with
  | nil => exact hwalk
  | cons part rest ih =>
    obtain ⟨there, hstep, hrest⟩ := walk_cons_eq_ok_iff.mp hwalk
    obtain ⟨hdir, hthere⟩ := step_eq_ok_iff.mp hstep
    exact walk_cons_eq_ok_iff.mpr ⟨there, step_eq_ok_iff.mpr ⟨h.dir place hdir, hthere⟩, ih hrest⟩

theorem Keeps.start (h : Keeps s s') (path : Path) : s'.start path = s.start path := by
  unfold Storage.start
  rw [h.workingDir_eq]

theorem Keeps.target (h : Keeps s s') (path : Path) : s'.target path = s.target path := by
  unfold Storage.target
  rw [h.start]

theorem locate_eq_ok_iff :
    s.locate path = .ok place ↔ refuse? path = none ∧ s.walk (s.start path) path.parts = .ok place := by
  unfold locate
  cases refuse? path <;> simp

theorem target_of_locate (h : s.locate path = .ok place) : s.target path = place :=
  (walk_eq_ok (locate_eq_ok_iff.mp h).2).symm

theorem Keeps.locate (h : Keeps s s') (hlocate : s.locate path = .ok place) : s'.locate path = .ok place := by
  obtain ⟨hrefuse, hwalk⟩ := locate_eq_ok_iff.mp hlocate
  refine locate_eq_ok_iff.mpr ⟨hrefuse, ?_⟩
  rw [h.start]
  exact h.walk hwalk

theorem isDir_iff : s.isDir path = true ↔ ∃ place, s.locate path = .ok place ∧ s.kind? place = some .dir := by
  unfold isDir node
  cases hlocate : s.locate path with
  | error e => simp
  | ok there =>
    simp only [Except.ok.injEq, exists_eq_left', kind?_eq_dir_iff]
    cases s.root.find? there with
    | none => simp
    | some node => cases node <;> simp

theorem read_eq_ok_iff {content : List UInt8} :
    s.read path = .ok content ↔ ∃ place, s.locate path = .ok place ∧ s.kind? place = some (.file content) := by
  unfold read node
  cases hlocate : s.locate path with
  | error e => simp
  | ok there =>
    simp only [Except.ok.injEq, exists_eq_left', kind?_eq_file_iff]
    cases s.root.find? there with
    | none => simp
    | some node => cases node <;> simp

theorem Keeps.isDir (h : Keeps s s') (hdir : s.isDir path = true) : s'.isDir path = true := by
  obtain ⟨place, hlocate, hkind⟩ := isDir_iff.mp hdir
  exact isDir_iff.mpr ⟨place, h.locate hlocate, h.dir place hkind⟩

/-! ## Entries -/

/-- A path that stands for an entry: it leads to a directory, behind which a name follows, and nothing but slashes
    behind the name. -/
structure EntryAt (s : Storage) (path : Path) (place : Place) (name : List UInt8) (slashes : List (List UInt8)) :
    Prop where
  refuse_eq : refuse? path = none
  exists_above : ∃ above, path.parts = above ++ name :: slashes ∧ s.walk (s.start path) above = .ok place
  blank : ∀ part ∈ slashes, part = []
  isDir : s.kind? place = some .dir
  isName : IsName name

/-- Slashes lead from a directory to where it is. -/
theorem walk_blank {parts : List (List UInt8)} (h : ∀ part ∈ parts, part = []) (hplace : s.kind? place = some .dir) :
    s.walk place parts = .ok place := by
  induction parts with
  | nil => rfl
  | cons part rest ih =>
    refine walk_cons_eq_ok_iff.mpr ⟨place, ?_, ih fun other hother => h other (List.mem_cons_of_mem _ hother)⟩
    rw [h part List.mem_cons_self]
    exact step_eq_ok_iff.mpr ⟨hplace, rfl, fun hidle => by cases hidle⟩

theorem foldl_resolve_blank {parts : List (List UInt8)} (h : ∀ part ∈ parts, part = []) (place : Place) :
    parts.foldl resolve place = place := by
  induction parts with
  | nil => rfl
  | cons part rest ih =>
    rw [List.foldl_cons, h part List.mem_cons_self]
    exact ih fun other hother => h other (List.mem_cons_of_mem _ hother)

/-- The entry stands where the path leads to. -/
theorem EntryAt.target_eq {name : List UInt8} {slashes : List (List UInt8)} (h : EntryAt s path place name slashes) :
    s.target path = place ++ [name] := by
  obtain ⟨above, hparts, hwalk⟩ := h.exists_above
  have hname : resolve place name = place ++ [name] := by
    rw [resolve, h.isName.not_idle, if_neg Bool.false_ne_true, if_neg h.isName.not_up]
  rw [target, hparts, List.foldl_append, List.foldl_cons, ← walk_eq_ok hwalk, hname, foldl_resolve_blank h.blank]

/-- The path leads to the entry if no slash follows or the entry is a directory. -/
theorem EntryAt.locate_eq {name : List UInt8} {slashes : List (List UInt8)} (h : EntryAt s path place name slashes)
    (hends : slashes = [] ∨ s.kind? (place ++ [name]) = some .dir) : s.locate path = .ok (place ++ [name]) := by
  obtain ⟨above, hparts, hwalk⟩ := h.exists_above
  obtain ⟨entries, hentries⟩ := kind?_eq_dir_iff.mp h.isDir
  refine locate_eq_ok_iff.mpr ⟨h.refuse_eq, ?_⟩
  rw [hparts, walk_append, hwalk]
  simp only [walk, step_name hentries h.isName]
  rcases hends with rfl | hdir
  · rfl
  · exact walk_blank h.blank hdir

/-- A part of a path that is not refused is a name, unless it is idle, leads up or is too long. -/
theorem isName_of_mem_parts {part : List UInt8} (hrefuse : refuse? path = none) (hpart : part ∈ path.parts)
    (hidle : Path.isIdle part = false) (hup : part ≠ Path.up) (hlength : part.length ≤ maxName) : IsName part := by
  have hnul : ∀ b ∈ path.bytes, b ≠ 0 := by
    rintro b hb rfl
    exact (refuse?_eq_none_iff.mp hrefuse).1 hb
  have hmark : ∀ b : UInt8, (b == Path.slash) = true → b ≠ 0 := by
    intro b hb
    rw [beq_iff_eq.mp hb]
    decide
  refine ⟨hidle, hup, fun hslash => ?_, fun hzero => ?_, hlength⟩
  · exact absurd (Text.not_isMark_of_mem_splitWith hpart Path.slash hslash) (by decide)
  · exact (Text.forall_mem_iff_forall_splitWith hmark path.bytes).mp hnul part hpart 0 hzero rfl

/-- No slash follows the last name of a path that does not end in one. -/
theorem slashes_eq_nil {above slashes : List (List UInt8)} {name : List UInt8}
    (hparts : path.parts = above ++ name :: slashes) (hblank : ∀ part ∈ slashes, part = [])
    (hlast : path.bytes.getLast? ≠ some Path.slash) : slashes = [] := by
  by_contra hne
  obtain ⟨front, last, hslashes⟩ := List.eq_nil_or_concat slashes |>.resolve_left hne
  obtain ⟨others, before, hnames⟩ : ∃ others before, above ++ name :: front = others ++ [before] := by
    obtain ⟨others, before, h⟩ := List.eq_nil_or_concat (above ++ name :: front) |>.resolve_left (by simp)
    exact ⟨others, before, by rw [h, List.concat_eq_append]⟩
  -- what stands before the last, empty part ends with a slash
  have hcut : Text.splitWith (· == Path.slash) path.bytes = (others ++ [before]) ++ [] :: [] := by
    have hempty : last = [] := hblank last (by rw [hslashes]; simp)
    show path.parts = _
    rw [hparts, hslashes, ← hnames, hempty]
    simp
  have hbytes := Text.eq_of_splitWith_eq_append_cons hcut
  refine hlast ?_
  rw [hbytes]
  simp

/-- The parts of a path up to the last that is not empty, that part first. -/
def ending (path : Path) : List (List UInt8) :=
  path.parts.reverse.dropWhile (· == [])

theorem exists_blank (path : Path) :
    ∃ blank, path.parts = (ending path).reverse ++ blank ∧ ∀ part ∈ blank, part = [] := by
  refine ⟨(path.parts.reverse.takeWhile (· == [])).reverse, ?_, fun part hpart => ?_⟩
  · rw [← List.reverse_append, ending, List.takeWhile_append_dropWhile, List.reverse_reverse]
  · have hempty := List.mem_takeWhile_imp (List.mem_reverse.mp hpart)
    exact beq_iff_eq.mp hempty

/-- The entry that a path stands for, if it is not refused. -/
theorem locateEntry_eq_ok_iff {entry : Entry} :
    s.locateEntry path = .ok entry ↔
      refuse? path = none ∧ s.walk (s.start path) ((ending path).tail.reverse ++ [[]]) = .ok entry.place ∧
        entry.name = (ending path).head?.getD [] ∧ entry.slashed = (path.bytes.getLast? == some Path.slash) := by
  unfold locateEntry
  cases refuse? path with
  | some e => simp
  | none =>
    simp only [true_and]
    rw [← ending]
    cases s.walk (s.start path) ((ending path).tail.reverse ++ [[]]) with
    | error e => simp
    | ok place =>
      obtain ⟨there, name, slashed⟩ := entry
      simp only [Except.ok.injEq, Entry.mk.injEq, eq_comm]

/-- A walk that ends in an idle part ends in a directory. -/
theorem walk_idle_eq_ok_iff {parts : List (List UInt8)} :
    s.walk place (parts ++ [[]]) = .ok next ↔ s.walk place parts = .ok next ∧ s.kind? next = some .dir := by
  rw [walk_append_eq_ok_iff]
  constructor
  · rintro ⟨there, hwalk, hidle⟩
    obtain ⟨_, hstep, hnext⟩ := walk_cons_eq_ok_iff.mp hidle
    obtain ⟨hdir, rfl, _⟩ := step_eq_ok_iff.mp hstep
    obtain rfl := Except.ok.inj hnext
    exact ⟨hwalk, hdir⟩
  · rintro ⟨hwalk, hdir⟩
    exact ⟨next, hwalk, walk_blank (by simp) hdir⟩

theorem entryAt_of_locateEntry {entry : Entry} (h : s.locateEntry path = .ok entry) (hnamed : entry.isNamed = true)
    (hshort : entry.name.length ≤ maxName) :
    ∃ slashes, EntryAt s path entry.place entry.name slashes ∧ (entry.slashed = false → slashes = []) := by
  obtain ⟨hrefuse, hwalk, hname, hslashed⟩ := locateEntry_eq_ok_iff.mp h
  obtain ⟨habove, hdir⟩ := walk_idle_eq_ok_iff.mp hwalk
  obtain ⟨slashes, hparts, hblank⟩ := exists_blank path
  simp only [Entry.isNamed, Bool.and_eq_true, Bool.not_eq_true', bne_iff_ne] at hnamed
  cases hending : ending path with
  | nil =>
    rw [hending] at hname
    rw [hname] at hnamed
    exact absurd hnamed.1 (by decide)
  | cons name above =>
    rw [hending] at hname hparts habove
    obtain rfl : entry.name = name := hname
    rw [List.reverse_cons, List.append_assoc, List.singleton_append] at hparts
    refine ⟨slashes, ⟨hrefuse, ⟨above.reverse, hparts, habove⟩, hblank, hdir, ?_⟩, fun h => ?_⟩
    · exact isName_of_mem_parts hrefuse (by rw [hparts]; simp) hnamed.1 hnamed.2 hshort
    · rw [h] at hslashed
      exact slashes_eq_nil hparts hblank (beq_eq_false_iff_ne.mp hslashed.symm)

theorem Keeps.locateEntry (h : Keeps s s') {entry : Entry} (hentry : s.locateEntry path = .ok entry) :
    s'.locateEntry path = .ok entry := by
  obtain ⟨hrefuse, hwalk, hname⟩ := locateEntry_eq_ok_iff.mp hentry
  refine locateEntry_eq_ok_iff.mpr ⟨hrefuse, ?_, hname⟩
  rw [h.start]
  exact h.walk hwalk

/-- A path that leads somewhere stands for an entry, and leads to where that entry stands. -/
theorem exists_entry_of_locate (h : s.locate path = .ok place) :
    ∃ entry, s.locateEntry path = .ok entry ∧ place = resolve entry.place entry.name ∧
      (entry.isNamed = true → entry.name.length ≤ maxName) := by
  obtain ⟨hrefuse, hwalk⟩ := locate_eq_ok_iff.mp h
  obtain ⟨blank, hparts, hblank⟩ := exists_blank path
  let slashed : Bool := path.bytes.getLast? == some Path.slash
  cases hending : ending path with
  | nil =>
    -- nothing but slashes: the path leads to where it starts
    obtain ⟨part, rest, hcons⟩ := List.exists_cons_of_ne_nil (Text.splitWith_ne_nil (· == Path.slash) path.bytes)
    have hdir : s.kind? (s.start path) = some .dir := by
      have hfirst := hwalk
      rw [show path.parts = part :: rest from hcons] at hfirst
      obtain ⟨_, hstep, _⟩ := walk_cons_eq_ok_iff.mp hfirst
      exact (step_eq_ok_iff.mp hstep).1
    rw [hending, List.reverse_nil, List.nil_append] at hparts
    have hplace : place = s.start path := by
      rw [walk_eq_ok hwalk, hparts, foldl_resolve_blank hblank]
    refine ⟨⟨s.start path, [], slashed⟩, locateEntry_eq_ok_iff.mpr ⟨hrefuse, ?_, ?_, rfl⟩, hplace, fun h => by cases h⟩
    · rw [hending]
      exact walk_idle_eq_ok_iff.mpr ⟨rfl, hdir⟩
    · rw [hending]
      rfl
  | cons name above =>
    rw [hending, List.reverse_cons, List.append_assoc, List.singleton_append] at hparts
    rw [hparts] at hwalk
    obtain ⟨there, habove, hname⟩ := walk_append_eq_ok_iff.mp hwalk
    obtain ⟨next, hstep, hrest⟩ := walk_cons_eq_ok_iff.mp hname
    obtain ⟨hdir, rfl, hlength⟩ := step_eq_ok_iff.mp hstep
    have hplace : place = resolve there name := by
      rw [walk_eq_ok hrest, foldl_resolve_blank hblank]
    refine ⟨⟨there, name, slashed⟩, locateEntry_eq_ok_iff.mpr ⟨hrefuse, ?_, ?_, rfl⟩, hplace, fun hnamed => ?_⟩
    · rw [hending]
      exact walk_idle_eq_ok_iff.mpr ⟨habove, hdir⟩
    · rw [hending]
      rfl
    · simp only [Entry.isNamed, Bool.and_eq_true, Bool.not_eq_true', bne_iff_ne] at hnamed
      exact hlength hnamed.1 hnamed.2

end Storage

end LatencyReport
