import LatencyReport.Proofs.Dataset.File
import LatencyReport.Proofs.Storage.Change

/-!
# `Proofs.Storage.Runs` — what runs do to files

A run **looks** (`OnlyReads`) or it changes something, and then it writes files and makes directories at some paths
only (`GrowsBy`). Both are said of one step after the other: a run has them if its steps have them.

To make a directory is to make those above it that are missing, and to do nothing if it is there. The attempt is a
function of the files alone (`Storage.makeDirsFrom`), so what it leaves is told by induction on the directories above
(`attemptAt_makeDirsFrom`).

## Contents

* `OnlyReads`, `GrowsBy` — runs that look, and runs that change;
* `Storage.makeDirsFrom`, `AttemptAt`, `attemptAt_makeDirsFrom` — directories and those above them;
* `makeDirsFrom_eq`, `attemptAt_makeDirs`, `isMade_of_makeDirs`, `makeDirs_of_isMade` — the run that makes them;
* `Apart` — paths that never meet.
-/

namespace LatencyReport

open Storage

section
variable {α β : Type} {files dirs : Path → Prop}

/-! ## Runs that look -/

/-- A run that changes no file. -/
def OnlyReads (x : Run α) : Prop :=
  ∀ w, (x w).2.storage = w.storage

theorem onlyReads_pure (a : α) : OnlyReads (pure a : Run α) :=
  fun _ => rfl

theorem OnlyReads.bind {x : Run α} {f : α → Run β} (hx : OnlyReads x) (hf : ∀ a, OnlyReads (f a)) :
    OnlyReads (x >>= f) :=
  fun w => (hf _ _).trans (hx w)

theorem onlyReads_log (event : Event) : OnlyReads (log event : Run Unit) :=
  fun _ => rfl

theorem onlyReads_tell (events : List Event) : OnlyReads (tell events : Run Unit) := by
  intro w
  rw [tell_eq]
  rfl

theorem onlyReads_readFile (path : Path) : OnlyReads (readFile path : Run _) :=
  fun _ => rfl

theorem onlyReads_listDir (path : Path) : OnlyReads (listDir path : Run _) :=
  fun _ => rfl

/-! ## Runs that change -/

/-- A run that writes files and makes directories at some paths only. -/
def GrowsBy (files dirs : Path → Prop) (x : Run α) : Prop :=
  ∀ w, Grows files dirs w.storage (x w).2.storage

theorem OnlyReads.growsBy {x : Run α} (h : OnlyReads x) : GrowsBy files dirs x := by
  intro w
  rw [h w]
  exact .refl _

theorem GrowsBy.bind {x : Run α} {f : α → Run β} (hx : GrowsBy files dirs x) (hf : ∀ a, GrowsBy files dirs (f a)) :
    GrowsBy files dirs (x >>= f) :=
  fun w => (hx w).trans (hf _ _)

theorem growsBy_writeFile {path : Path} (hpath : files path) (content : List UInt8) :
    GrowsBy files dirs (writeFile path content : Run _) := by
  intro w
  show Grows files dirs w.storage (w.change (w.storage.write path content)).2.storage
  cases hwrite : w.storage.write path content with
  | error e => exact .refl _
  | ok storage => exact grows_of_write hwrite hpath

end

/-! ## Directories and those above them -/

namespace Storage

variable {s s' : Storage} {path : Path} {paths : List Path} {dirs : Path → Prop}

/-- A path that needs no directory to be made: the empty one, or that of a directory. -/
def IsMade (s : Storage) (path : Path) : Prop :=
  path.bytes = [] ∨ s.isDir path = true

theorem IsMade.keeps (h : IsMade s path) (hkeeps : Keeps s s') : IsMade s' path :=
  h.imp id hkeeps.isDir

/-- No path at all. -/
def noPath : Path → Prop :=
  fun _ => False

/-- What is answered of a directory that could not be made: it may be there. -/
def settle (s : Storage) (path : Path) (e : OsError) : Except OsError Unit × Storage :=
  (if s.isDir path then .ok () else .error e, s)

/-- The first of the directories made, after those above it if they are missing. -/
def makeDirsFrom (s : Storage) : List Path → Except OsError Unit × Storage
  | [] => (.error .notFound, s)
  | path :: above =>
    if path.bytes = [] then (.ok (), s)
    else
      match s.makeDir path with
      | .ok made => (.ok (), made)
      | .error .notFound =>
        match s.makeDirsFrom above with
        | (.error e, after) => (.error e, after)
        | (.ok (), after) =>
          match after.makeDir path with
          | .ok made => (.ok (), made)
          | .error e => after.settle path e
      | .error e => s.settle path e

/-- What is left of an attempt to make the first of the directories: some of them were made, all but the first if it
    failed, and no file was touched. -/
def AttemptAt (s : Storage) (paths : List Path) : Except OsError Unit × Storage → Prop
  | (.ok (), after) => Grows noPath (· ∈ paths) s after ∧ ∀ path ∈ paths.head?, IsMade after path
  | (.error _, after) => Grows noPath (· ∈ paths.tail) s after

theorem AttemptAt.grows {outcome : Except OsError Unit × Storage} (h : AttemptAt s paths outcome) :
    Grows noPath (· ∈ paths) s outcome.2 := by
  obtain ⟨_ | _, after⟩ := outcome
  · exact Grows.mono h (fun _ h => h) fun _ h => List.mem_of_mem_tail h
  · exact h.1

/-- A directory that could not be made after those above it were. -/
theorem attemptAt_settle {above : List Path} (h : Grows noPath (· ∈ above) s s') (e : OsError) :
    AttemptAt s (path :: above) (s'.settle path e) := by
  rw [settle]
  cases hdir : s'.isDir path with
  | true =>
    refine ⟨h.mono (fun _ h => h) fun _ h => List.mem_cons_of_mem _ h, ?_⟩
    rintro _ ⟨⟩
    exact Or.inr hdir
  | false => exact h

/-- A directory that was made after those above it were. -/
theorem attemptAt_makeDir {above : List Path} {after : Storage} (h : Grows noPath (· ∈ above) s s')
    (hmake : s'.makeDir path = .ok after) : AttemptAt s (path :: above) (.ok (), after) := by
  refine ⟨?_, ?_⟩
  · exact (h.mono (fun _ h => h) fun _ h => List.mem_cons_of_mem _ h).trans
      (grows_of_makeDir hmake List.mem_cons_self)
  · rintro _ ⟨⟩
    exact Or.inr (isDir_of_makeDir hmake)

/-- **Making a directory and those above it** makes no other directory and touches no file; if it succeeds the
    directory is there, and if it fails at most some above it were made. -/
theorem attemptAt_makeDirsFrom (s : Storage) (paths : List Path) : AttemptAt s paths (s.makeDirsFrom paths) := by
  -- on the path and those above it: what is left of the attempt above is where the second attempt starts
  induction paths with
  | nil => exact Grows.refl s
  | cons path above ih =>
    have hnothing : Grows noPath (· ∈ above) s s := .refl s
    rw [makeDirsFrom]
    by_cases hempty : path.bytes = []
    · rw [if_pos hempty]
      refine ⟨.refl s, ?_⟩
      rintro _ ⟨⟩
      exact Or.inl hempty
    · rw [if_neg hempty]
      cases hmake : s.makeDir path with
      | ok made => exact attemptAt_makeDir hnothing hmake
      | error e =>
        cases e with
        | notFound =>
          simp only
          have habove := ih.grows
          cases hrun : s.makeDirsFrom above with
          | mk made after =>
            rw [hrun] at habove
            cases made with
            | error e => exact habove
            | ok done =>
              simp only
              cases hagain : after.makeDir path with
              | ok made => exact attemptAt_makeDir habove hagain
              | error e => exact attemptAt_settle habove e
        | _ => exact attemptAt_settle hnothing _

/-- **An attempt that fails changes nothing** if none of the directories above is missing. -/
theorem makeDirsFrom_of_error {above : List Path} {e : OsError}
    (habove : s.makeDir path = .error .notFound → s.makeDirsFrom above = (.ok (), s))
    (h : s.makeDirsFrom (path :: above) = (.error e, s')) : s' = s := by
  rw [makeDirsFrom] at h
  by_cases hempty : path.bytes = []
  · rw [if_pos hempty] at h
    cases h
  · rw [if_neg hempty] at h
    cases hmake : s.makeDir path with
    | ok made =>
      rw [hmake] at h
      cases h
    | error cause =>
      rw [hmake] at h habove
      have hsettled : s.settle path cause = (.error e, s') := by
        cases cause with
        | notFound =>
          simp only [habove rfl, hmake] at h
          exact h
        | _ => exact h
      rw [settle] at hsettled
      exact (congrArg Prod.snd hsettled).symm

end Storage

theorem makeDirsFrom_eq (paths : List Path) (w : World) :
    (makeDirsFrom paths : Run _) w =
      ((w.storage.makeDirsFrom paths).1, { w with storage := (w.storage.makeDirsFrom paths).2 }) := by
  have hmakeDir : ∀ (path : Path) (w : World), (makeDir path : Run _) w = w.change (w.storage.makeDir path) :=
    fun _ _ => rfl
  have hsettle : ∀ (path : Path) (e : OsError) (w : World),
      (makeDirsFrom.settle path (.error e) : Run _) w =
        ((w.storage.settle path e).1, { w with storage := (w.storage.settle path e).2 }) := by
    intro path e w
    show (if w.storage.isDir path then pure (Except.ok ()) else pure (Except.error e) : Run _) w = _
    rw [settle]
    cases w.storage.isDir path <;> rfl
  induction paths generalizing w with
  | nil => rfl
  | cons path above ih =>
    rw [makeDirsFrom, Storage.makeDirsFrom]
    by_cases hempty : path.bytes = []
    · rw [if_pos hempty, if_pos (List.isEmpty_iff.mpr hempty)]
      rfl
    · rw [if_neg hempty, if_neg (by rwa [List.isEmpty_iff]), bind_eq, hmakeDir]
      cases hmake : w.storage.makeDir path with
      | ok made => rfl
      | error e =>
        cases e with
        | notFound =>
          simp only [World.change, bind_eq, ih]
          cases hrun : w.storage.makeDirsFrom above with
          | mk made after =>
            cases made with
            | error e => rfl
            | ok done =>
              simp only [bind_eq, hmakeDir]
              cases hagain : after.makeDir path with
              | ok made => rfl
              | error e => exact hsettle path e _
        | _ => exact hsettle path _ w

/-! ## Making directories -/

section
variable {α β : Type} {files dirs : Path → Prop} {path : Path} {w : World}

/-- The first of a path and the directories above it is the path. -/
theorem head?_ancestors (path : Path) : path.ancestors.head? = some path := by
  unfold Path.ancestors
  cases path.bytes.length with
  | zero => rfl
  | succ depth =>
    rw [Path.ancestorsWithin]
    cases path.parent? <;> rfl

/-- The attempt to make a directory, and what it leaves. -/
theorem attemptAt_makeDirs (path : Path) (w : World) :
    ((makeDirs path : Run _) w).2.journal = w.journal ∧
      AttemptAt w.storage path.ancestors (((makeDirs path : Run _) w).1, ((makeDirs path : Run _) w).2.storage) := by
  rw [makeDirs, makeDirsFrom_eq]
  exact ⟨rfl, attemptAt_makeDirsFrom w.storage path.ancestors⟩

theorem growsBy_makeDirs (hdirs : ∀ above ∈ path.ancestors, dirs above) :
    GrowsBy files dirs (makeDirs path : Run _) :=
  fun w => (attemptAt_makeDirs path w).2.grows.mono (fun _ h => h.elim) hdirs

/-- **A directory is there after it was made.** -/
theorem isMade_of_makeDirs (h : ((makeDirs path : Run _) w).1 = .ok ()) :
    IsMade ((makeDirs path : Run _) w).2.storage path := by
  obtain ⟨_, hattempt⟩ := attemptAt_makeDirs path w
  rw [h] at hattempt
  exact hattempt.2 path (head?_ancestors path)

/-- **A directory that is there is made by doing nothing.** -/
theorem makeDirs_of_isMade (h : IsMade w.storage path) : (makeDirs path : Run _) w = (.ok (), w) := by
  obtain ⟨above, hancestors⟩ : ∃ above, path.ancestors = path :: above :=
    List.head?_eq_some_iff.mp (head?_ancestors path)
  rw [makeDirs, makeDirsFrom_eq, hancestors, Storage.makeDirsFrom]
  by_cases hempty : path.bytes = []
  · rw [if_pos hempty]
  · have hdir := h.resolve_left hempty
    rw [if_neg hempty, makeDir_of_isDir hdir]
    simp only [settle, hdir, if_true]

/-- Paths that lead to different places, whatever the files are. -/
def Apart (path other : Path) : Prop :=
  ∀ s : Storage, s.target path ≠ s.target other

end

end LatencyReport
