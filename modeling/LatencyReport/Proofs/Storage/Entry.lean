import LatencyReport.Proofs.Text.Split
import LatencyReport.Storage.Tree

/-!
# `Proofs.Storage.Entry` — the path of an entry leads to the entry

A path is walked part by part, so **the walk of a joined path is the walk of the directory and one step more**. The
step needs a name that an entry can have; and the walk is started only for a path that is not too long, which a
joined path can be although its directory is not.

## Contents

* `IsName`, `IsListing` — names of entries, and the entries of a directory;
* `walk_append`, `find?_append` — walking and looking up, in two stretches;
* `parts_join`, `fileName?_join`, `refuse?_join` — the path of an entry;
* `node_eq_ok_iff`, `walk_join`, `node_join` — what a path leads to, and the path of an entry.
-/

namespace LatencyReport

/-! ## Names -/

/-- A name that an entry of a directory can have. -/
structure IsName (name : List UInt8) : Prop where
  not_idle : Path.isIdle name = false
  not_up : name ≠ Path.up
  no_slash : Path.slash ∉ name
  no_nul : 0 ∉ name
  length_le : name.length ≤ Storage.maxName

/-- What a directory can hold: entries whose names are names, and differ. -/
structure IsListing (entries : List (List UInt8 × Node)) : Prop where
  isName : ∀ entry ∈ entries, IsName entry.1
  nodup : (entries.map (·.1)).Nodup

instance (name : List UInt8) : Decidable (IsName name) :=
  decidable_of_iff (Path.isIdle name = false ∧ name ≠ Path.up ∧ Path.slash ∉ name ∧ 0 ∉ name ∧
      name.length ≤ Storage.maxName)
    ⟨fun ⟨hidle, hup, hslash, hnul, hlength⟩ => ⟨hidle, hup, hslash, hnul, hlength⟩,
      fun h => ⟨h.not_idle, h.not_up, h.no_slash, h.no_nul, h.length_le⟩⟩

instance (entries : List (List UInt8 × Node)) : Decidable (IsListing entries) :=
  decidable_of_iff ((∀ entry ∈ entries, IsName entry.1) ∧ (entries.map (·.1)).Nodup)
    ⟨fun h => ⟨h.1, h.2⟩, fun h => ⟨h.isName, h.nodup⟩⟩

theorem IsName.ne_nil {name : List UInt8} (h : IsName name) : name ≠ [] := by
  rintro rfl
  exact absurd h.not_idle (by decide)

theorem IsName.splitWith_eq {name : List UInt8} (h : IsName name) :
    Text.splitWith (· == Path.slash) name = [name] := by
  refine Text.splitWith_of_forall_not fun b hb => ?_
  rw [beq_eq_false_iff_ne]
  rintro rfl
  exact h.no_slash hb

/-- A name is no path from the root. -/
theorem IsName.isAbsolute_eq {name : List UInt8} (h : IsName name) : Path.isAbsolute ⟨name⟩ = false := by
  obtain ⟨b, rest, rfl⟩ := List.exists_cons_of_ne_nil h.ne_nil
  unfold Path.isAbsolute
  rw [beq_eq_false_iff_ne]
  intro hb
  exact h.no_slash (Option.some.inj hb ▸ List.mem_cons_self)

/-! ## Walking -/

namespace Storage

/-- **A walk in two stretches.** -/
theorem walk_append (s : Storage) (place : List (List UInt8)) (front back : List (List UInt8)) :
    s.walk place (front ++ back) =
      match s.walk place front with
      | .error e => .error e
      | .ok next => s.walk next back := by
  induction front generalizing place with
  | nil => rfl
  | cons part front ih =>
    rw [List.cons_append, walk, walk]
    cases s.step place part with
    | error e => rfl
    | ok next => exact ih next

/-- A part that leads nowhere may be left out at the end. -/
theorem walk_of_walk_idle {s : Storage} {place next : List (List UInt8)} {parts : List (List UInt8)}
    (h : s.walk place (parts ++ [[]]) = .ok next) : s.walk place parts = .ok next := by
  rw [walk_append] at h
  cases hparts : s.walk place parts with
  | error e => simp [hparts] at h
  | ok there =>
    rw [hparts] at h
    simp only [walk, step] at h
    cases hfind : s.root.find? there with
    | none => simp [hfind] at h
    | some node =>
      cases node with
      | file content => simp [hfind] at h
      | dir entries => simpa [hfind, Path.isIdle] using h

/-- A name leads from a directory to the place of the entry, whether there is one or not. -/
theorem step_name {s : Storage} {place : List (List UInt8)} {entries : List (List UInt8 × Node)}
    (hplace : s.root.find? place = some (.dir entries)) {name : List UInt8} (h : IsName name) :
    s.step place name = .ok (place ++ [name]) := by
  have hlength : ¬maxName < name.length := Nat.not_lt.mpr h.length_le
  simp only [step, hplace, h.not_idle, h.not_up, hlength, if_false, Bool.false_eq_true]

end Storage

/-- What stands at a place further down. -/
theorem Node.find?_append {node : Node} {place : List (List UInt8)} {entries : List (List UInt8 × Node)}
    (h : node.find? place = some (.dir entries)) (name : List UInt8) :
    node.find? (place ++ [name]) = entries.lookup name := by
  induction place generalizing node with
  | nil =>
    rw [Node.find?, Option.some.injEq] at h
    rw [h, List.nil_append, Node.find?]
    cases entries.lookup name <;> rfl
  | cons first place ih =>
    cases node with
    | file content => simp [Node.find?] at h
    | dir others =>
      rw [Node.find?] at h
      rw [List.cons_append, Node.find?]
      cases hfirst : others.lookup first with
      | none => simp [hfirst] at h
      | some child =>
        rw [hfirst] at h
        exact ih h

/-! ## The path of an entry -/

variable {dir : Path} {name : List UInt8}

/-- The bytes of the path of an entry: a slash stands between directory and name, one that was there or a new one. -/
theorem join_eq (hdir : dir.bytes ≠ []) (h : IsName name) :
    dir.join ⟨name⟩ =
      if dir.bytes.getLast? = some Path.slash then ⟨dir.bytes ++ name⟩ else ⟨dir.bytes ++ Path.slash :: name⟩ := by
  have hempty : dir.bytes.isEmpty = false := by simpa using hdir
  simp only [Path.join, h.isAbsolute_eq, hempty, Bool.or_false, Bool.false_eq_true, if_false, beq_iff_eq]

/-- The path of an entry is as long as directory and name, at least. -/
theorem length_add_le_join (hdir : dir.bytes ≠ []) (h : IsName name) :
    dir.bytes.length + name.length ≤ (dir.join ⟨name⟩).bytes.length := by
  rw [join_eq hdir h]
  split <;> simp

/-- **The parts of the path of an entry** are those of the directory and the name. A slash at the end of the directory
    makes no empty part. -/
theorem parts_join (hdir : dir.bytes ≠ []) (h : IsName name) :
    ∃ above, (dir.join ⟨name⟩).parts = above ++ [name] ∧ (dir.parts = above ∨ dir.parts = above ++ [[]]) := by
  have hslash : (Path.slash == Path.slash) = true := rfl
  rw [join_eq hdir h]
  split
  · rename_i hlast
    obtain ⟨init, hinit⟩ := List.getLast?_eq_some_iff.mp hlast
    refine ⟨Text.splitWith (· == Path.slash) init, ?_, Or.inr ?_⟩
    · rw [Path.parts, hinit, List.append_assoc, List.singleton_append,
        Text.splitWith_append_mark (by exact hslash), h.splitWith_eq]
    · rw [Path.parts, hinit, Text.splitWith_append_mark (by exact hslash), Text.splitWith_nil]
  · refine ⟨dir.parts, ?_, Or.inl rfl⟩
    rw [Path.parts, Text.splitWith_append_mark (by exact hslash), h.splitWith_eq, Path.parts]

/-- The last name of the path of an entry is the entry's. -/
theorem fileName?_join (hdir : dir.bytes ≠ []) (h : IsName name) : (dir.join ⟨name⟩).fileName? = some name := by
  obtain ⟨above, hparts, _⟩ := parts_join hdir h
  have hlast : ((dir.join ⟨name⟩).parts.reverse.dropWhile Path.isIdle) = name :: above.reverse := by
    rw [hparts, List.reverse_append, List.reverse_singleton, List.singleton_append,
      List.dropWhile_cons_of_neg (by rw [h.not_idle]; exact Bool.false_ne_true)]
  unfold Path.fileName?
  rw [hlast]
  exact if_neg h.not_up

/-- The path of an entry starts where the path of the directory starts. -/
theorem start_join (s : Storage) (hdir : dir.bytes ≠ []) (h : IsName name) :
    s.start (dir.join ⟨name⟩) = s.start dir := by
  have habsolute : (dir.join ⟨name⟩).isAbsolute = dir.isAbsolute := by
    obtain ⟨b, rest, hbytes⟩ := List.exists_cons_of_ne_nil hdir
    rw [join_eq hdir h]
    split <;> simp [Path.isAbsolute, hbytes]
  unfold Storage.start
  rw [habsolute]

/-- A path is not refused if it is not empty, has no zero byte and is not too long. -/
theorem refuse?_eq_none_iff {path : Path} :
    Storage.refuse? path = none ↔
      0 ∉ path.bytes ∧ path.bytes ≠ [] ∧ path.bytes.length < Storage.pathBound := by
  unfold Storage.refuse?
  split
  · simp_all
  · split
    · simp_all
    · split <;> simp_all

/-- **The path of an entry is refused only for its length**, if the path of the directory is not refused. -/
theorem refuse?_join (hdir : Storage.refuse? dir = none) (h : IsName name) :
    Storage.refuse? (dir.join ⟨name⟩) =
      if Storage.pathBound ≤ (dir.join ⟨name⟩).bytes.length then some .nameTooLong else none := by
  obtain ⟨hnul, hne, _⟩ := refuse?_eq_none_iff.mp hdir
  have hbytes : (dir.join ⟨name⟩).bytes ≠ [] ∧ 0 ∉ (dir.join ⟨name⟩).bytes := by
    rw [join_eq hne h]
    split <;> simp [hne, hnul, h.no_nul, Path.slash]
  have hcontains : (dir.join ⟨name⟩).bytes.contains 0 = false := by simpa using hbytes.2
  simp only [Storage.refuse?, hcontains, hbytes.1, Bool.false_eq_true, if_false]

/-- A path leads to something if it is not refused, the walk arrives at a place, and something stands there. -/
theorem node_eq_ok_iff {s : Storage} {path : Path} {node : Node} :
    s.node path = .ok node ↔
      Storage.refuse? path = none ∧ ∃ place, s.walk (s.start path) path.parts = .ok place ∧
        s.root.find? place = some node := by
  unfold Storage.node Storage.locate
  cases Storage.refuse? path with
  | some e => simp
  | none =>
    cases s.walk (s.start path) path.parts with
    | error e => simp
    | ok place => cases hfind : s.root.find? place <;> simp [hfind]

/-- **The walk to an entry** is the walk to the directory and one step more. -/
theorem walk_join {s : Storage} {place : List (List UInt8)} {entries : List (List UInt8 × Node)} (hdir : dir.bytes ≠ [])
    (hwalk : s.walk (s.start dir) dir.parts = .ok place) (hplace : s.root.find? place = some (.dir entries))
    (h : IsName name) :
    s.walk (s.start (dir.join ⟨name⟩)) (dir.join ⟨name⟩).parts = .ok (place ++ [name]) := by
  obtain ⟨above, hparts, hsame⟩ := parts_join hdir h
  have habove : s.walk (s.start dir) above = .ok place := by
    rcases hsame with hsame | hsame
    · rwa [← hsame]
    · -- a slash at the end of the directory is one idle step more
      exact Storage.walk_of_walk_idle (hsame ▸ hwalk)
  rw [start_join s hdir h, hparts, Storage.walk_append, habove]
  simp only [Storage.walk, Storage.step_name hplace h]

/-- **What the path of an entry leads to**: the entry, unless the path is too long to be walked. -/
theorem node_join {s : Storage} {entries : List (List UInt8 × Node)} (hdir : s.node dir = .ok (.dir entries))
    (h : IsName name) :
    s.node (dir.join ⟨name⟩) =
      if Storage.pathBound ≤ (dir.join ⟨name⟩).bytes.length then .error .nameTooLong
      else
        match entries.lookup name with
        | none => .error .notFound
        | some node => .ok node := by
  obtain ⟨hrefuse, place, hwalk, hplace⟩ := node_eq_ok_iff.mp hdir
  have hjoin := walk_join (refuse?_eq_none_iff.mp hrefuse).2.1 hwalk hplace h
  unfold Storage.node Storage.locate
  rw [refuse?_join hrefuse h]
  by_cases hlong : Storage.pathBound ≤ (dir.join ⟨name⟩).bytes.length
  · rw [if_pos hlong, if_pos hlong]
  · rw [if_neg hlong, if_neg hlong]
    cases hentry : entries.lookup name <;> simp only [hjoin, Node.find?_append hplace, hentry]

end LatencyReport
