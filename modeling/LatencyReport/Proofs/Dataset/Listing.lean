import LatencyReport.Dataset
import LatencyReport.Proofs.Storage.Entry

/-!
# `Proofs.Dataset.Listing` — the files of a directory, in the order of their names

The entries of a directory come in any order, and files are visited in the order of their names. Names are sorted and
differ, so **what is visited is decided by which files there are** (`eq_of_sorted`): a file more is one visit more, at
the place of its name, and anything else that is there is no visit at all (`visits_insert`).

## Contents

* `pairwise_inNameOrder`, `eq_of_sorted`, `exists_sorted_insert` — names in order, and lists sorted by names;
* `visited?`, `visits` — the files that are visited; `mem_visits_iff`, `sorted_visits` — which, and in which order;
* `visits_insert` — one entry more;
* `filter_isFile_eq`, `read_of_mem_visits` — the visits of a run.
-/

namespace LatencyReport

variable {β : Type}

/-! ## Sorted names -/

/-- Names in order are the same names. -/
theorem perm_inNameOrder (names : List (List UInt8)) : (Dataset.inNameOrder names).Perm names :=
  List.mergeSort_perm names _

/-- **Names that differ are sorted strictly.** -/
theorem pairwise_inNameOrder {names : List (List UInt8)} (h : names.Nodup) :
    (Dataset.inNameOrder names).Pairwise (· < ·) := by
  have hle : (Dataset.inNameOrder names).Pairwise fun a b => decide (a ≤ b) = true := by
    refine List.pairwise_mergeSort ?_ ?_ names
    · intro a b c hab hbc
      simp only [decide_eq_true_eq] at hab hbc ⊢
      exact List.le_trans hab hbc
    · intro a b
      simpa using List.le_total a b
  -- sorted and different is sorted strictly
  have hne : (Dataset.inNameOrder names).Pairwise (· ≠ ·) := (perm_inNameOrder names).nodup_iff.mpr h
  refine hle.imp₂ (fun a b hab hdiffer => ?_) hne
  rw [decide_eq_true_eq] at hab
  by_contra hlt
  exact hdiffer (List.le_antisymm hab hlt)

/-- A list that is sorted by names that differ. -/
def SortedByName (xs : List (List UInt8 × β)) : Prop :=
  xs.Pairwise (·.1 < ·.1)

theorem SortedByName.nodup {xs : List (List UInt8 × β)} (h : SortedByName xs) : xs.Nodup := by
  refine h.imp fun hlt heq => ?_
  rw [heq] at hlt
  exact List.lt_irrefl _ hlt

/-- **A sorted list is decided by its members.** -/
theorem eq_of_sorted {xs ys : List (List UInt8 × β)} (hx : SortedByName xs) (hy : SortedByName ys)
    (h : ∀ x, x ∈ xs ↔ x ∈ ys) : xs = ys := by
  refine List.Perm.eq_of_pairwise ?_ hx hy ((List.perm_ext_iff_of_nodup hx.nodup hy.nodup).mpr h)
  intro a b _ _ hab hba
  exact absurd hba (List.lt_asymm hab)

/-- Names below and above a name that is missing. -/
theorem lt_or_gt_of_ne {a b : List UInt8} (h : a ≠ b) : a < b ∨ b < a := by
  by_contra hno
  rw [not_or] at hno
  exact h (List.le_antisymm hno.2 hno.1)

/-- Two sorted lists around a name, with at most one member of that name between them. -/
theorem sorted_around {name : List UInt8} {new : Option β} {below above : List (List UInt8 × β)}
    (hbelow : SortedByName below) (habove : SortedByName above) (hlt : ∀ x ∈ below, x.1 < name)
    (hgt : ∀ x ∈ above, name < x.1) : SortedByName (below ++ (new.map (name, ·)).toList ++ above) := by
  cases new with
  | none =>
    rw [Option.map_none, Option.toList_none, List.append_nil]
    exact List.pairwise_append.mpr ⟨hbelow, habove, fun x hx y hy => List.lt_trans (hlt x hx) (hgt y hy)⟩
  | some b =>
    rw [Option.map_some, Option.toList_some, List.append_assoc, List.singleton_append]
    refine List.pairwise_append.mpr ⟨hbelow, List.pairwise_cons.mpr ⟨hgt, habove⟩, ?_⟩
    intro x hx y hy
    rcases List.mem_cons.mp hy with rfl | hy
    · exact hlt x hx
    · exact List.lt_trans (hlt x hx) (hgt y hy)

/-- **One member more of a sorted list** stands at the place of its name; all others stay where they are. -/
theorem exists_sorted_insert {xs ys : List (List UInt8 × β)} (hx : SortedByName xs) (hy : SortedByName ys)
    {name : List UInt8} {new : Option β} (hnew : ∀ x ∈ xs, x.1 ≠ name)
    (hmem : ∀ x, x ∈ ys ↔ x ∈ xs ∨ x ∈ (new.map (name, ·)).toList) :
    ∃ below above, xs = below ++ above ∧ ys = below ++ (new.map (name, ·)).toList ++ above ∧
      (∀ x ∈ below, x.1 < name) ∧ ∀ x ∈ above, name < x.1 := by
  -- what is below the name and what is above it are all of the shorter list
  let below := xs.filter fun x => decide (x.1 < name)
  let above := xs.filter fun x => decide (name < x.1)
  have hbelow : ∀ x, x ∈ below ↔ x ∈ xs ∧ x.1 < name := by simp [below]
  have habove : ∀ x, x ∈ above ↔ x ∈ xs ∧ name < x.1 := by simp [above]
  have hlt : ∀ x ∈ below, x.1 < name := fun x hmem => ((hbelow x).mp hmem).2
  have hgt : ∀ x ∈ above, name < x.1 := fun x hmem => ((habove x).mp hmem).2
  have hsides : ∀ x, x ∈ xs ↔ x ∈ below ∨ x ∈ above := by
    intro x
    rw [hbelow, habove, ← and_or_left]
    exact (and_iff_left_of_imp fun hold => lt_or_gt_of_ne (hnew x hold)).symm
  have haround : ∀ more : Option β, SortedByName (below ++ (more.map (name, ·)).toList ++ above) :=
    fun more => sorted_around (hx.filter _) (hx.filter _) hlt hgt
  refine ⟨below, above, ?_, ?_, hlt, hgt⟩
  · refine eq_of_sorted hx (by simpa using haround none) fun x => ?_
    rw [List.mem_append, hsides]
  · refine eq_of_sorted hy (haround new) fun x => ?_
    rw [hmem, hsides, List.mem_append, List.mem_append]
    exact or_right_comm

/-! ## The files that are visited -/

/-- What is visited of an entry: the content of a file whose path is not too long. -/
def visited? (dir : Path) (name : List UInt8) : Node → Option (List UInt8)
  | .file content => if Storage.pathBound ≤ (dir.join ⟨name⟩).bytes.length then none else some content
  | .dir _ => none

theorem visited?_eq_some_iff {dir : Path} {name content : List UInt8} {node : Node} :
    visited? dir name node = some content ↔
      node = .file content ∧ (dir.join ⟨name⟩).bytes.length < Storage.pathBound := by
  cases node with
  | dir entries => simp [visited?]
  | file other =>
    rw [visited?, Node.file.injEq]
    split
    · rename_i hlong
      simp [Nat.not_lt.mpr hlong]
    · rename_i hshort
      rw [Option.some.injEq, and_iff_left (Nat.not_le.mp hshort)]

/-- What is visited of the entry of a name. -/
def visitedAt? (dir : Path) (entries : List (List UInt8 × Node)) (name : List UInt8) : Option (List UInt8) :=
  (entries.lookup name).bind (visited? dir name)

/-- The files of a directory that are visited: their names and contents, in the order of the names. -/
def visits (dir : Path) (entries : List (List UInt8 × Node)) : List (List UInt8 × List UInt8) :=
  (Dataset.inNameOrder (entries.map (·.1))).filterMap fun name =>
    (visitedAt? dir entries name).map (name, ·)

/-- In a listing, looking a name up finds the entry of that name. -/
theorem IsListing.lookup_eq_some_iff {entries : List (List UInt8 × Node)} (h : IsListing entries) {name : List UInt8}
    {node : Node} : entries.lookup name = some node ↔ (name, node) ∈ entries := by
  rw [List.lookup_eq_some_iff]
  constructor
  · rintro ⟨before, after, rfl, _⟩
    exact List.mem_append_right _ List.mem_cons_self
  · intro hmem
    obtain ⟨before, after, rfl⟩ := List.append_of_mem hmem
    refine ⟨before, after, rfl, fun entry hentry => ?_⟩
    have hnodup := h.nodup
    rw [List.map_append, List.map_cons] at hnodup
    have hdiffer := (List.nodup_append.mp hnodup).2.2 entry.1 (List.mem_map_of_mem hentry) name List.mem_cons_self
    simpa using Ne.symm hdiffer

/-- **The files that are visited** are the files with paths that are not too long. -/
theorem mem_visits_iff {dir : Path} {entries : List (List UInt8 × Node)} (h : IsListing entries)
    {name content : List UInt8} :
    (name, content) ∈ visits dir entries ↔
      (name, Node.file content) ∈ entries ∧ (dir.join ⟨name⟩).bytes.length < Storage.pathBound := by
  have hcontent : visitedAt? dir entries name = some content ↔
      (name, Node.file content) ∈ entries ∧ (dir.join ⟨name⟩).bytes.length < Storage.pathBound := by
    rw [visitedAt?, Option.bind_eq_some_iff]
    constructor
    · rintro ⟨node, hnode, hvisited⟩
      obtain ⟨rfl, hshort⟩ := visited?_eq_some_iff.mp hvisited
      exact ⟨h.lookup_eq_some_iff.mp hnode, hshort⟩
    · rintro ⟨hentry, hshort⟩
      exact ⟨_, h.lookup_eq_some_iff.mpr hentry, visited?_eq_some_iff.mpr ⟨rfl, hshort⟩⟩
  rw [← hcontent, visits, List.mem_filterMap]
  constructor
  · rintro ⟨other, _, hother⟩
    obtain ⟨same, hsame, heq⟩ := Option.map_eq_some_iff.mp hother
    obtain ⟨rfl, rfl⟩ := Prod.mk.inj heq
    exact hsame
  · intro hsome
    refine ⟨name, ?_, by rw [hsome, Option.map_some]⟩
    rw [(perm_inNameOrder _).mem_iff]
    exact List.mem_map_of_mem (hcontent.mp hsome).1

/-- **Files are visited in the order of their names.** -/
theorem sorted_visits (dir : Path) {entries : List (List UInt8 × Node)} (h : IsListing entries) :
    SortedByName (visits dir entries) := by
  refine List.pairwise_filterMap.mpr ((pairwise_inNameOrder h.nodup).imp ?_)
  intro a b hab x hx y hy
  obtain ⟨_, _, rfl⟩ := Option.map_eq_some_iff.mp hx
  obtain ⟨_, _, rfl⟩ := Option.map_eq_some_iff.mp hy
  exact hab

/-! ## One entry more -/

/-- Entries without one of them are a listing as well, and its name is none of theirs. -/
theorem IsListing.of_perm_cons {entries others : List (List UInt8 × Node)} {name : List UInt8} {node : Node}
    (h : IsListing others) (hperm : others.Perm ((name, node) :: entries)) :
    IsListing entries ∧ name ∉ entries.map (·.1) := by
  have hnodup := (hperm.map (·.1)).nodup_iff.mp h.nodup
  rw [List.map_cons, List.nodup_cons] at hnodup
  refine ⟨⟨fun entry hentry => ?_, hnodup.2⟩, hnodup.1⟩
  exact h.isName entry (hperm.mem_iff.mpr (List.mem_cons_of_mem _ hentry))

/-- What is visited with one entry more. -/
theorem mem_visits_insert_iff {dir : Path} {entries others : List (List UInt8 × Node)} {name : List UInt8}
    {node : Node} (h : IsListing others) (hperm : others.Perm ((name, node) :: entries))
    (file : List UInt8 × List UInt8) :
    file ∈ visits dir others ↔
      file ∈ visits dir entries ∨ file ∈ ((visited? dir name node).map (name, ·)).toList := by
  obtain ⟨other, content⟩ := file
  obtain ⟨hentries, _⟩ := h.of_perm_cons hperm
  have hnew : (other, content) ∈ ((visited? dir name node).map (name, ·)).toList ↔
      other = name ∧ node = .file content ∧ (dir.join ⟨name⟩).bytes.length < Storage.pathBound := by
    rw [Option.mem_toList, Option.map_eq_some_iff, ← visited?_eq_some_iff]
    constructor
    · rintro ⟨same, hsame, heq⟩
      obtain ⟨rfl, rfl⟩ := Prod.mk.inj heq
      exact ⟨rfl, hsame⟩
    · rintro ⟨rfl, hsame⟩
      exact ⟨content, hsame, rfl⟩
  rw [hnew, mem_visits_iff h, mem_visits_iff hentries, hperm.mem_iff, List.mem_cons, Prod.mk.injEq]
  constructor
  · rintro ⟨⟨rfl, rfl⟩ | hold, hshort⟩
    · exact Or.inr ⟨rfl, rfl, hshort⟩
    · exact Or.inl ⟨hold, hshort⟩
  · rintro (⟨hold, hshort⟩ | ⟨rfl, rfl, hshort⟩)
    · exact ⟨Or.inr hold, hshort⟩
    · exact ⟨Or.inl ⟨rfl, rfl⟩, hshort⟩

/-- **One entry more is one visit more at most**, at the place of its name; all other visits stay. -/
theorem visits_insert (dir : Path) {entries others : List (List UInt8 × Node)} {name : List UInt8} {node : Node}
    (h : IsListing others) (hperm : others.Perm ((name, node) :: entries)) :
    ∃ below above, visits dir entries = below ++ above ∧
      visits dir others = below ++ ((visited? dir name node).map (name, ·)).toList ++ above ∧
      (∀ file ∈ below, file.1 < name) ∧ ∀ file ∈ above, name < file.1 := by
  obtain ⟨hentries, hnew⟩ := h.of_perm_cons hperm
  refine exists_sorted_insert (sorted_visits dir hentries) (sorted_visits dir h) ?_ (mem_visits_insert_iff h hperm)
  rintro ⟨other, content⟩ hfile rfl
  exact hnew (List.mem_map_of_mem ((mem_visits_iff hentries).mp hfile).1)

/-- The visit of a directory with one entry. -/
theorem visits_singleton {dir : Path} {name : List UInt8} {node : Node} (h : IsListing [(name, node)]) :
    visits dir [(name, node)] = ((visited? dir name node).map (name, ·)).toList := by
  obtain ⟨below, above, hnone, hone, _, _⟩ := visits_insert dir h (.refl _)
  have hnil : visits dir [] = [] := by simp [visits, Dataset.inNameOrder]
  rw [hnil] at hnone
  obtain ⟨rfl, rfl⟩ := List.append_eq_nil_iff.mp hnone.symm
  rw [hone, List.nil_append, List.append_nil]

/-! ## The visits of a run -/

variable {s : Storage} {dir : Path} {entries : List (List UInt8 × Node)}

/-- The path of an entry leads to a file exactly when the entry is visited. -/
theorem isFile_join (hdir : s.node dir = .ok (.dir entries)) {name : List UInt8} (h : IsName name) :
    s.isFile (dir.join ⟨name⟩) = (visitedAt? dir entries name).isSome := by
  unfold Storage.isFile visitedAt?
  rw [node_join hdir h]
  by_cases hlong : Storage.pathBound ≤ (dir.join ⟨name⟩).bytes.length
  · have hnone : ∀ node, visited? dir name node = none := by
      intro node
      cases node with
      | file content => exact if_pos hlong
      | dir others => rfl
    rw [if_pos hlong]
    cases entries.lookup name with
    | none => rfl
    | some node => rw [Option.bind_some, hnone]; rfl
  · rw [if_neg hlong]
    cases entries.lookup name with
    | none => rfl
    | some node =>
      cases node with
      | file content => rw [Option.bind_some, visited?, if_neg hlong]; rfl
      | dir others => rfl

/-- The paths of the files among the entries, in the order in which they are visited. -/
theorem filter_isFile_eq (hdir : s.node dir = .ok (.dir entries)) (h : IsListing entries) :
    ((Dataset.inNameOrder (entries.map (·.1))).map fun name => dir.join ⟨name⟩).filter s.isFile =
      (visits dir entries).map fun file => dir.join ⟨file.1⟩ := by
  have hnames : ∀ name ∈ Dataset.inNameOrder (entries.map (·.1)), IsName name := by
    intro name hname
    obtain ⟨entry, hentry, rfl⟩ := List.mem_map.mp ((perm_inNameOrder _).mem_iff.mp hname)
    exact h.isName entry hentry
  unfold visits
  generalize Dataset.inNameOrder (entries.map (·.1)) = names at hnames ⊢
  induction names with
  | nil => rfl
  | cons name rest ih =>
    have hrest := ih fun other hother => hnames other (List.mem_cons_of_mem _ hother)
    have hname := isFile_join hdir (hnames name List.mem_cons_self)
    rw [List.map_cons]
    cases hcontent : visitedAt? dir entries name with
    | none =>
      rw [hcontent, Option.isSome_none] at hname
      rw [List.filter_cons_of_neg (by simp [hname]), hrest,
        List.filterMap_cons_none (by rw [hcontent, Option.map_none])]
    | some content =>
      rw [hcontent, Option.isSome_some] at hname
      rw [List.filter_cons_of_pos hname, hrest, List.filterMap_cons_some (by rw [hcontent, Option.map_some]),
        List.map_cons]

/-- What is visited can be read. -/
theorem read_of_mem_visits (hdir : s.node dir = .ok (.dir entries)) (h : IsListing entries)
    {name content : List UInt8} (hfile : (name, content) ∈ visits dir entries) :
    s.read (dir.join ⟨name⟩) = .ok content := by
  obtain ⟨hmem, hshort⟩ := (mem_visits_iff h).mp hfile
  unfold Storage.read
  rw [node_join hdir (h.isName _ hmem), if_neg (Nat.not_le.mpr hshort), h.lookup_eq_some_iff.mpr hmem]

end LatencyReport
