import LatencyReport.Proofs.Storage.Entry

/-!
# `Proofs.Storage.Place` — what stands where in a tree

A node put at a place stands there, and **all else stands where it stood** (`kind_find?_put`). What stands at a place
is a file with its content or a directory, whatever is in it (`Kind`): then a directory is the same before and after
something was put into it, and a change at one place is a change at no other.

A tree whose directories all are listings stays one (`IsTree.put`).

## Contents

* `Place`, `Kind` — places, and what can stand there;
* `lookup_setEntry`, `IsListing.setEntry` — one entry set among others;
* `IsLeaf`, `kind_find?_put`, `put_of_find?` — one node put into a tree;
* `Node.IsTree`, `IsTree.put` — trees.
-/

namespace LatencyReport

/-- A place in a tree: the names that lead to it. -/
abbrev Place := List (List UInt8)

/-- What can stand at a place: a file with its content, or a directory, whatever is in it. -/
inductive Kind where
  | file (content : List UInt8)
  | dir
deriving DecidableEq, Repr

namespace Node

def kind : Node → Kind
  | .file content => .file content
  | .dir _ => .dir

/-! ## Entries -/

theorem lookup_cons_eq (name : List UInt8) (entry : List UInt8 × Node) (rest : List (List UInt8 × Node)) :
    (entry :: rest).lookup name = if name = entry.1 then some entry.2 else rest.lookup name := by
  rw [List.lookup_cons]
  by_cases h : name = entry.1
  · rw [beq_iff_eq.mpr h, if_pos h]
  · rw [beq_eq_false_iff_ne.mpr h, if_neg h]

theorem lookup_setEntry (name : List UInt8) (node : Node) (entries : List (List UInt8 × Node)) (other : List UInt8) :
    (setEntry name node entries).lookup other = if other = name then some node else entries.lookup other := by
  induction entries with
  | nil => exact lookup_cons_eq other (name, node) []
  | cons entry rest ih =>
    obtain ⟨first, old⟩ := entry
    rw [setEntry]
    by_cases hfirst : first = name
    · rw [if_pos hfirst, lookup_cons_eq, lookup_cons_eq, hfirst]
      split <;> rfl
    · rw [if_neg hfirst, lookup_cons_eq, lookup_cons_eq, ih]
      by_cases h : other = first
      · rw [if_pos h, if_neg (h ▸ hfirst), if_pos h]
      · rw [if_neg h, if_neg h]

theorem setEntry_of_lookup {name : List UInt8} {node : Node} {entries : List (List UInt8 × Node)}
    (h : entries.lookup name = some node) : setEntry name node entries = entries := by
  induction entries with
  | nil => cases h
  | cons entry rest ih =>
    obtain ⟨first, old⟩ := entry
    rw [lookup_cons_eq] at h
    rw [setEntry]
    by_cases hfirst : first = name
    · rw [if_pos hfirst.symm, Option.some.injEq] at h
      rw [if_pos hfirst, ← h, hfirst]
    · rw [if_neg (Ne.symm hfirst)] at h
      rw [if_neg hfirst, ih h]

theorem map_setEntry (name : List UInt8) (node : Node) (entries : List (List UInt8 × Node)) :
    (setEntry name node entries).map (·.1) =
      if name ∈ entries.map (·.1) then entries.map (·.1) else entries.map (·.1) ++ [name] := by
  induction entries with
  | nil => rfl
  | cons entry rest ih =>
    obtain ⟨first, old⟩ := entry
    rw [setEntry]
    by_cases hfirst : first = name
    · simp [hfirst]
    · rw [if_neg hfirst, List.map_cons, ih, List.map_cons]
      by_cases hmem : name ∈ rest.map (·.1)
      · rw [if_pos hmem, if_pos (List.mem_cons_of_mem _ hmem)]
      · rw [if_neg hmem, if_neg]
        · rfl
        · rintro (_ | ⟨_, hmem'⟩)
          · exact hfirst rfl
          · exact hmem hmem'

end Node

theorem IsListing.setEntry {entries : List (List UInt8 × Node)} (h : IsListing entries) {name : List UInt8}
    (hname : IsName name) (node : Node) : IsListing (Node.setEntry name node entries) := by
  have hkeys := Node.map_setEntry name node entries
  have hall : ∀ key ∈ entries.map (·.1), IsName key := by
    intro key hkey
    obtain ⟨entry, hentry, rfl⟩ := List.mem_map.mp hkey
    exact h.isName entry hentry
  by_cases hmem : name ∈ entries.map (·.1)
  · rw [if_pos hmem] at hkeys
    refine ⟨fun entry hentry => hall entry.1 (hkeys ▸ List.mem_map_of_mem hentry), ?_⟩
    rw [hkeys]
    exact h.nodup
  · rw [if_neg hmem] at hkeys
    constructor
    · intro entry hentry
      have hkey : entry.1 ∈ entries.map (·.1) ++ [name] := hkeys ▸ List.mem_map_of_mem hentry
      rcases List.mem_append.mp hkey with hold | hnew
      · exact hall entry.1 hold
      · rw [List.mem_singleton.mp hnew]
        exact hname
    · rw [hkeys, List.nodup_append]
      refine ⟨h.nodup, by simp, ?_⟩
      rintro key hkey other hother rfl
      rw [List.mem_singleton.mp hother] at hkey
      exact hmem hkey

namespace Node

/-! ## Putting -/

/-- A node that holds no other. -/
def IsLeaf (node : Node) : Prop :=
  ∀ name rest, node.find? (name :: rest) = none

theorem isLeaf_file (content : List UInt8) : IsLeaf (.file content) :=
  fun _ _ => rfl

theorem isLeaf_dir_nil : IsLeaf (.dir []) :=
  fun _ _ => rfl

/-- What stands at a place stands in a directory. -/
theorem find?_of_append {node found : Node} {place : Place} {name : List UInt8} {rest : Place}
    (h : node.find? (place ++ name :: rest) = some found) : ∃ entries, node.find? place = some (.dir entries) := by
  induction place generalizing node with
  | nil =>
    cases node with
    | file content => cases h
    | dir entries => exact ⟨entries, rfl⟩
  | cons first place ih =>
    cases node with
    | file content => cases h
    | dir entries =>
      rw [List.cons_append, find?] at h
      rw [find?]
      cases hfirst : entries.lookup first with
      | none =>
        rw [hfirst] at h
        cases h
      | some child =>
        rw [hfirst] at h
        exact ih h

/-- **What is put stands at its place, and all else stands where it stood.** -/
theorem kind_find?_put {node new : Node} {place : Place} {entries : List (List UInt8 × Node)}
    (hplace : node.find? place = some (.dir entries)) {name : List UInt8}
    (hfree : ∀ others, node.find? (place ++ [name]) ≠ some (.dir others)) (hnew : new.IsLeaf) (p : Place) :
    ((node.put (place ++ [name]) new).find? p).map kind =
      if p = place ++ [name] then some new.kind else (node.find? p).map kind := by
  induction place generalizing node p with
  | nil =>
    rw [find?, Option.some.injEq] at hplace
    subst hplace
    cases p with
    | nil => rfl
    | cons first rest =>
      rw [List.nil_append, put, put, find?, lookup_setEntry]
      by_cases hfirst : first = name
      · rw [if_pos hfirst]
        cases rest with
        | nil => rw [find?, hfirst, if_pos rfl]; rfl
        | cons second rest =>
          have hnone : (dir entries).find? (first :: second :: rest) = none := by
            by_contra hsome
            obtain ⟨found, hfound⟩ := Option.ne_none_iff_exists'.mp hsome
            obtain ⟨others, hothers⟩ := @find?_of_append _ _ [first] _ _ hfound
            exact hfree others (hfirst ▸ hothers)
          show (new.find? (second :: rest)).map kind = _
          rw [hnone, hnew second rest, if_neg (by simp)]
      · rw [if_neg hfirst, find?, if_neg (by simp [hfirst])]
  | cons above place ih =>
    cases node with
    | file content => cases hplace
    | dir others =>
      rw [find?] at hplace
      cases hchild : others.lookup above with
      | none =>
        rw [hchild] at hplace
        cases hplace
      | some child =>
        rw [hchild] at hplace
        have hfree' : ∀ entries, child.find? (place ++ [name]) ≠ some (dir entries) := by
          intro entries heq
          refine hfree entries ?_
          rw [List.cons_append, find?, hchild]
          exact heq
        rw [List.cons_append, put, hchild, Option.getD_some]
        cases p with
        | nil => rfl
        | cons first rest =>
          rw [find?, find?, lookup_setEntry]
          by_cases hfirst : first = above
          · rw [if_pos hfirst, hfirst, hchild]
            simp only [ih hplace hfree' rest, List.cons.injEq, true_and]
          · rw [if_neg hfirst, if_neg (by simp [hfirst])]

/-- Putting what stands at a place changes nothing. -/
theorem put_of_find? {node found : Node} {place : Place} (h : node.find? place = some found) :
    node.put place found = node := by
  induction place generalizing node with
  | nil =>
    rw [find?, Option.some.injEq] at h
    rw [put, h]
  | cons first place ih =>
    cases node with
    | file content => rfl
    | dir entries =>
      rw [find?] at h
      cases hfirst : entries.lookup first with
      | none =>
        rw [hfirst] at h
        cases h
      | some child =>
        rw [hfirst] at h
        rw [put, hfirst, Option.getD_some, ih h, setEntry_of_lookup hfirst]

/-! ## Trees -/

/-- A node whose directories all are listings. -/
def IsTree (node : Node) : Prop :=
  ∀ place entries, node.find? place = some (.dir entries) → IsListing entries

theorem isTree_dir_iff {entries : List (List UInt8 × Node)} :
    IsTree (.dir entries) ↔
      IsListing entries ∧ ∀ name child, entries.lookup name = some child → child.IsTree := by
  constructor
  · intro h
    refine ⟨h [] entries rfl, fun name child hchild place others hothers => h (name :: place) others ?_⟩
    rw [find?, hchild]
    exact hothers
  · rintro ⟨hlisting, hchildren⟩ place others hothers
    cases place with
    | nil =>
      rw [find?, Option.some.injEq, dir.injEq] at hothers
      exact hothers ▸ hlisting
    | cons name place =>
      rw [find?] at hothers
      cases hchild : entries.lookup name with
      | none =>
        rw [hchild] at hothers
        cases hothers
      | some child =>
        rw [hchild] at hothers
        exact hchildren name child hchild place others hothers

theorem isTree_file (content : List UInt8) : IsTree (.file content) := by
  intro place entries h
  cases place <;> cases h

theorem isTree_dir_nil : IsTree (.dir []) :=
  isTree_dir_iff.mpr ⟨⟨by simp, by simp⟩, fun name child h => by cases h⟩

theorem isTree_dir_singleton {name : List UInt8} {node : Node} (hname : IsName name) (h : node.IsTree) :
    IsTree (.dir [(name, node)]) := by
  refine isTree_dir_iff.mpr ⟨⟨by simpa using hname, by simp⟩, fun other child hchild => ?_⟩
  rw [lookup_cons_eq] at hchild
  split at hchild
  · exact Option.some.inj hchild ▸ h
  · cases hchild

/-- **A tree stays a tree** when a tree is put into one of its directories. -/
theorem IsTree.put {node new : Node} {place : Place} {entries : List (List UInt8 × Node)} (h : node.IsTree)
    (hplace : node.find? place = some (.dir entries)) {name : List UInt8} (hname : IsName name) (hnew : new.IsTree) :
    (node.put (place ++ [name]) new).IsTree := by
  have hset : ∀ {others : List (List UInt8 × Node)} {key : List UInt8} {child : Node}, IsTree (dir others) →
      IsName key → child.IsTree → IsTree (dir (setEntry key child others)) := by
    intro others key child hothers hkey hchild
    obtain ⟨hlisting, hchildren⟩ := isTree_dir_iff.mp hothers
    refine isTree_dir_iff.mpr ⟨hlisting.setEntry hkey child, fun other node hnode => ?_⟩
    rw [lookup_setEntry] at hnode
    split at hnode
    · exact Option.some.inj hnode ▸ hchild
    · exact hchildren other node hnode
  induction place generalizing node with
  | nil =>
    rw [find?, Option.some.injEq] at hplace
    subst hplace
    exact hset h hname hnew
  | cons above place ih =>
    cases node with
    | file content => cases hplace
    | dir others =>
      rw [find?] at hplace
      cases hchild : others.lookup above with
      | none =>
        rw [hchild] at hplace
        cases hplace
      | some child =>
        rw [hchild] at hplace
        obtain ⟨hlisting, hchildren⟩ := isTree_dir_iff.mp h
        obtain ⟨before, after, hothers, _⟩ := List.lookup_eq_some_iff.mp hchild
        have habove : IsName above := hlisting.isName (above, child) (by rw [hothers]; simp)
        rw [List.cons_append, Node.put, hchild, Option.getD_some]
        exact hset h habove (ih (hchildren above child hchild) hplace)

end Node

end LatencyReport
