import LatencyReport.Proofs.Storage.Walk

/-!
# `Proofs.Storage.Route` — where a path leads as seen from a directory

The parts of a path, one after the other, do the same from every place: they lead **up some levels and then down along
names** (`Route`, `foldl_resolve_eq`). What they went down before they led up again is forgotten. So the place that a
relative path leads to as seen from a directory is told by the place of the directory and the route (`target_join`),
and whether it is inside that directory or another one is a question about the two (`within_seenFrom_append_iff`).

## Contents

* `Route`, `Route.step`, `Route.ofParts`, `Route.seenFrom` — what parts do, from every place;
* `foldl_resolve_eq` — parts resolved are their route;
* `target_join`, `target_join_of_isName`, `target_join_of_isAbsolute` — joined paths;
* `Within`, `within_seenFrom_append_iff` — places inside a directory.
-/

namespace LatencyReport

/-- Up some levels, and then down along names. -/
structure Route where
  up : Nat := 0
  down : Place := []
deriving DecidableEq, Repr

namespace Route

/-- The route with one more part. Two dots take back the last name, and lead further up if there is none. -/
def step (route : Route) (part : List UInt8) : Route :=
  if Path.isIdle part then route
  else if part = Path.up then
    if route.down = [] then { route with up := route.up + 1 } else { route with down := route.down.dropLast }
  else { route with down := route.down ++ [part] }

/-- A name at the end is a name to go down along. -/
theorem step_name (route : Route) {part : List UInt8} (hidle : Path.isIdle part = false) (hup : part ≠ Path.up) :
    route.step part = ⟨route.up, route.down ++ [part]⟩ := by
  rw [step, hidle, if_neg Bool.false_ne_true, if_neg hup]

/-- The route of parts. -/
def ofParts (parts : List (List UInt8)) : Route :=
  parts.foldl step {}

/-- The place that a route leads to from a place. From the root nothing leads up. -/
def seenFrom (route : Route) (place : Place) : Place :=
  place.take (place.length - route.up) ++ route.down

/-- A place is left by no level and no name. -/
@[simp] theorem seenFrom_nothing (place : Place) : ({} : Route).seenFrom place = place := by
  simp [Route.seenFrom]

/-- One more part of the route is one more part resolved. -/
theorem resolve_seenFrom (route : Route) (place : Place) (part : List UInt8) :
    Storage.resolve (route.seenFrom place) part = (route.step part).seenFrom place := by
  unfold Storage.resolve step
  by_cases hidle : Path.isIdle part = true
  · rw [if_pos hidle, if_pos hidle]
  · rw [if_neg hidle, if_neg hidle]
    by_cases hup : part = Path.up
    · rw [if_pos hup, if_pos hup]
      by_cases hdown : route.down = []
      · simp only [Route.seenFrom, hdown, if_true, List.append_nil, List.dropLast_eq_take, List.take_take, List.length_take]
        congr 1
        omega
      · rw [if_neg hdown]
        exact List.dropLast_append_of_ne_nil hdown
    · rw [if_neg hup, if_neg hup]
      exact List.append_assoc ..

end Route

/-- **Parts resolved, one after the other, are their route.** -/
theorem foldl_resolve_eq (place : Place) (parts : List (List UInt8)) :
    parts.foldl Storage.resolve place = (Route.ofParts parts).seenFrom place := by
  have hrun : ∀ (parts : List (List UInt8)) (route : Route),
      parts.foldl Storage.resolve (route.seenFrom place) = (parts.foldl Route.step route).seenFrom place := by
    intro parts
    induction parts with
    | nil => exact fun _ => rfl
    | cons part rest ih =>
      intro route
      rw [List.foldl_cons, List.foldl_cons, route.resolve_seenFrom]
      exact ih _
  have hnothing := hrun parts {}
  rwa [Route.seenFrom_nothing] at hnothing

namespace Storage

variable {dir name : Path}

/-- **A relative path seen from a directory** leads on from where the directory is. -/
theorem target_join (s : Storage) (hname : name.isAbsolute = false) :
    s.target (dir.join name) = (Route.ofParts name.parts).seenFrom (s.target dir) := by
  have hslash : (Path.slash == Path.slash) = true := rfl
  rw [← foldl_resolve_eq]
  unfold Path.join
  rw [hname, Bool.false_or]
  by_cases hdir : dir.bytes = []
  · -- the empty path leads to where relative paths start
    have hstart : s.target dir = s.start name := by
      have hparts : dir.parts = [[]] := by
        rw [Path.parts, hdir]
        rfl
      have habsolute : dir.isAbsolute = false := by
        rw [Path.isAbsolute, hdir]
        rfl
      rw [target, hparts, start, start, habsolute, hname]
      rfl
    rw [if_pos (List.isEmpty_iff.mpr hdir), hstart, target]
  · rw [if_neg (by rwa [List.isEmpty_iff])]
    have hstart : ∀ rest, s.start ⟨dir.bytes ++ rest⟩ = s.start dir := by
      intro rest
      obtain ⟨b, bytes, hbytes⟩ := List.exists_cons_of_ne_nil hdir
      simp only [start, Path.isAbsolute, hbytes, List.cons_append, List.head?_cons]
    by_cases hlast : dir.bytes.getLast? = some Path.slash
    · obtain ⟨init, hinit⟩ := List.getLast?_eq_some_iff.mp hlast
      have hdirParts : dir.parts = Text.splitWith (· == Path.slash) init ++ [[]] := by
        rw [Path.parts, hinit, Text.splitWith_append_mark (by exact hslash), Text.splitWith_nil]
      have hparts : Path.parts ⟨dir.bytes ++ name.bytes⟩ = Text.splitWith (· == Path.slash) init ++ name.parts := by
        rw [Path.parts, hinit, List.append_assoc, List.singleton_append,
          Text.splitWith_append_mark (by exact hslash), Path.parts]
      rw [if_pos (beq_iff_eq.mpr hlast), target, target, hstart, hparts, hdirParts, List.foldl_append, List.foldl_append]
      rfl
    · have hparts : Path.parts ⟨dir.bytes ++ Path.slash :: name.bytes⟩ = dir.parts ++ name.parts := by
        rw [Path.parts, Text.splitWith_append_mark (by exact hslash), Path.parts, Path.parts]
      rw [if_neg (by rwa [beq_iff_eq]), target, target, hstart, hparts, List.foldl_append]

/-- A name seen from a directory is an entry of the directory. -/
theorem target_join_of_isName (s : Storage) {name : List UInt8} (h : IsName name) :
    s.target (dir.join ⟨name⟩) = s.target dir ++ [name] := by
  have hroute : Route.ofParts [name] = ⟨0, [name]⟩ := by
    show Route.step {} name = _
    exact Route.step_name {} h.not_idle h.not_up
  rw [target_join s h.isAbsolute_eq, Path.parts, h.splitWith_eq, hroute, Route.seenFrom, Nat.sub_zero, List.take_length]

/-- A path from the root leads to where it leads, from whatever directory it is seen. -/
theorem target_join_of_isAbsolute (s : Storage) (hname : name.isAbsolute = true) :
    s.target (dir.join name) = (Route.ofParts name.parts).seenFrom [] := by
  rw [← foldl_resolve_eq, Path.join, hname, Bool.true_or, if_pos rfl, target, start, hname, if_pos rfl]

end Storage

/-! ## Places inside a directory -/

/-- A place is inside a directory: names follow the place of the directory. -/
def Within (dir place : Place) : Prop :=
  ∃ name rest, place = dir ++ name :: rest

/-- What is inside what follows a directory is inside what follows it when the directory stands before both. -/
theorem within_append_iff {front dir place : Place} : Within (front ++ dir) (front ++ place) ↔ Within dir place := by
  unfold Within
  simp only [List.append_assoc, List.append_cancel_left_eq]

theorem within_nil_iff {place : Place} : Within [] place ↔ place ≠ [] := by
  unfold Within
  rw [List.ne_nil_iff_exists_cons]
  rfl

/-- **A route that starts some levels below a directory** leads to a place inside the directory if it leads no further up
    than there, or if it comes back down along the names that it left. -/
theorem within_seenFrom_append_iff {route : Route} (hdown : route.down ≠ []) (dir below : Place) :
    Within dir (route.seenFrom (dir ++ below)) ↔
      route.up ≤ below.length ∨ Within (dir.drop (dir.length + below.length - route.up)) route.down := by
  unfold Route.seenFrom
  rw [List.length_append]
  by_cases hinside : route.up ≤ below.length
  · -- some of what is below stays, and then the route goes down
    have hlevels : dir.length + below.length - route.up = dir.length + (below.length - route.up) := by omega
    have hwithin := @within_append_iff dir [] (below.take (below.length - route.up) ++ route.down)
    rw [List.append_nil, within_nil_iff] at hwithin
    rw [hlevels, List.take_length_add_append, List.append_assoc, hwithin]
    exact iff_of_true (List.append_ne_nil_of_right_ne_nil _ hdown) (Or.inl hinside)
  · -- the directory is what the route does not leave of it, and what it leaves
    have hfits : dir.length + below.length - route.up ≤ dir.length := by omega
    have hleaves := @within_append_iff (dir.take (dir.length + below.length - route.up))
      (dir.drop (dir.length + below.length - route.up)) route.down
    rw [List.take_append_drop] at hleaves
    rw [List.take_append_of_le_length hfits, hleaves, or_iff_right hinside]

end LatencyReport
