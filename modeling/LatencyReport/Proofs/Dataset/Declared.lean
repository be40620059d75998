import LatencyReport.Proofs.Dataset.Bounds
import LatencyReport.Proofs.Records.Lookup
import Mathlib.Logic.Relation

/-!
# `Proofs.Dataset.Declared` — only declared columns count

A mechanism declares its phases, each of which has a column. **The row of a table is decided by the samples of these
columns** (`ofRecords_eq_of_samples`), and the samples of a column are those of the first column that has its name
(`samples?_eq_some_iff_firstAt`). So what else a table holds, and in which order, does not matter.

What can be done to the columns of a table without touching the samples that count comes down to three steps: a column of
another name, a second column of a name that was there before, and two neighbours in the other order. Each of them keeps
what is found under a declared name (`ColumnStep.lookup_eq`), and so do any number of them, done or undone
(`lookup_eq_of_steps`). A table that is read is full, so its columns are all that there is to it
(`IsFull.samples?_eq_lookup`).

## Contents

* `get?_ofRecords_eq_some_iff` — the value of a phase;
* `ofRecords_eq_of_samples` — tables that agree on the declared columns;
* `Records.namedColumns`, `IsFull.samples?_eq_lookup` — a table as a list of columns;
* `ColumnStep`, `lookup_eq_of_steps` — columns that do not count;
* `row_of_declared_columns` — the row of a table.
-/

namespace LatencyReport

namespace Row

variable {e : Experiment} {R S : Records} {phase : Phase}

/-- **The value of a phase** is the summary of the first column that has its name, in microseconds. -/
theorem get?_ofRecords_eq_some_iff {s : Summary} :
    (ofRecords e R).phases.get? phase = some s ↔
      phase ∈ e.label.phases ∧ ∃ i samples found, R.FirstAt phase.column i ∧
        R.rows.map (·[i]?) = samples.map some ∧ Summary.ofSamples? samples = some found ∧
        s = found.scaled nanosToMicros := by
  rw [get?_ofRecords]
  split
  · rename_i hmeasured
    rw [and_iff_right hmeasured]
    unfold summaryOf?
    constructor
    · intro h
      cases hsamples : R.samples? phase.column with
      | none =>
        rw [hsamples] at h
        cases h
      | some samples =>
        simp only [hsamples] at h
        obtain ⟨found, hfound, hs⟩ := Option.map_eq_some_iff.mp h
        obtain ⟨i, hi, hcells⟩ := Records.samples?_eq_some_iff_firstAt.mp hsamples
        exact ⟨i, samples, found, hi, hcells, hfound, hs.symm⟩
    · rintro ⟨i, samples, found, hi, hcells, hfound, rfl⟩
      have hsamples : R.samples? phase.column = some samples :=
        Records.samples?_eq_some_iff_firstAt.mpr ⟨i, hi, hcells⟩
      simp only [hsamples, hfound, Option.map_some]
  · rename_i hmeasured
    exact ⟨fun h => absurd h (by simp), fun h => absurd h.1 hmeasured⟩

/-- **Tables that agree on the declared columns have the same row.** -/
theorem ofRecords_eq_of_samples (h : ∀ phase ∈ e.label.phases, R.samples? phase.column = S.samples? phase.column) :
    ofRecords e R = ofRecords e S := by
  have hphase : ∀ phase, (if e.label.phases.contains phase then summaryOf? R phase else none) =
      if e.label.phases.contains phase then summaryOf? S phase else none := by
    intro phase
    split
    · rename_i hmeasured
      unfold summaryOf?
      rw [h phase (List.contains_iff_mem.mp hmeasured)]
    · rfl
  unfold ofRecords
  simp only [hphase]

end Row

/-! ## Columns that do not count -/

/-- A column: its name, and its samples from the first row on. -/
abbrev NamedColumn := String × List Float

/-- The columns of a table, in their order. -/
def Records.namedColumns (R : Records) : List NamedColumn :=
  R.columns.zipIdx.map fun column => (column.1, R.rows.filterMap (·[column.2]?))

/-- What is found under a name among columns, the first of which stands at `k`, is found at the place of the name. -/
theorem lookup_map_zipIdx {β : Type} (columns : List String) (k : Nat) (f : Nat → β) (name : String) :
    ((columns.zipIdx k).map fun column => (column.1, f column.2)).lookup name =
      (columns.findIdx? (· == name)).map fun i => f (k + i) := by
  induction columns generalizing k with
  | nil => rfl
  | cons column rest ih =>
    rw [List.zipIdx_cons, List.map_cons, List.lookup_cons, List.findIdx?_cons, Bool.beq_comm]
    cases column == name with
    | true => rfl
    | false =>
      simp only [ih, Bool.false_eq_true, if_false, Option.map_map]
      congr 1
      funext i
      rw [Function.comp_apply, Nat.add_assoc, Nat.add_comm 1]

/-- **In a full table, a name has the samples of the first column** that is found under it. -/
theorem Records.IsFull.samples?_eq_lookup {R : Records} (h : R.IsFull) (name : String) :
    R.samples? name = R.namedColumns.lookup name := by
  unfold namedColumns
  rw [lookup_map_zipIdx R.columns 0 (fun i => R.rows.filterMap (·[i]?)) name]
  simp only [Nat.zero_add]
  by_cases hname : name ∈ R.columns
  · obtain ⟨samples, hsamples, _⟩ := h.exists_samples hname
    obtain ⟨i, hi, _, hcells⟩ := samples?_eq_some_iff.mp hsamples
    unfold columnIndex? at hi
    rw [hsamples, hi, Option.map_some, hcells]
  · have hnone := columnIndex?_eq_none hname
    unfold columnIndex? at hnone
    rw [samples?_eq_none hname, hnone, Option.map_none]

/-- One step from columns to others with the same samples under the names that a mechanism declares. -/
inductive ColumnStep (label : Label) : List NamedColumn → List NamedColumn → Prop where
  /-- A column that is not declared, anywhere. -/
  | undeclared (front back : List NamedColumn) (column : NamedColumn)
      (h : ∀ phase ∈ label.phases, phase.column ≠ column.1) : ColumnStep label (front ++ back) (front ++ column :: back)
  /-- A column with the name of one that stands before it. -/
  | later (front back : List NamedColumn) (column : NamedColumn) (h : column.1 ∈ front.map (·.1)) :
      ColumnStep label (front ++ back) (front ++ column :: back)
  /-- Two neighbours of different names, in the other order. -/
  | swap (front back : List NamedColumn) (column other : NamedColumn) (h : column.1 ≠ other.1) :
      ColumnStep label (front ++ column :: other :: back) (front ++ other :: column :: back)

variable {label : Label} {before after : List NamedColumn} {phase : Phase}

/-- **A step keeps what is found under a declared name.** -/
theorem ColumnStep.lookup_eq (h : ColumnStep label before after) (hphase : phase ∈ label.phases) :
    before.lookup phase.column = after.lookup phase.column := by
  cases h with
  | undeclared front back column hother =>
    have hdiffer : (phase.column == column.1) = false := beq_eq_false_iff_ne.mpr (hother phase hphase)
    rw [List.lookup_append, List.lookup_append, List.lookup_cons, hdiffer]
  | later front back column hthere =>
    rw [List.lookup_append, List.lookup_append, List.lookup_cons]
    by_cases hname : phase.column = column.1
    · obtain ⟨first, hfirst, hsame⟩ := List.mem_map.mp hthere
      have hfound : (front.lookup phase.column).isSome = true :=
        List.lookup_isSome_iff.mpr ⟨first, hfirst, beq_iff_eq.mpr (hname.trans hsame.symm)⟩
      rw [Option.or_of_isSome hfound, Option.or_of_isSome hfound]
    · rw [beq_eq_false_iff_ne.mpr hname]
  | swap front back column other hdiffer =>
    rw [List.lookup_append, List.lookup_append]
    congr 1
    rw [List.lookup_cons, List.lookup_cons, List.lookup_cons, List.lookup_cons]
    -- only one of the two can have the name
    by_cases hcolumn : phase.column = column.1
    · rw [beq_iff_eq.mpr hcolumn, beq_eq_false_iff_ne.mpr (hcolumn ▸ hdiffer)]
    · rw [beq_eq_false_iff_ne.mpr hcolumn]

/-- Any number of steps, done or undone, keep it. -/
theorem lookup_eq_of_steps (h : Relation.EqvGen (ColumnStep label) before after) (hphase : phase ∈ label.phases) :
    before.lookup phase.column = after.lookup phase.column := by
  induction h with
  | rel _ _ hstep => exact hstep.lookup_eq hphase
  | refl _ => rfl
  | symm _ _ _ ih => exact ih.symm
  | trans _ _ _ _ _ ihfirst ihrest => exact ihfirst.trans ihrest

/-! ## The row of a table -/

/-- **The row of a table is decided by the columns that the mechanism declares.** A phase is in the row of a content that
    is accepted exactly when it is declared, its name is among the columns and there is a row; its value is the summary, in
    microseconds, of the first column that has the name. Any two tables with the same samples under all declared names
    have the same row. And so have any two contents whose columns differ by columns that are not declared, by further
    columns of a name, and by their order. -/
theorem row_of_declared_columns :
    (∀ (path : Path) (data : List UInt8) (R : Records), (Records.parse path data).records? = some R →
        ∀ (e : Experiment) (phase : Phase),
          (((Row.ofRecords e R).phases.get? phase).isSome = true ↔
              phase ∈ e.label.phases ∧ phase.column ∈ R.columns ∧ R.rows ≠ []) ∧
            ∀ s, (Row.ofRecords e R).phases.get? phase = some s ↔
              phase ∈ e.label.phases ∧ ∃ i samples found, R.FirstAt phase.column i ∧
                R.rows.map (·[i]?) = samples.map some ∧ Summary.ofSamples? samples = some found ∧
                s = found.scaled nanosToMicros) ∧
      (∀ (e : Experiment) (R S : Records),
        (∀ phase ∈ e.label.phases, R.samples? phase.column = S.samples? phase.column) →
          Row.ofRecords e R = Row.ofRecords e S) ∧
      ∀ (path other : Path) (data more : List UInt8) (R S : Records), (Records.parse path data).records? = some R →
        (Records.parse other more).records? = some S → ∀ e : Experiment,
          Relation.EqvGen (ColumnStep e.label) R.namedColumns S.namedColumns → Row.ofRecords e R = Row.ofRecords e S := by
  refine ⟨?_, fun e R S h => Row.ofRecords_eq_of_samples h, ?_⟩
  · intro path data R hR e phase
    exact ⟨isSome_get?_ofRecords (Records.isFull_of_parse hR) e phase, fun s => Row.get?_ofRecords_eq_some_iff⟩
  · intro path other data more R S hR hS e hsteps
    refine Row.ofRecords_eq_of_samples fun phase hphase => ?_
    rw [(Records.isFull_of_parse hR).samples?_eq_lookup, (Records.isFull_of_parse hS).samples?_eq_lookup]
    exact lookup_eq_of_steps hsteps hphase

/-- Two columns in the other order; and in front of them a column that is not declared, and one of them again behind
    them. -/
theorem row_of_declared_columns_rearranged :
    let e : Experiment := ⟨.mmapIo, 1⟩
    let memcpy := "memcpy_duration_nsec"
    let msync := "msync_duration_nsec"
    let R : Records := ⟨⟨[]⟩, [memcpy, msync], [[7.0, 2.0], [5.0, 3.0]]⟩
    let S : Records := ⟨⟨[]⟩, [msync, memcpy], [[2.0, 7.0], [3.0, 5.0]]⟩
    let T : Records := ⟨⟨[]⟩, ["rtt", msync, memcpy, msync], [[9.0, 2.0, 7.0, 1.0], [9.0, 3.0, 5.0, 1.0]]⟩
    Row.ofRecords e R = Row.ofRecords e S ∧ Row.ofRecords e R = Row.ofRecords e T ∧
      ((Row.ofRecords e T).phases.get? .msync).isSome = true ∧ ((Row.ofRecords e T).phases.get? .rtt).isSome = false := by
  intro e memcpy msync R S T
  obtain ⟨hphases, hsamples, hsteps⟩ := row_of_declared_columns
  have hR : (Records.parse ⟨[]⟩ (Utf8.encode
      "memcpy_duration_nsec\tmsync_duration_nsec\n7\t2\n5\t3\n".toList)).records? = some R := rfl
  have hT : (Records.parse ⟨[]⟩ (Utf8.encode
      "rtt\tmsync_duration_nsec\tmemcpy_duration_nsec\tmsync_duration_nsec\n9\t2\t7\t1\n9\t3\t5\t1\n".toList)).records?
        = some T := rfl
  have hfirst : R.samples? memcpy = S.samples? memcpy := by
    have hleft : R.samples? memcpy = some [7.0, 5.0] := rfl
    have hright : S.samples? memcpy = some [7.0, 5.0] := rfl
    rw [hleft, hright]
  have hsecond : R.samples? msync = S.samples? msync := by
    have hleft : R.samples? msync = some [2.0, 3.0] := rfl
    have hright : S.samples? msync = some [2.0, 3.0] := rfl
    rw [hleft, hright]
  have hagree : ∀ phase ∈ e.label.phases, R.samples? phase.column = S.samples? phase.column := by
    intro phase hphase
    rcases List.mem_pair.mp hphase with rfl | rfl
    · exact hfirst
    · exact hsecond
  let before : NamedColumn := ("rtt", [9.0, 9.0])
  let first : NamedColumn := (memcpy, [7.0, 5.0])
  let second : NamedColumn := (msync, [2.0, 3.0])
  let again : NamedColumn := (msync, [1.0, 1.0])
  have hswap : ColumnStep .mmapIo [first, second] [second, first] := .swap [] [] _ _ (by decide)
  have hbefore : ColumnStep .mmapIo [second, first] [before, second, first] := .undeclared [] _ _ (by decide)
  have hagain : ColumnStep .mmapIo [before, second, first] [before, second, first, again] :=
    .later [before, second, first] [] again (by decide)
  have hrow := hsteps ⟨[]⟩ ⟨[]⟩ _ _ R T hR hT e
    (((Relation.EqvGen.rel _ _ hswap).trans _ _ _ (.rel _ _ hbefore)).trans _ _ _ (.rel _ _ hagain))
  have hmsync := (hphases ⟨[]⟩ _ T hT e .msync).1.mpr ⟨by decide, by decide, List.cons_ne_nil _ _⟩
  have hrtt := mt (hphases ⟨[]⟩ _ T hT e .rtt).1.mp fun h => absurd h.1 (by decide)
  exact ⟨hsamples e R S hagree, hrow, hmsync, Bool.eq_false_iff.mpr hrtt⟩

end LatencyReport
