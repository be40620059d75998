import LatencyReport.Proofs.Binary64.Between
import LatencyReport.Proofs.Dataset.Bounds

/-!
# `Proofs.Dataset.WholeMicros` — whole microseconds are exact

Nanoseconds become microseconds by a product with a thousandth, and a thousandth is not a number: the factor is greater
by `96 / 2 ^ 62` of it (`thousand_mul_nearThousandth`). Of a whole number of microseconds that is less than a fifth of its last
digit, wherever that digit stands, and so **the product is rounded to the whole number** (`rounded_micros`). Nothing of the
factor's error is left, for every whole number up to `2 ^ 53` nanoseconds.

## Contents

* `nearThousandth`, `thousand_mul_nearThousandth` — the factor;
* `rounded_micros`, `mul_nanosToMicros_of_beq` — products with it;
* `Records.IsFull.samples_spec`, `Row.exists_get?_ofRecords` — a column in a row;
* `whole_micros_exact` — summaries, and the columns of every content.
-/

namespace LatencyReport

open Binary64

/-! ## The factor -/

/-- The rational that microseconds in a nanosecond are rounded to. -/
def nearThousandth : ℚ :=
  0x10624DD2F1A9FC * 2 ^ (-62 : ℤ)

/-- The factor is too great by a part that is small beside the last of 53 digits. -/
theorem thousand_mul_nearThousandth : 1000 * nearThousandth = 1 + 96 / 2 ^ 62 := by
  unfold nearThousandth
  norm_num

/-- **A whole number of microseconds is what its nanoseconds are rounded to.** -/
theorem rounded_micros {k : ℕ} (hk : 1000 * k ≤ 2 ^ 53) : rounded ((1000 * k : ℕ) * nearThousandth) = k := by
  have hexact : ((1000 * k : ℕ) : ℚ) * nearThousandth = k + k * (96 / 2 ^ 62) := by
    rw [Nat.cast_mul, Nat.cast_ofNat, mul_right_comm, thousand_mul_nearThousandth]
    ring
  have hdigits : (k : ℚ) < 2 ^ ulpExponent k * 2 ^ 53 := by
    have hlt := abs_lt_of_ulpExponent (k : ℚ)
    rw [Nat.abs_cast, zpow_add₀ two_ne_zero] at hlt
    exact_mod_cast hlt
  have hpos : (0 : ℚ) < 2 ^ ulpExponent k := by positivity
  rw [hexact]
  apply rounded_eq_of_near (representable_natCast_of_le (by omega)) (Nat.cast_nonneg k)
  · exact le_add_of_nonneg_right (by positivity)
  · rw [add_sub_cancel_left]
    calc (k : ℚ) * (96 / 2 ^ 62) < 2 ^ ulpExponent k * 2 ^ 53 * (96 / 2 ^ 62) := by gcongr
      _ < 2 ^ ulpExponent k / 2 := by linarith

/-- **Nanoseconds of a whole number of microseconds become that number.** -/
theorem mul_nanosToMicros_of_beq {x : Float} {k : ℕ} (hk : 1000 * k ≤ 2 ^ 53)
    (h : (x == Float.ofNat (1000 * k)) = true) : (x * nanosToMicros == Float.ofNat k) = true := by
  have hnanos : value? x = some ((1000 * k : ℕ) : ℚ) := value?_of_beq (value?_ofNat_of_le hk) h
  have hmicros : value? (Float.ofNat k) = some (k : ℚ) := value?_ofNat_of_le (by omega)
  have hround : Rounds (x * nanosToMicros) ((1000 * k : ℕ) * nearThousandth) :=
    rounds_mul hnanos Summary.value?_nanosToMicros
  have hvalue := hround.value (by rw [rounded_micros hk]; exact abs_natCast_lt_limit (by omega))
  rw [rounded_micros hk] at hvalue
  exact (beq_iff hvalue hmicros).mpr rfl

/-! ## Rows -/

/-- A column that has samples is one of the columns, and has a duration for every row. -/
theorem Records.IsFull.samples_spec {R : Records} (hfull : R.IsFull) {column : String} {samples : List Float}
    (hsamples : R.samples? column = some samples) :
    column ∈ R.columns ∧ samples.length = R.rows.length ∧ ∀ x ∈ samples, IsDuration x := by
  have hcolumn : column ∈ R.columns := by
    by_contra hno
    rw [Records.samples?_eq_none hno] at hsamples
    cases hsamples
  obtain ⟨found, hfound, hspec⟩ := hfull.exists_samples hcolumn
  rw [hsamples, Option.some.injEq] at hfound
  subst hfound
  exact ⟨hcolumn, hspec⟩

/-- **A column in which a sample stands is in the row**, if the mechanism measures the phase. -/
theorem Row.exists_get?_ofRecords {R : Records} (hfull : R.IsFull) {e : Experiment} {phase : Phase}
    (hmeasured : phase ∈ e.label.phases) {samples : List Float} (hsamples : R.samples? phase.column = some samples)
    (hne : samples ≠ []) : ∃ s, (Row.ofRecords e R).phases.get? phase = some s ∧ s.BoundedBy samples := by
  obtain ⟨hcolumn, hlength, -⟩ := hfull.samples_spec hsamples
  have hrows : R.rows ≠ [] := by
    intro hnil
    rw [hnil, List.length_nil, List.length_eq_zero_iff] at hlength
    exact hne hlength
  obtain ⟨found, s, hfound, hs, hbound⟩ := Row.exists_summaryOf? hfull hcolumn hrows
  rw [hsamples, Option.some.injEq] at hfound
  subst hfound
  refine ⟨s, ?_, hbound⟩
  rw [Row.get?_ofRecords, if_pos hmeasured, hs]

/-- **Whole microseconds are exact**, although the factor is not a thousandth. For every whole number of microseconds up to
    `2 ^ 53` nanoseconds, a number of a summary that equals its nanoseconds equals it in microseconds. So for every
    content that is accepted and every column that is measured, if the greatest sample equals such nanoseconds, the row
    has a summary of the column, and its maximum equals the microseconds. -/
theorem whole_micros_exact :
    value? nanosToMicros ≠ some (1 / 1000) ∧
      ∀ k : ℕ, 1000 * k ≤ 2 ^ 53 →
        (∀ (s : Summary) (statistic : Statistic), (s.get statistic == Float.ofNat (1000 * k)) = true →
          ((s.scaled nanosToMicros).get statistic == Float.ofNat k) = true) ∧
        ∀ (path : Path) (data : List UInt8) (R : Records), (Records.parse path data).records? = some R →
          ∀ (e : Experiment) (phase : Phase), phase ∈ e.label.phases →
            ∀ samples, R.samples? phase.column = some samples →
              ∀ greatest ∈ samples, (∀ x ∈ samples, x ≤ greatest) → (greatest == Float.ofNat (1000 * k)) = true →
                ∃ s, (Row.ofRecords e R).phases.get? phase = some s ∧ (s.max == Float.ofNat k) = true := by
  refine ⟨?_, fun k hk => ⟨?_, ?_⟩⟩
  · rw [Summary.value?_nanosToMicros, ne_eq, Option.some.injEq]
    norm_num
  · intro s statistic h
    rw [Summary.get_scaled]
    exact mul_nanosToMicros_of_beq hk h
  · intro path data R hR e phase hmeasured samples hsamples greatest hgreatest hall hnanos
    have hfull : R.IsFull := Records.isFull_of_parse hR
    obtain ⟨-, -, hdur⟩ := hfull.samples_spec hsamples
    obtain ⟨s, hs, hbound⟩ := Row.exists_get?_ofRecords hfull hmeasured hsamples (List.ne_nil_of_mem hgreatest)
    obtain ⟨other, hother, hle, hmax⟩ := hbound.max_eq
    -- two samples that no sample is greater than are one number
    have hvalue : value? greatest = some ((1000 * k : ℕ) : ℚ) := value?_of_beq (value?_ofNat_of_le hk) hnanos
    obtain ⟨v, hv, _⟩ := isDuration_iff.mp (hdur other hother)
    have hsame : v = (1000 * k : ℕ) :=
      le_antisymm ((le_iff hv hvalue).mp (hall other hother)) ((le_iff hvalue hv).mp (hle greatest hgreatest))
    refine ⟨s, hs, ?_⟩
    rw [hmax]
    exact mul_nanosToMicros_of_beq hk ((beq_iff hv (value?_ofNat_of_le hk)).mpr hsame)

/-- A column whose greatest sample is seven microseconds. -/
theorem whole_micros_exact_of_seven :
    let R : Records := ⟨⟨[]⟩, ["write_duration_nsec"], [[7000.0], [2.5]]⟩
    1000 * 7 ≤ 2 ^ 53 ∧ (∀ x ∈ [7000.0, 2.5], x ≤ (7000.0 : Float)) ∧
      (((⟨2.5, 2.5, 7000.0⟩ : Summary).scaled nanosToMicros).max == Float.ofNat 7) = true ∧
      ∃ s, (Row.ofRecords ⟨.syncIo, 1⟩ R).phases.get? .write = some s ∧ (s.max == Float.ofNat 7) = true := by
  intro R
  have hk : 1000 * 7 ≤ 2 ^ 53 := by norm_num
  obtain ⟨-, hall⟩ := whole_micros_exact
  obtain ⟨hscaled, hrows⟩ := hall 7 hk
  have hR : (Records.parse ⟨[]⟩ (Utf8.encode "write_duration_nsec\n7000\n2.5\n".toList)).records? = some R := rfl
  have hsamples : R.samples? Phase.write.column = some [7000.0, 2.5] := rfl
  have hgreatest : ∀ x ∈ [7000.0, 2.5], x ≤ (7000.0 : Float) := by decide
  have hnanos : ((7000.0 : Float) == Float.ofNat (1000 * 7)) = true := by decide +kernel
  exact ⟨hk, hgreatest, hscaled ⟨2.5, 2.5, 7000.0⟩ .max hnanos,
    hrows ⟨[]⟩ _ R hR ⟨.syncIo, 1⟩ .write (by decide) _ hsamples 7000.0 List.mem_cons_self hgreatest hnanos⟩

end LatencyReport
