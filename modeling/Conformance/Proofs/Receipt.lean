import Mathlib.Algebra.Order.BigOperators.Group.List
import Mathlib.Algebra.Order.Group.Int
import Mathlib.Algebra.Ring.Int.Defs
import Conformance.Receipt

namespace Conformance.Receipt

variable {rs rs' : List Receipt}

/-- The gas of some receipts, as a number that no word bounds. -/
def gasSum (rs : List Receipt) : Int := (rs.map (·.gasUsed.toInt)).sum

theorem gasSum_cons (r : Receipt) (rs : List Receipt) :
    gasSum (r :: rs) = r.gasUsed.toInt + gasSum rs := by
  rw [gasSum, List.map_cons, List.sum_cons, gasSum]

theorem nonneg_of_mem_gas (h : ∀ r ∈ rs, 0 ≤ r.gasUsed) :
    ∀ n ∈ rs.map (·.gasUsed.toInt), 0 ≤ n :=
  List.forall_mem_map.mpr fun r hr => Int64.le_iff_toInt_le.mp (h r hr)

theorem gasSum_nonneg (h : ∀ r ∈ rs, 0 ≤ r.gasUsed) : 0 ≤ gasSum rs :=
  List.sum_nonneg (nonneg_of_mem_gas h)

theorem gasSum_of_perm (h : rs.Perm rs') : gasSum rs = gasSum rs' :=
  (h.map _).sum_eq

/-- Receipts that are left out took some gas or none. -/
theorem gasSum_le_of_subperm (hrs : ∀ r ∈ rs, 0 ≤ r.gasUsed) (h : rs'.Subperm rs) :
    gasSum rs' ≤ gasSum rs := by
  obtain ⟨kept, hperm, hkept⟩ := h
  rw [← gasSum_of_perm hperm]
  exact (hkept.map _).sum_le_sum (nonneg_of_mem_gas hrs)

/-- Of what is not negative only the upper end of the range takes something away. -/
theorem toInt_clamped {n : Int} (hn : 0 ≤ n) :
    (Int64.ofInt (max (-9223372036854775808) (min 9223372036854775807 n))).toInt =
      min 9223372036854775807 n := by
  have hmax : max (-9223372036854775808) (min 9223372036854775807 n) =
      min 9223372036854775807 n := by lia
  rw [hmax, Int64.toInt_ofInt_of_le (by lia) (by lia)]

/-- Once the sum has stopped at the end of the range it stays there, since nothing is subtracted. -/
theorem toInt_foldl_gas (hrs : ∀ r ∈ rs, 0 ≤ r.gasUsed) {total : Int64} (htotal : 0 ≤ total.toInt) :
    (rs.foldl (fun total r =>
      Int64.ofInt (max (-9223372036854775808)
        (min 9223372036854775807 (total.toInt + r.gasUsed.toInt)))) total).toInt =
      min 9223372036854775807 (total.toInt + gasSum rs) := by
  induction rs generalizing total with
  | nil =>
    have hle := total.toInt_lt
    change total.toInt = min 9223372036854775807 (total.toInt + 0)
    lia
  | cons r rs ih =>
    obtain ⟨hr, hrs⟩ := List.forall_mem_cons.mp hrs
    have hgas : 0 ≤ r.gasUsed.toInt := Int64.le_iff_toInt_le.mp hr
    have hrest := gasSum_nonneg hrs
    have hnext := toInt_clamped (Int.add_nonneg htotal hgas)
    rw [List.foldl_cons, ih hrs (by rw [hnext]; lia), hnext, gasSum_cons]
    lia

theorem toInt_totalGas (hrs : ∀ r ∈ rs, 0 ≤ r.gasUsed) :
    (totalGas rs).toInt = min (2 ^ 63 - 1) (gasSum rs) := by
  have hsum := toInt_foldl_gas hrs (Int.le_refl (Int64.toInt 0))
  rw [Int64.toInt_zero, Int.zero_add] at hsum
  exact hsum

theorem totalGas_of_perm (hrs : ∀ r ∈ rs, 0 ≤ r.gasUsed) (h : rs'.Perm rs) :
    totalGas rs' = totalGas rs := by
  have hrs' : ∀ r ∈ rs', 0 ≤ r.gasUsed := fun r hr => hrs r (h.subset hr)
  rw [← Int64.toInt_inj, toInt_totalGas hrs, toInt_totalGas hrs', gasSum_of_perm h]

theorem totalGas_le_of_subperm (hrs : ∀ r ∈ rs, 0 ≤ r.gasUsed) (h : rs'.Subperm rs) :
    totalGas rs' ≤ totalGas rs := by
  have hrs' : ∀ r ∈ rs', 0 ≤ r.gasUsed := fun r hr => hrs r (h.subset hr)
  have hle := gasSum_le_of_subperm hrs h
  rw [Int64.le_iff_toInt_le, toInt_totalGas hrs, toInt_totalGas hrs']
  lia

end Conformance.Receipt
