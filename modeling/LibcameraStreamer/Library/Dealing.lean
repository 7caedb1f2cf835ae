import Mathlib.Data.List.Nodup
import Mathlib.Data.List.Range
import Mathlib.Data.List.Zip
import Mathlib.Tactic

/-!
# Dealing a list out in rounds

`deal keys values` hands the values out to the keys, one to each key in every round. The `j`-th
round gives the `i`-th key the value number `j * n + i`, and the complete rounds together hold
every value once.
-/
namespace LibcameraStreamer.Library

variable {κ β : Type*}

/-- What the keys are given in the `j`-th round. -/
def deal (keys : List κ) (values : List β) (j : Nat) : List (κ × β) :=
  keys.zip (values.drop (j * keys.length))

theorem lookup_zip [BEq κ] [LawfulBEq κ] {keys : List κ} (distinct : keys.Nodup)
    (values : List β) {i : Nat} (h : i < keys.length) :
    List.lookup keys[i] (keys.zip values) = values[i]? := by
  induction keys generalizing values i with
  | nil => simp at h
  | cons k keys ih =>
    obtain ⟨fresh, distinct⟩ := List.nodup_cons.mp distinct
    cases values with
    | nil => simp
    | cons v values =>
      cases i with
      | zero => simp
      | succ i =>
        have inside : i < keys.length := by simpa using h
        have other : (keys[i] == k) = false :=
          beq_false_of_ne fun same => fresh (same ▸ List.getElem_mem inside)
        simpa [List.lookup_cons, other] using ih distinct values inside

theorem lookup_deal [BEq κ] [LawfulBEq κ] {keys : List κ} (distinct : keys.Nodup)
    (values : List β) (j : Nat) {i : Nat} (h : i < keys.length) :
    List.lookup keys[i] (deal keys values j) = values[j * keys.length + i]? := by
  rw [deal, lookup_zip distinct _ h, List.getElem?_drop]

/-- In a complete round every key is given a value. -/
theorem deal_keys {keys : List κ} {values : List β} {j : Nat}
    (complete : (j + 1) * keys.length ≤ values.length) :
    (deal keys values j).map Prod.fst = keys := by
  rw [deal, List.map_fst_zip]
  rw [List.length_drop]
  rw [Nat.succ_mul] at complete
  omega

theorem zip_values (keys : List κ) (values : List β) :
    (keys.zip values).map Prod.snd = values.take keys.length := by
  induction keys generalizing values with
  | nil => simp
  | cons k keys ih => cases values <;> simp [ih]

/-- The rounds before the `k`-th hold the first `k * n` values in order. -/
theorem flatMap_deal (keys : List κ) (values : List β) (k : Nat) :
    (List.range k).flatMap (fun j => (deal keys values j).map Prod.snd) =
      values.take (k * keys.length) := by
  induction k with
  | zero => simp
  | succ k ih =>
    rw [List.range_succ, List.flatMap_append, ih, List.flatMap_singleton, deal, zip_values,
      Nat.succ_mul, List.take_add]

end LibcameraStreamer.Library
