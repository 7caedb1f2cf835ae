import Mathlib.Data.List.Count
import Mathlib.Data.List.Perm.Basic
import Mathlib.Data.List.Nodup
import Mathlib.Tactic

/-!
# Tokens that circulate between places

`Partitions parts all` says that the lists `parts` hold together exactly the tokens `all`,
with multiplicity. A system that hands tokens from one place to another preserves it, which
is checked token by token on counts; when the tokens are distinct, the places are disjoint.
-/
namespace LibcameraStreamer.Library

variable {α β : Type*}

def Partitions (parts : List (List α)) (all : List α) : Prop := parts.flatten.Perm all

/-- A transfer between places, possibly with new tokens, keeps the balance of every token. -/
theorem Partitions.transfer [DecidableEq α] {parts parts' : List (List α)} {all all' : List α}
    (h : Partitions parts all)
    (balance : ∀ x, parts'.flatten.count x + all.count x = parts.flatten.count x + all'.count x) :
    Partitions parts' all' := by
  rw [Partitions, List.perm_iff_count] at h ⊢
  intro x
  have := h x
  have := balance x
  omega

theorem Partitions.mem_iff {parts : List (List α)} {all : List α} (h : Partitions parts all)
    (x : α) : x ∈ all ↔ ∃ part ∈ parts, x ∈ part := by
  rw [← List.Perm.mem_iff h, List.mem_flatten]

theorem Partitions.nodup {parts : List (List α)} {all : List α} (h : Partitions parts all)
    (distinct : all.Nodup) : (∀ part ∈ parts, part.Nodup) ∧ parts.Pairwise List.Disjoint :=
  List.nodup_flatten.mp ((List.Perm.nodup_iff h).mpr distinct)

theorem Partitions.length {parts : List (List α)} {all : List α} (h : Partitions parts all) :
    (parts.map List.length).sum = all.length := by
  rw [← List.length_flatten, List.Perm.length_eq h]

/-- Taking one element out of a list, seen through a projection. -/
theorem map_eraseIdx_perm (f : α → β) {l : List α} {i : Nat} {b : α} (h : l[i]? = some b) :
    (f b :: (l.eraseIdx i).map f).Perm (l.map f) := by
  obtain ⟨hi, rfl⟩ := List.getElem?_eq_some_iff.mp h
  exact (List.getElem_cons_eraseIdx_perm hi).map f

theorem count_map_eraseIdx [DecidableEq β] (f : α → β) {l : List α} {i : Nat} {b : α}
    (h : l[i]? = some b) (x : β) :
    ((l.eraseIdx i).map f).count x + (if f b = x then 1 else 0) = (l.map f).count x := by
  simp [← (map_eraseIdx_perm f h).count_eq x, List.count_cons]

theorem count_eraseIdx [DecidableEq α] {l : List α} {i : Nat} {b : α} (h : l[i]? = some b)
    (x : α) : (l.eraseIdx i).count x + (if b = x then 1 else 0) = l.count x := by
  simpa using count_map_eraseIdx id h x

end LibcameraStreamer.Library
