import LibcameraStreamer.Library.Run
import Mathlib.Data.Multiset.AddSub
import Mathlib.Data.Multiset.Range
import Mathlib.Tactic

/-!
# Handing tokens back through a second queue

A supplier hands tokens to a line of workers. Each token is entered twice: in the line, where
it is `pending` until its work is done, and in a queue of `owed` tokens. When the work on the
first pending token is done, not that token but the first owed one goes back to the supplier.

The two sequences agree as long as the line keeps its order and abandons nothing. An abandoned
token shifts them against each other for good: it stays owed. Still the pending tokens embed
in order in the owed ones, so that a token that goes back is not pending any more.
-/
namespace LibcameraStreamer.Library

variable {α : Type*}

structure Recycler (α : Type*) where
  idle : Multiset α
  owed : List α
  pending : List α

namespace Recycler

inductive Op (α : Type*) where
  /-- A token enters the line. -/
  | accept (r : α)
  /-- The line abandons a token. -/
  | abandon (r : α)
  /-- The line changes its order. -/
  | reorder
  /-- The first pending token is done, and the first owed token goes back. -/
  | giveBack (r : α)
  /-- The supplier loses a token. -/
  | leave (r : α)

inductive Step (s t : Recycler α) : Op α → Prop where
  | accept (r : α) (idle : s.idle = r ::ₘ t.idle) (owed : t.owed = s.owed ++ [r])
      (pending : t.pending = s.pending ++ [r]) : Step s t (.accept r)
  | abandon (r : α) (front back : List α) (idle : t.idle = s.idle) (owed : t.owed = s.owed)
      (before : s.pending = front ++ r :: back) (after : t.pending = front ++ back) :
      Step s t (.abandon r)
  | reorder (idle : t.idle = s.idle) (owed : t.owed = s.owed)
      (pending : t.pending.Perm s.pending) : Step s t .reorder
  | giveBack (r done : α) (idle : t.idle = r ::ₘ s.idle) (owed : s.owed = r :: t.owed)
      (pending : s.pending = done :: t.pending) : Step s t (.giveBack r)
  | leave (r : α) (idle : s.idle = r ::ₘ t.idle) (owed : t.owed = s.owed)
      (pending : t.pending = s.pending) : Step s t (.leave r)

def Op.abandons : Op α → Bool
  | .abandon _ => true
  | _ => false

def Op.reorders : Op α → Bool
  | .reorder => true
  | _ => false

def Op.lost : Op α → Multiset α
  | .leave r => {r}
  | _ => 0

abbrev Trace (α : Type*) := List (Recycler α × Op α)

/-- A run of the recycler whose operations satisfy `E`. -/
abbrev Runs (E : Op α → Prop) (s : Recycler α) (tr : Trace α) (t : Recycler α) : Prop :=
  Run (fun s o t => Step s t o) (fun _ o => E o) s tr t

variable {E : Op α → Prop} {s t : Recycler α} {tr : Trace α}

/-- Every abandoned token leaves one owed token too many. -/
theorem Runs.length_owed (h : Runs E s tr t) (start : s.owed.length = s.pending.length) :
    t.owed.length = t.pending.length + count (fun _ o => o.abandons) tr := by
  have := h.counts (fun s => (s.owed.length : Int) - s.pending.length) (fun _ o => o.abandons)
    fun s o t _ step => by
      cases step with
      | accept r idle owed pending => simp [owed, pending, Op.abandons]
      | abandon r front back idle owed before after =>
        simp [owed, before, after, Op.abandons]
        omega
      | reorder idle owed pending => simp [owed, pending.length_eq, Op.abandons]
      | giveBack r done idle owed pending => simp [owed, pending, Op.abandons]
      | leave r idle owed pending => simp [owed, pending, Op.abandons]
  omega

/-- A line that keeps its order embeds in the owed tokens. -/
theorem Runs.sublist (h : Runs E s tr t) (order : ∀ o, E o → o.reorders = false)
    (start : s.pending.Sublist s.owed) : t.pending.Sublist t.owed := by
  refine h.invariant (fun s => s.pending.Sublist s.owed) start fun s o t inv ok step => ?_
  cases step with
  | accept r idle owed pending => rw [owed, pending]; exact inv.append_right [r]
  | abandon r front back idle owed before after =>
    rw [owed, after]
    rw [before] at inv
    exact ((List.sublist_cons_self r back).append_left front).trans inv
  | reorder => exact absurd (order _ ok) (by simp [Op.reorders])
  | giveBack r done idle owed pending => rw [owed, pending] at inv; exact inv.tail
  | leave r idle owed pending => rw [owed, pending]; exact inv

theorem Step.total {o : Op α} (h : Step s t o) :
    o.lost + (t.idle + ↑t.owed) = s.idle + ↑s.owed := by
  cases h with
  | accept r idle owed pending =>
    simp [Op.lost, idle, owed, ← Multiset.coe_add, ← Multiset.singleton_add, add_comm,
      add_left_comm]
  | abandon r front back idle owed before after => simp [Op.lost, idle, owed]
  | reorder idle owed pending => simp [Op.lost, idle, owed]
  | giveBack r done idle owed pending => simp [Op.lost, idle, owed, ← Multiset.cons_coe]
  | leave r idle owed pending => simp [Op.lost, idle, owed]

/-- No token is doubled. -/
theorem Runs.conserved (h : Runs E s tr t) : t.idle + ↑t.owed ≤ s.idle + ↑s.owed :=
  h.invariant (fun t => t.idle + ↑t.owed ≤ s.idle + ↑s.owed) le_rfl fun u o t inv _ step =>
    calc t.idle + ↑t.owed
      _ ≤ o.lost + (t.idle + ↑t.owed) := Multiset.le_add_left _ _
      _ = u.idle + ↑u.owed := step.total
      _ ≤ s.idle + ↑s.owed := inv

/-- When the supplier loses none, every token is with the supplier or owed. -/
theorem Runs.conserved_eq (h : Runs E s tr t) (kept : ∀ o, E o → o.lost = 0) :
    t.idle + ↑t.owed = s.idle + ↑s.owed :=
  h.invariant (fun t => t.idle + ↑t.owed = s.idle + ↑s.owed) rfl fun u o t inv ok step => by
    rw [← inv, ← step.total, kept o ok, zero_add]

/-- A token with the supplier is neither owed nor pending. -/
theorem Runs.exclusive (h : Runs E s tr t) (order : ∀ o, E o → o.reorders = false)
    (start : s.pending.Sublist s.owed) (distinct : (s.idle + ↑s.owed).Nodup) {r : α}
    (member : r ∈ t.idle) : r ∉ t.owed ∧ r ∉ t.pending := by
  have parts := Multiset.nodup_of_le h.conserved distinct
  have owed : r ∉ t.owed := fun ho =>
    Multiset.disjoint_left.mp (Multiset.nodup_add.mp parts).2.2 member (Multiset.mem_coe.mpr ho)
  exact ⟨owed, fun hp => owed ((h.sublist order start).subset hp)⟩

end Recycler

end LibcameraStreamer.Library
