import LibcameraStreamer.Library.Run
import Mathlib.Data.List.Perm.Basic
import Mathlib.Data.List.Nodup
import Mathlib.Tactic

/-!
# A FIFO that may lose elements

The stages of a pipeline hold, read from the oldest element to the youngest, one list. A step
may take its first element out, lose one anywhere in it, and append one at its end. Over a
whole run the elements that left, followed by those still inside, are the elements that
entered without those that were lost, in the order in which they entered.
-/
namespace LibcameraStreamer.Library

variable {σ α β : Type*}

/-- One step from `content` to `content'`, with the element that leaves, the one that is lost
and the one that enters. -/
def LossyStep (content : List β) (leave lose enter : Option β) (content' : List β) : Prop :=
  ∃ front back, content = leave.toList ++ (front ++ (lose.toList ++ back)) ∧
    content' = front ++ (back ++ enter.toList)

theorem LossyStep.idle {content content' : List β} (h : content' = content) :
    LossyStep content none none none content' :=
  ⟨content, [], by simp, by simpa using h⟩

theorem LossyStep.enters {content content' : List β} {enter : Option β}
    (h : content' = content ++ enter.toList) : LossyStep content none none enter content' :=
  ⟨content, [], by simp, by simpa using h⟩

theorem LossyStep.leaves {content content' : List β} {leave : Option β}
    (h : content = leave.toList ++ content') : LossyStep content leave none none content' :=
  ⟨content', [], by simpa using h, by simp⟩

theorem LossyStep.loses {content content' : List β} {x : β} (front back : List β)
    (before : content = front ++ x :: back) (after : content' = front ++ back) :
    LossyStep content none (some x) none content' :=
  ⟨front, back, by simpa using before, by simpa using after⟩

section Rules

variable {R : σ → α → σ → Prop} {E : σ → α → Prop} {s t : σ} {tr : List (σ × α)}

/-- The elements that left and those inside embed in order in those that entered, and with
the lost ones they are all of them. -/
theorem Run.lossyQueue (h : Run R E s tr t) (content : σ → List β)
    (leave lose enter : σ → α → Option β) (empty : content s = [])
    (step : ∀ s a t, E s a → R s a t →
      LossyStep (content s) (leave s a) (lose s a) (enter s a) (content t)) :
    (log leave tr ++ content t).Sublist (log enter tr) ∧
      (log leave tr ++ content t ++ log lose tr).Perm (log enter tr) := by
  induction h with
  | nil => simp [empty]
  | @snoc t u a tr _ he hr ih =>
    obtain ⟨front, back, before, after⟩ := step _ _ _ he hr
    obtain ⟨sub, perm⟩ := ih
    simp only [log_snoc, before, after] at sub perm ⊢
    refine ⟨?_, ?_⟩
    · have kept : (front ++ back).Sublist (front ++ ((lose t a).toList ++ back)) :=
        (List.sublist_append_right _ _).append_left front
      have := (((kept.append_left (log leave tr ++ (leave t a).toList)).trans
        (by simpa using sub)).append_right (enter t a).toList)
      simpa using this
    · classical
      rw [List.perm_iff_count] at perm ⊢
      intro x
      have := perm x
      simp only [List.count_append] at this ⊢
      omega

/-- When no element enters twice, what left and what is inside is what entered and was not
lost, in the same order. -/
theorem filter_eq_of_sublist_of_perm [DecidableEq β] {kept lost all : List β}
    (sub : kept.Sublist all) (perm : (kept ++ lost).Perm all) (distinct : all.Nodup) :
    all.filter (· ∉ lost) = kept := by
  have parts := List.nodup_append.mp (perm.nodup_iff.mpr distinct)
  have stays : kept.filter (· ∉ lost) = kept :=
    List.filter_eq_self.mpr fun x hx => by simpa using fun hl => parts.2.2 x hx x hl rfl
  have goes : lost.filter (· ∉ lost) = [] := by simp [List.filter_eq_nil_iff]
  have length := (perm.filter (· ∉ lost)).length_eq
  rw [List.filter_append, stays, goes, List.append_nil] at length
  have embeds := sub.filter (· ∉ lost)
  rw [stays] at embeds
  exact (embeds.eq_of_length length).symm

/-- The position of the element that is kept as the `j`-th one. -/
theorem exists_position_of_filter {p : β → Bool} {l : List β} {j : Nat} {x : β}
    (h : (l.filter p)[j]? = some x) :
    ∃ i, l[i]? = some x ∧ i = j + (l.take i).countP (fun y => !p y) := by
  induction l generalizing j with
  | nil => simp at h
  | cons y l ih =>
    by_cases hy : p y = true
    · rw [List.filter_cons_of_pos hy] at h
      cases j with
      | zero => exact ⟨0, by simpa using h, by simp⟩
      | succ j =>
        obtain ⟨i, position, before⟩ := ih (by simpa using h)
        refine ⟨i + 1, by simpa using position, ?_⟩
        simp only [List.take_succ_cons, List.countP_cons, hy, Bool.not_true, Bool.false_eq_true,
          if_false]
        omega
    · rw [List.filter_cons_of_neg hy] at h
      obtain ⟨i, position, before⟩ := ih h
      refine ⟨i + 1, by simpa using position, ?_⟩
      simp only [List.take_succ_cons, List.countP_cons, hy, Bool.not_false, if_true]
      omega

/-- The same for a queue that loses nothing. -/
theorem Run.fifo (h : Run R E s tr t) (content : σ → List β) (leave enter : σ → α → Option β)
    (empty : content s = [])
    (step : ∀ s a t, E s a → R s a t →
      LossyStep (content s) (leave s a) none (enter s a) (content t)) :
    log enter tr = log leave tr ++ content t := by
  obtain ⟨sub, perm⟩ := h.lossyQueue content leave (fun _ _ => none) enter empty step
  have none_lost : log (fun _ _ => none : σ → α → Option β) tr = [] := by simp [log]
  rw [none_lost, List.append_nil] at perm
  exact (sub.eq_of_length perm.length_eq).symm

/-- When the order is not kept, the elements that entered are still those that left and those
inside. -/
theorem Run.bag (h : Run R E s tr t) (content : σ → List β) (leave enter : σ → α → Option β)
    (empty : content s = [])
    (step : ∀ s a t, E s a → R s a t →
      (content s ++ (enter s a).toList).Perm (content t ++ (leave s a).toList)) :
    (log enter tr).Perm (log leave tr ++ content t) := by
  induction h with
  | nil => simp [empty]
  | snoc _ he hr ih =>
    classical
    have balance := step _ _ _ he hr
    rw [List.perm_iff_count] at ih balance ⊢
    intro x
    have := ih x
    have := balance x
    simp only [log_snoc, List.count_append] at *
    omega

/-- A store that holds all the tokens there are, from which some leak: those that have leaked are
what is missing. -/
theorem Run.leaks [DecidableEq β] (h : Run R E s tr t) (content all : σ → List β)
    (leak : σ → α → Option β) (start : (content s).Perm (all s))
    (step : ∀ s a t, E s a → R s a t → ∀ x,
      (content t).count x + (leak s a).toList.count x + (all s).count x =
        (content s).count x + (all t).count x) :
    (content t ++ log leak tr).Perm (all t) := by
  induction h with
  | nil => simpa using start
  | snoc _ he hr ih =>
    rw [List.perm_iff_count] at ih ⊢
    intro x
    have := ih x
    have := step _ _ _ he hr x
    simp only [log_snoc, List.count_append] at *
    omega

/-- When elements may be lost as well, those inside are still some of those that entered. -/
theorem Run.lossyBag (h : Run R E s tr t) (content : σ → List β) (enter : σ → α → Option β)
    (empty : content s = [])
    (step : ∀ s a t, E s a → R s a t → (content t).Subperm (content s ++ (enter s a).toList)) :
    (content t).Subperm (log enter tr) := by
  induction h with
  | nil => simp [empty]
  | snoc _ he hr ih =>
    rw [log_snoc]
    exact (step _ _ _ he hr).trans (ih.append (List.Subperm.refl _))

end Rules

end LibcameraStreamer.Library
