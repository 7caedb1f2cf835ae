import LibcameraStreamer.Library.Run
import Mathlib.Logic.Function.Basic

/-!
# Memory cells that change hands

A step of a run may write one cell of a memory, or leave it in an unknown state. A reader that
holds handles to cells finds in each what was written for it, as long as no step writes a cell
to which a handle is held: what is written is then a new handle.
-/
namespace LibcameraStreamer.Library

variable {σ α β γ : Type*} [DecidableEq γ]

/-- A cell with its new contents, `none` when they are unknown. -/
abbrev Write (γ β : Type*) := Option (γ × Option β)

def writeCell (m : γ → Option β) : Write γ β → γ → Option β
  | none => m
  | some (cell, contents) => Function.update m cell contents

/-- The memory after the writes of a trace, of which nothing is known at first. -/
def memory (write : σ → α → Write γ β) (tr : List (σ × α)) : γ → Option β :=
  fold (fun s a m => writeCell m (write s a)) (fun _ => none) tr

/-- The cell of every handle contains what the handle stands for. -/
def Backs (cell : β → γ) (m : γ → Option β) (handles : List β) : Prop :=
  ∀ x ∈ handles, m (cell x) = some x

theorem Backs.writeCell {cell : β → γ} {m : γ → Option β} {handles handles' : List β}
    (h : Backs cell m handles) (w : Write γ β)
    (step : ∀ x ∈ handles', (x ∈ handles ∧ ∀ c v, w = some (c, v) → c ≠ cell x) ∨
      w = some (cell x, some x)) : Backs cell (writeCell m w) handles' := by
  intro x hx
  rcases step x hx with ⟨old, apart⟩ | written
  · cases w with
    | none => exact h x old
    | some w =>
      simp only [Library.writeCell]
      rw [Function.update_of_ne (apart _ _ rfl).symm]
      exact h x old
  · simp [Library.writeCell, written]

/-- A handle is either old, and its cell is not written, or it is the handle of what is written. -/
theorem Run.memory {R : σ → α → σ → Prop} {E : σ → α → Prop} {s t : σ} {tr : List (σ × α)}
    (h : Run R E s tr t) (cell : β → γ) (handles : σ → List β) (write : σ → α → Write γ β)
    (start : handles s = [])
    (step : ∀ s a t, E s a → R s a t → ∀ x ∈ handles t,
      (x ∈ handles s ∧ ∀ c v, write s a = some (c, v) → c ≠ cell x) ∨
        write s a = some (cell x, some x)) :
    Backs cell (memory write tr) (handles t) :=
  h.fold _ _ (fun t m => Backs cell m (handles t)) (by simp [Backs, start])
    fun _ _ _ _ he hr holds => holds.writeCell _ (step _ _ _ he hr)

end LibcameraStreamer.Library
