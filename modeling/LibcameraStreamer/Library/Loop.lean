import Mathlib.Data.List.Basic
import Mathlib.Tactic

/-!
# Statements that leave their loop

A statement on a state `σ` goes on to the next one, leaves the function by `return`, or raises an
exception; the state is there in each case. `forEach` is the loop over a list, `loop` the
`while (true)`, which only `return` and `raise` leave. The fuel of `loop` bounds the number of
its rounds, and its result is `none` when they are used up.
-/
namespace LibcameraStreamer.Library

variable {α ε σ : Type*}

inductive Flow (ε σ : Type*) where
  | next (s : σ)
  | exit (s : σ)
  | raise (e : ε) (s : σ)

namespace Flow

/-- The state in which the statement ends. -/
def state : Flow ε σ → σ
  | .next s | .exit s | .raise _ s => s

/-- One statement after the other. -/
def andThen (r : Flow ε σ) (f : σ → Flow ε σ) : Flow ε σ :=
  match r with
  | .next s => f s
  | .exit s => .exit s
  | .raise e s => .raise e s

@[simp] theorem next_andThen (s : σ) (f : σ → Flow ε σ) : (next s).andThen f = f s := rfl
@[simp] theorem exit_andThen (s : σ) (f : σ → Flow ε σ) : (exit s).andThen f = exit s := rfl
@[simp] theorem raise_andThen (e : ε) (s : σ) (f : σ → Flow ε σ) :
    (raise e s).andThen f = raise e s := rfl

end Flow

/-! ## The loop over a list -/

def forEach (f : α → σ → Flow ε σ) : List α → σ → Flow ε σ
  | [], s => .next s
  | x :: xs, s => (f x s).andThen (forEach f xs)

@[simp] theorem forEach_nil (f : α → σ → Flow ε σ) (s : σ) : forEach f [] s = .next s := rfl

@[simp] theorem forEach_cons (f : α → σ → Flow ε σ) (x : α) (xs : List α) (s : σ) :
    forEach f (x :: xs) s = (f x s).andThen (forEach f xs) := rfl

/-- What every statement keeps, however it ends, is kept by the loop. -/
theorem forEach_state {f : α → σ → Flow ε σ} (P : σ → Prop) {l : List α} {s : σ}
    (keep : ∀ x ∈ l, ∀ s, P s → P (f x s).state) (start : P s) : P (forEach f l s).state := by
  induction l generalizing s with
  | nil => exact start
  | cons x l ih =>
    have here := keep x (by simp) s start
    rw [forEach_cons]
    cases first : f x s with
    | next t => exact ih (fun y member => keep y (by simp [member])) (by rwa [first] at here)
    | exit t | raise e t => rwa [first] at here

theorem forEach_ne_exit {f : α → σ → Flow ε σ} (stays : ∀ x s t, f x s ≠ .exit t) (l : List α)
    (s t : σ) : forEach f l s ≠ .exit t := by
  induction l generalizing s with
  | nil => simp
  | cons x l ih =>
    rw [forEach_cons]
    cases first : f x s with
    | next u => exact ih u
    | exit u => exact absurd first (stays x s u)
    | raise e u => simp

/-- A loop that goes on has gone through each of its statements. -/
theorem exists_next_of_forEach {f : α → σ → Flow ε σ} {l : List α} {s t : σ}
    (h : forEach f l s = .next t) {x : α} (member : x ∈ l) : ∃ u v, f x u = .next v := by
  induction l generalizing s with
  | nil => simp at member
  | cons y l ih =>
    rw [forEach_cons] at h
    cases first : f y s with
    | next u =>
      rw [first] at h
      rcases List.mem_cons.mp member with rfl | later
      · exact ⟨s, u, first⟩
      · exact ih h later
    | exit u | raise e u => simp [first] at h

/-- A loop whose rounds all go on goes on; the invariant knows the elements that are done. -/
theorem forEach_next {f : α → σ → Flow ε σ} {l : List α} {s : σ} (I : List α → σ → Prop)
    (start : I [] s)
    (round : ∀ done x rest s, l = done ++ x :: rest → I done s →
      ∃ t, f x s = .next t ∧ I (done ++ [x]) t) :
    ∃ t, forEach f l s = .next t ∧ I l t := by
  have suffices_rest : ∀ rest done s, l = done ++ rest → I done s →
      ∃ t, forEach f rest s = .next t ∧ I l t := by
    intro rest
    induction rest with
    | nil =>
      intro done s split here
      rw [List.append_nil] at split
      exact ⟨s, rfl, split ▸ here⟩
    | cons x rest ih =>
      intro done s split here
      obtain ⟨t, first, there⟩ := round done x rest s split here
      rw [forEach_cons, first]
      exact ih (done ++ [x]) t (by simpa using split) there
  exact suffices_rest l [] s rfl start

/-- The same for a loop over the numbers below `n`. -/
theorem forEach_range {f : Nat → σ → Flow ε σ} {n : Nat} {s : σ} (I : Nat → σ → Prop)
    (start : I 0 s)
    (round : ∀ i s, i < n → I i s → ∃ t, f i s = .next t ∧ I (i + 1) t) :
    ∃ t, forEach f (List.range n) s = .next t ∧ I n t := by
  have goes := forEach_next (l := List.range n) (fun done t => I done.length t) start
    fun done i rest t split here => by
      have bound : i < n := by
        rw [← List.mem_range, split]
        simp
      have index : (List.range n)[done.length]? = some i := by simp [split]
      have i_eq : done.length = i := by
        obtain ⟨_, value⟩ := List.getElem?_eq_some_iff.mp index
        simpa using value
      rw [List.length_append, List.length_singleton, i_eq]
      exact round i t bound (i_eq ▸ here)
  simpa using goes

/-! ## The endless loop -/

def loop (body : σ → Flow ε σ) : Nat → σ → Option (Flow ε σ)
  | 0, _ => none
  | n + 1, s =>
    match body s with
    | .next t => loop body n t
    | r => some r

/-- A round goes on with `I`, or leaves with a result that satisfies `Post`. -/
def Flow.Ends (I : σ → Prop) (Post : Flow ε σ → Prop) : Flow ε σ → Prop
  | .next t => I t
  | r => Post r

/-- A loop whose rounds keep an invariant and come nearer to the end terminates, with the result
that some round leaves with. -/
theorem loop_terminates {body : σ → Flow ε σ} {I : σ → Prop} {Post : Flow ε σ → Prop}
    (variant : σ → Nat)
    (round : ∀ s, I s → (body s).Ends (fun t => I t ∧ variant t < variant s) Post)
    {s : σ} (start : I s) :
    ∃ r, Post r ∧ ∀ n, variant s < n → loop body n s = some r := by
  induction h : variant s using Nat.strong_induction_on generalizing s with
  | _ k ih =>
    subst h
    have here := round s start
    cases body_eq : body s with
    | next t =>
      rw [body_eq] at here
      obtain ⟨r, post, runs⟩ := ih (variant t) here.2 here.1 rfl
      refine ⟨r, post, fun n enough => ?_⟩
      obtain ⟨m, rfl⟩ := Nat.exists_eq_add_of_lt enough
      rw [loop, body_eq]
      exact runs _ (by have := here.2; omega)
    | exit t | raise e t =>
      rw [body_eq] at here
      refine ⟨_, here, fun n enough => ?_⟩
      obtain ⟨m, rfl⟩ := Nat.exists_eq_add_of_lt enough
      rw [loop, body_eq]

/-- A result of the loop is the same with more rounds. -/
theorem loop_mono {body : σ → Flow ε σ} {n m : Nat} {s : σ} {r : Flow ε σ} (more : n ≤ m)
    (h : loop body n s = some r) : loop body m s = some r := by
  induction n generalizing m s with
  | zero => simp [loop] at h
  | succ n ih =>
    cases m with
    | zero => contradiction
    | succ m =>
      rw [loop] at h ⊢
      cases body_eq : body s with
      | next t =>
        rw [body_eq] at h
        exact ih (by omega) h
      | exit t | raise e t => rwa [body_eq] at h

end LibcameraStreamer.Library
