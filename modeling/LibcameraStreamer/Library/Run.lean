import Mathlib.Data.List.Basic
import Mathlib.Order.Basic

/-!
# Runs of labelled transition systems

A system is a step relation `R s a t` between states, labelled by actions. `Run R E s tr t`
is a finite run from `s` to `t` whose trace `tr` records, for each step, the state it was
taken in and its label. `E` is an assumption on single steps (what the environment may do,
which branches are excluded); it may read the state the step is taken in.

Invariants, counts along the trace, and simulations between two systems are proved once
here, each from what one step does.
-/
namespace LibcameraStreamer.Library

variable {σ α τ β : Type*}

/-- The trace grows at its end, so that an induction on a run appends one step. -/
inductive Run (R : σ → α → σ → Prop) (E : σ → α → Prop) : σ → List (σ × α) → σ → Prop where
  | nil (s : σ) : Run R E s [] s
  | snoc {s t u : σ} {a : α} {tr : List (σ × α)} :
      Run R E s tr t → E t a → R t a u → Run R E s (tr ++ [(t, a)]) u

section Rules

variable {R : σ → α → σ → Prop} {E F : σ → α → Prop} {s t u : σ} {tr : List (σ × α)}

theorem Run.single {a : α} (he : E s a) (hr : R s a t) : Run R E s [(s, a)] t :=
  .snoc (.nil s) he hr

theorem Run.trans {tr' : List (σ × α)} (h : Run R E s tr t) (g : Run R E t tr' u) :
    Run R E s (tr ++ tr') u := by
  induction g with
  | nil => simpa using h
  | snoc _ he hr ih => rw [← List.append_assoc]; exact .snoc ih he hr

theorem Run.mono (h : Run R E s tr t) (hEF : ∀ s a, E s a → F s a) : Run R F s tr t := by
  induction h with
  | nil => exact .nil _
  | snoc _ he hr ih => exact .snoc ih (hEF _ _ he) hr

theorem Run.forall_mem (h : Run R E s tr t) : ∀ x ∈ tr, E x.1 x.2 := by
  induction h with
  | nil => simp
  | snoc _ he _ ih =>
    intro x hx
    rcases List.mem_append.mp hx with old | new
    · exact ih x old
    · rw [List.mem_singleton.mp new]
      exact he

theorem Run.of_forall_mem (h : Run R E s tr t) (ok : ∀ x ∈ tr, F x.1 x.2) : Run R F s tr t := by
  induction h with
  | nil => exact .nil _
  | snoc _ _ hr ih =>
    refine .snoc (ih fun x hx => ok x (List.mem_append_left _ hx)) ?_ hr
    exact ok _ (List.mem_append_right _ (List.mem_singleton_self _))

/-- A property kept by every step holds at the end of a run that starts with it. -/
theorem Run.invariant (h : Run R E s tr t) (I : σ → Prop) (start : I s)
    (keep : ∀ s a t, I s → E s a → R s a t → I t) : I t := by
  induction h with
  | nil => exact start
  | snoc _ he hr ih => exact keep _ _ _ ih he hr

/-- An invariant may be assumed of the states in which the steps are taken. -/
theorem Run.strengthen (h : Run R E s tr t) (I : σ → Prop) (start : I s)
    (keep : ∀ s a t, I s → E s a → R s a t → I t) :
    Run R (fun s a => I s ∧ E s a) s tr t := by
  induction h with
  | nil => exact .nil _
  | snoc h he hr ih => exact .snoc ih ⟨h.invariant I start keep, he⟩ hr

/-- What holds after every run may be assumed of the states in which the steps are taken. -/
theorem Run.reachable (h : Run R E s tr t) :
    Run R (fun u a => (∃ tr', Run R E s tr' u) ∧ E u a) s tr t :=
  h.strengthen (fun u => ∃ tr', Run R E s tr' u) ⟨[], .nil s⟩
    fun _ _ _ ⟨_, before⟩ he hr => ⟨_, before.snoc he hr⟩

/-- The number of steps of a trace that satisfy the test `p`. -/
def count (p : σ → α → Bool) (tr : List (σ × α)) : Nat := tr.countP fun x => p x.1 x.2

@[simp] theorem count_nil (p : σ → α → Bool) : count p [] = 0 := rfl

@[simp] theorem count_snoc (p : σ → α → Bool) (tr : List (σ × α)) (s : σ) (a : α) :
    count p (tr ++ [(s, a)]) = count p tr + (if p s a then 1 else 0) := by
  simp [count, List.countP_append, List.countP_singleton]

/-- A number that grows by one in the steps satisfying `p` and falls by one in those satisfying
`q` is the difference of the two counts. -/
theorem Run.balance (h : Run R E s tr t) (f : σ → Int) (p q : σ → α → Bool)
    (step : ∀ s a t, E s a → R s a t →
      f t = f s + (if p s a then 1 else 0) - (if q s a then 1 else 0)) :
    f t = f s + count p tr - count q tr := by
  induction h with
  | nil => simp
  | snoc _ he hr ih =>
    rw [step _ _ _ he hr, ih, count_snoc, count_snoc]
    split_ifs <;> push_cast <;> omega

/-- A number that grows by one in the steps satisfying `p`, and is unchanged by the
others, counts them. -/
theorem Run.counts (h : Run R E s tr t) (f : σ → Int) (p : σ → α → Bool)
    (step : ∀ s a t, E s a → R s a t → f t = f s + (if p s a then 1 else 0)) :
    f t = f s + count p tr := by
  have never : count (fun _ _ => false : σ → α → Bool) tr = 0 := by simp [count]
  simpa [never] using h.balance f p (fun _ _ => false) fun s a t he hr => by
    simpa using step s a t he hr

/-- A number that falls in the steps satisfying `p`, and never grows, bounds how many there are. -/
theorem Run.countdown (h : Run R E s tr t) (f : σ → Nat) (p : σ → α → Bool)
    (step : ∀ s a t, E s a → R s a t → f t + (if p s a then 1 else 0) ≤ f s) :
    count p tr + f t ≤ f s := by
  induction h with
  | nil => simp
  | snoc _ he hr ih =>
    have falls := step _ _ _ he hr
    rw [count_snoc]
    omega

/-- What can only happen at one value of a number that never grows, and falls then, happens once. -/
theorem Run.once (h : Run R E s tr t) (f : σ → Nat) (p : σ → α → Bool) (k : Nat)
    (step : ∀ s a t, E s a → R s a t → f t ≤ f s ∧ (p s a = true → f s = k ∧ f t < k)) :
    count p tr ≤ 1 := by
  have bound := h.countdown (fun s => if k ≤ f s then 1 else 0) p fun s a t he hr => by
    obtain ⟨falls, fires⟩ := step s a t he hr
    by_cases hp : p s a = true
    · obtain ⟨here, below⟩ := fires hp
      simp [hp, here, Nat.not_le.mpr below]
    · simp only [hp, Bool.false_eq_true, if_false, Nat.add_zero]
      split_ifs <;> omega
  have : (if k ≤ f s then 1 else 0) ≤ 1 := by split_ifs <;> omega
  omega

/-- No step counted by `p` is taken exactly when every step avoids `p`. -/
theorem count_eq_zero (p : σ → α → Bool) (tr : List (σ × α)) :
    count p tr = 0 ↔ ∀ x ∈ tr, p x.1 x.2 = false := by
  simp [count, List.countP_eq_zero]

/-- A bound on a count, from the steps that are counted: each finds fewer than `k` before. -/
theorem Run.count_le (h : Run R E s tr t) (p : σ → α → Bool) (k : Nat)
    (step : ∀ t a u tr, Run R E s tr t → R t a u → p t a = true → count p tr < k) :
    count p tr ≤ k := by
  induction h with
  | nil => simp
  | snoc h _ hr ih =>
    rw [count_snoc]
    split
    · next hp => exact step _ _ _ _ h hr hp
    · exact ih

/-- What the steps of a trace record, in their order. -/
def log (f : σ → α → Option β) (tr : List (σ × α)) : List β := tr.filterMap fun x => f x.1 x.2

@[simp] theorem log_nil (f : σ → α → Option β) : log f [] = [] := rfl

@[simp] theorem log_snoc (f : σ → α → Option β) (tr : List (σ × α)) (s : σ) (a : α) :
    log f (tr ++ [(s, a)]) = log f tr ++ (f s a).toList := by
  cases h : f s a <;> simp [log, h]

theorem log_map (f : σ → α → Option β) (g : β → τ) (tr : List (σ × α)) :
    log (fun s a => (f s a).map g) tr = (log f tr).map g := by
  simp [log, List.map_filterMap]

theorem length_log (f : σ → α → Option β) (tr : List (σ × α)) :
    (log f tr).length = count (fun s a => (f s a).isSome) tr := by
  simp [log, count, List.length_filterMap_eq_countP]

theorem log_eq_nil_iff (f : σ → α → Option β) (tr : List (σ × α)) :
    log f tr = [] ↔ ∀ x ∈ tr, f x.1 x.2 = none := List.filterMap_eq_nil_iff

/-- Two records that no step makes both, kept in one log. -/
theorem log_or_perm (f g : σ → α → Option β) (apart : ∀ s a, f s a = none ∨ g s a = none)
    (tr : List (σ × α)) :
    (log (fun s a => (f s a).or (g s a)) tr).Perm (log f tr ++ log g tr) := by
  induction tr with
  | nil => rfl
  | cons x tr ih =>
    simp only [log, List.filterMap_cons] at ih ⊢
    rcases apart x.1 x.2 with none | none
    · cases second : g x.1 x.2 with
      | none => simpa [none, second] using ih
      | some b => simpa [none, second] using (ih.cons b).trans List.perm_middle.symm
    · cases first : f x.1 x.2 with
      | none => simpa [none, first] using ih
      | some b => simpa [none, first] using ih.cons b

/-- A list that grows by what the steps record is the log. -/
theorem Run.logs (h : Run R E s tr t) (l : σ → List β) (f : σ → α → Option β)
    (step : ∀ s a t, E s a → R s a t → l t = l s ++ (f s a).toList) : l t = l s ++ log f tr := by
  induction h with
  | nil => simp
  | snoc _ he hr ih => rw [step _ _ _ he hr, ih, log_snoc, List.append_assoc]

/-- The readings of a quantity that never falls are sorted, and no later value is below one. -/
theorem Run.log_sorted [Preorder β] (h : Run R E s tr t) (f : σ → β) (g : σ → α → Option β)
    (grow : ∀ s a t, E s a → R s a t → f s ≤ f t) (read : ∀ s a x, g s a = some x → x = f s) :
    (log g tr).Pairwise (· ≤ ·) ∧ ∀ x ∈ log g tr, x ≤ f t := by
  induction h with
  | nil => simp
  | @snoc t u a tr _ he hr ih =>
    obtain ⟨sorted, bound⟩ := ih
    have grows := grow _ _ _ he hr
    have last : ∀ x ∈ (g t a).toList, x = f t := fun x hx => read _ _ _ (by simpa using hx)
    rw [log_snoc]
    refine ⟨List.pairwise_append.mpr ⟨sorted, ?_, fun x hx y hy => ?_⟩, fun x hx => ?_⟩
    · cases g t a <;> simp
    · rw [last y hy]
      exact bound x hx
    · rcases List.mem_append.mp hx with old | new
      · exact (bound x old).trans grows
      · rw [last x new]
        exact grows

/-- A value that the steps of a trace update one after the other. -/
def fold {γ : Type*} (f : σ → α → γ → γ) (g : γ) (tr : List (σ × α)) : γ :=
  tr.foldl (fun g x => f x.1 x.2 g) g

/-- An invariant of the state together with such a value. -/
theorem Run.fold {γ : Type*} (h : Run R E s tr t) (f : σ → α → γ → γ) (g : γ)
    (I : σ → γ → Prop) (start : I s g)
    (keep : ∀ s a t g, E s a → R s a t → I s g → I t (f s a g)) : I t (fold f g tr) := by
  induction h with
  | nil => exact start
  | snoc _ he hr ih =>
    rw [Library.fold, List.foldl_append]
    exact keep _ _ _ _ he hr ih

end Rules

/-! ## Simulation -/

/-- The abstract trace of a run: `act` names the abstract action that a step performs, and
is `none` for a step that the abstract system does not see. -/
def image (view : σ → τ) (act : σ → α → Option β) (tr : List (σ × α)) : List (τ × β) :=
  tr.filterMap fun x => (act x.1 x.2).map fun b => (view x.1, b)

theorem image_append (view : σ → τ) (act : σ → α → Option β) (tr tr' : List (σ × α)) :
    image view act (tr ++ tr') = image view act tr ++ image view act tr' := by
  simp [image]

/-- Counting the abstract steps of a kind counts the concrete steps that perform them. -/
theorem count_image (view : σ → τ) (act : σ → α → Option β) (p : τ → β → Bool)
    (tr : List (σ × α)) :
    count p (image view act tr) = count (fun s a => (act s a).any (p (view s))) tr := by
  induction tr with
  | nil => rfl
  | cons x tr ih =>
    simp only [count, image] at ih ⊢
    cases h : act x.1 x.2 <;> simp [List.countP_cons, h, ih]

/-- One step of the concrete system is one step of the abstract system, or invisible. -/
def Simulates (T : τ → β → τ → Prop) (view : σ → τ) (act : σ → α → Option β)
    (s : σ) (a : α) (t : σ) : Prop :=
  match act s a with
  | none => view t = view s
  | some b => T (view s) b (view t)

/-- A stepwise simulation maps every run to a run of the abstract system. -/
theorem Run.simulation {R : σ → α → σ → Prop} {E : σ → α → Prop} {T : τ → β → τ → Prop}
    {F : τ → β → Prop} {s t : σ} {tr : List (σ × α)} (h : Run R E s tr t) (view : σ → τ)
    (act : σ → α → Option β) (step : ∀ s a t, E s a → R s a t → Simulates T view act s a t)
    (allowed : ∀ s a b, E s a → act s a = some b → F (view s) b) :
    Run T F (view s) (image view act tr) (view t) := by
  induction h with
  | nil => exact .nil _
  | @snoc t u a tr _ he hr ih =>
    have hs := step _ _ _ he hr
    rw [image_append]
    cases ha : act t a with
    | none =>
      simp only [Simulates, ha] at hs
      simpa [image, ha, hs] using ih
    | some b =>
      simp only [Simulates, ha] at hs
      simpa [image, ha] using Run.snoc ih (allowed _ _ _ he ha) hs

/-- A step of a system, or none. -/
def Performs (T : τ → β → τ → Prop) (u : τ) : Option β → τ → Prop
  | none, w => w = u
  | some b, w => T u b w

/-- A simulation by a relation: as long as every concrete step can be answered, with the abstract
action it performs or with none, the run is answered by an abstract run of these actions. -/
theorem Run.forwardSimulation {R : σ → α → σ → Prop} {E : σ → α → Prop} {T : τ → β → τ → Prop}
    {F : τ → β → Prop} {s t : σ} {u : τ} {tr : List (σ × α)} (h : Run R E s tr t)
    (rel : σ → τ → Prop) (act : σ → α → Option β) (start : rel s u)
    (step : ∀ s a t v, (∃ tr', Run T F u tr' v) → E s a → R s a t → rel s v →
      ∃ w, rel t w ∧ Performs T v (act s a) w)
    (allowed : ∀ s a v b, E s a → act s a = some b → F v b) :
    ∃ tr' w, Run T F u tr' w ∧ rel t w ∧ tr'.map Prod.snd = log act tr := by
  induction h with
  | nil => exact ⟨[], u, .nil u, start, rfl⟩
  | @snoc t' u' a tr _ he hr ih =>
    obtain ⟨tr', v, run, related, actions⟩ := ih
    obtain ⟨w, answers, moves⟩ := step _ _ _ _ ⟨tr', run⟩ he hr related
    rw [log_snoc]
    cases performed : act t' a with
    | none =>
      rw [performed] at moves
      obtain rfl : w = v := moves
      exact ⟨tr', w, run, answers, by simp [actions]⟩
    | some b =>
      rw [performed] at moves
      exact ⟨tr' ++ [(v, b)], w, .snoc run (allowed _ _ _ _ he performed) moves, answers,
        by simp [actions]⟩

/-! ## Executable systems -/

section Executable

variable (step : σ → α → Option σ)

/-- The step relation of an executable step function. -/
def Steps (s : σ) (a : α) (t : σ) : Prop := step s a = some t

/-- Perform the listed actions, as long as each is enabled and meets `E`. -/
def exec (E : σ → α → Prop) [∀ s a, Decidable (E s a)] : σ → List α → Option σ
  | s, [] => some s
  | s, a :: as => if E s a then (step s a).bind (exec E · as) else none

/-- The same with the trace of the run. -/
def execTrace (E : σ → α → Prop) [∀ s a, Decidable (E s a)] :
    σ → List α → Option (List (σ × α) × σ)
  | s, [] => some ([], s)
  | s, a :: as =>
    if E s a then
      (step s a).bind fun t => (execTrace E t as).map fun (tr, u) => ((s, a) :: tr, u)
    else none

variable {step}

theorem exists_run_of_exec {E : σ → α → Prop} [∀ s a, Decidable (E s a)] {s t : σ}
    {as : List α} (h : exec step E s as = some t) :
    ∃ tr, Run (Steps step) E s tr t ∧ tr.map Prod.snd = as := by
  induction as generalizing s with
  | nil =>
    simp only [exec, Option.some.injEq] at h
    exact ⟨[], h ▸ .nil s, rfl⟩
  | cons a as ih =>
    simp only [exec] at h
    split at h
    · next he =>
      obtain ⟨u, hu, hrest⟩ := Option.bind_eq_some_iff.mp h
      obtain ⟨tr, hrun, has⟩ := ih hrest
      exact ⟨(s, a) :: tr, (Run.single he hu).trans hrun, by simp [has]⟩
    · contradiction

/-- A list of actions that ends in a state satisfying the test `p` gives a run to it. -/
theorem exists_run_of_exec_any {E : σ → α → Prop} [∀ s a, Decidable (E s a)] {s : σ}
    {as : List α} {p : σ → Bool} (h : (exec step E s as).any p = true) :
    ∃ tr t, Run (Steps step) E s tr t ∧ p t = true := by
  cases ht : exec step E s as with
  | none => simp [ht] at h
  | some t =>
    obtain ⟨tr, hrun, _⟩ := exists_run_of_exec ht
    exact ⟨tr, t, hrun, by simpa [ht] using h⟩

theorem run_of_execTrace {E : σ → α → Prop} [∀ s a, Decidable (E s a)] {s t : σ}
    {tr : List (σ × α)} {as : List α} (h : execTrace step E s as = some (tr, t)) :
    Run (Steps step) E s tr t := by
  induction as generalizing s tr with
  | nil =>
    simp only [execTrace, Option.some.injEq, Prod.mk.injEq] at h
    obtain ⟨rfl, rfl⟩ := h
    exact .nil s
  | cons a as ih =>
    simp only [execTrace] at h
    split at h
    · next he =>
      obtain ⟨u, hu, rest⟩ := Option.bind_eq_some_iff.mp h
      obtain ⟨⟨tr', t'⟩, hrest, same⟩ := Option.map_eq_some_iff.mp rest
      simp only [Prod.mk.injEq] at same
      obtain ⟨rfl, rfl⟩ := same
      exact (Run.single he hu).trans (ih hrest)
    · contradiction

theorem exists_run_of_execTrace_any {E : σ → α → Prop} [∀ s a, Decidable (E s a)] {s : σ}
    {as : List α} {p : List (σ × α) × σ → Bool} (h : (execTrace step E s as).any p = true) :
    ∃ tr t, Run (Steps step) E s tr t ∧ p (tr, t) = true := by
  obtain ⟨⟨tr, t⟩, ht, hp⟩ := (Option.any_eq_true _ _).mp h
  exact ⟨tr, t, run_of_execTrace ht, hp⟩

end Executable

end LibcameraStreamer.Library
