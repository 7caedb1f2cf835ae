import LibcameraStreamer.Library.LossyQueue

/-!
# A queue as a list

What a queue between two threads is for: elements are put in at one end and taken out at the
other, each in one atomic step, and a look that finds nothing is only possible when nothing is
inside.
-/
namespace LibcameraStreamer.Library.Fifo

variable {α : Type*}

inductive Op (α : Type*) where
  | put (x : α)
  | take (x : α)
  /-- A look that finds the queue empty. -/
  | miss
  deriving DecidableEq, Repr

inductive Step : List α → Op α → List α → Prop where
  | put (l : List α) (x : α) : Step l (.put x) (l ++ [x])
  | take (x : α) (l : List α) : Step (x :: l) (.take x) l
  | miss : Step [] .miss []

theorem Step.of_put {l l' : List α} {x : α} (h : Step l (.put x) l') : l' = l ++ [x] := by
  cases h
  rfl

theorem Step.of_take {l l' : List α} {x : α} (h : Step l (.take x) l') : l = x :: l' := by
  cases h
  rfl

theorem Step.of_miss {l l' : List α} (h : Step l .miss l') : l = [] ∧ l' = [] := by
  cases h
  exact ⟨rfl, rfl⟩

abbrev Runs (l : List α) (tr : List (List α × Op α)) (l' : List α) : Prop :=
  Run Step (fun _ _ => True) l tr l'

def Op.value? : Op α → Option α
  | .put x => some x
  | _ => none

def Op.taken? : Op α → Option α
  | .take x => some x
  | _ => none

/-- The elements put in, in their order. -/
def puts (ops : List (Op α)) : List α := ops.filterMap Op.value?

/-- The elements taken out, in their order. -/
def takes (ops : List (Op α)) : List α := ops.filterMap Op.taken?

@[simp] theorem puts_append (ops ops' : List (Op α)) : puts (ops ++ ops') = puts ops ++ puts ops' :=
  List.filterMap_append

@[simp] theorem takes_append (ops ops' : List (Op α)) :
    takes (ops ++ ops') = takes ops ++ takes ops' := List.filterMap_append

theorem Step.lossy {l l' : List α} {op : Op α} (h : Step l op l') :
    LossyStep l op.taken? none op.value? l' := by
  cases h with
  | put x => exact .enters rfl
  | take x => exact .leaves rfl
  | miss => exact .idle rfl

/-- What was taken out, followed by what is inside, is what was put in. -/
theorem Runs.puts_eq {l : List α} {tr : List (List α × Op α)} (run : Runs [] tr l) :
    puts (tr.map Prod.snd) = takes (tr.map Prod.snd) ++ l := by
  have order := Run.fifo run id (fun _ op => op.taken?) (fun _ op => op.value?) rfl
    fun _ _ _ _ step => step.lossy
  simpa [log, puts, takes, List.filterMap_map, Function.comp_def] using order

end LibcameraStreamer.Library.Fifo
