import LibcameraStreamer.Invariants.Captures
import LibcameraStreamer.Invariants.Recycling

/-!
# Calls that fail after a token is taken

`EncodeBuffer`, `OutputDone` and `ReuseRequest` take a token and hand it to the driver or the
camera. When the call fails, `OutputDone` throws and its item is still there, `EncodeBuffer`
throws and the index it had taken is nobody's, and `ReuseRequest` goes on as if the camera had
the request.

The two exceptions end the threads of `LibcameraStreamer`. Here their callers catch them, so that
a run can go on after a failure: the one takes the next request, the other, which still holds
the item, calls `OutputDone` again.
-/
namespace LibcameraStreamer
open Library

/-! ## Callers that catch the exceptions -/

def caught (s : State) : Action → Option State
  | .processor _ =>
    match s.processor with
    | .threw _ _ => some { s with processor := .loopTest }
    | _ => none
  | .output _ =>
    match s.output with
    | .threw item => some { s with output := .outputDone item }
    | _ => none
  | _ => none

def catchingStep (cfg : Config) (s : State) (a : Action) : Option State :=
  match s.fault with
  | some _ => none
  | none => (caught s a).or (step cfg s a)

/-- A run in which the exceptions are caught. -/
abbrev CatchingRun (cfg : Config) (E : State → Action → Prop) (tr : List (State × Action))
    (s : State) : Prop :=
  Run (Steps (catchingStep cfg)) E (initial cfg) tr s

inductive Catches (s : State) : Action → State → Prop where
  | encodeBuffer (ans : Answers) (index : Nat) (f : Frame)
      (point : s.processor = .threw index f) :
      Catches s (.processor ans) { s with processor := .loopTest }
  | outputDone (ans : Answers) (item : OutputItem) (point : s.output = .threw item) :
      Catches s (.output ans) { s with output := .outputDone item }

theorem caught_cases {s t : State} {a : Action} (h : caught s a = some t) : Catches s a t := by
  unfold caught at h
  split at h
  · split at h
    · next ans _ index f point => cases h; exact .encodeBuffer ans index f point
    · contradiction
  · split at h
    · next ans _ item point => cases h; exact .outputDone ans item point
    · contradiction
  · contradiction

theorem catchingStep_cases {cfg : Config} {s t : State} {a : Action}
    (h : catchingStep cfg s a = some t) : Catches s a t ∨ Transition cfg s a t := by
  unfold catchingStep at h
  split at h
  · contradiction
  · rcases Option.or_eq_some_iff.mp h with here | ⟨-, here⟩
    · exact .inl (caught_cases here)
    · exact .inr (step_cases here).2

/-! ## The failing calls -/

/-- The index with which `VIDIOC_QBUF` fails in `EncodeBuffer`. -/
def failedEncode (s : State) : Action → Option Nat
  | .processor ans =>
    match s.processor, xioctl ans.replies with
    | .queueOutput index .., some (-1) => some index
    | _, _ => none
  | _ => none

/-- The item with which `VIDIOC_QBUF` fails in `OutputDone`. -/
def failedOutputDone (s : State) : Action → Option OutputItem
  | .output ans =>
    match s.output, xioctl ans.replies with
    | .outputDone item, some (-1) => some item
    | _, _ => none
  | _ => none

/-- The request that the camera refuses in `ReuseRequest`. -/
def refusedReuse (s : State) : Action → Option Nat
  | .poll ans =>
    match s.poll, s.camera with
    | .queueRequest r, some _ => if ans.queueRequest < 0 then some r else none
    | _, _ => none
  | _ => none

/-- The request with which `requestComplete` returns at once, because it is cancelled. -/
def cancelled (s : State) : Action → Option Nat
  | .callback =>
    match s.callback with
    | .requestComplete r .requestCancelled => some r
    | _ => none
  | _ => none

/-- A call fails in the step and leaves its token with nobody. -/
def losesToken (s : State) (a : Action) : Bool :=
  (failedEncode s a).isSome || (refusedReuse s a).isSome

/-- What a failing call owes its caller: an exception, and the token where it can be used. -/
structure Recovers (s : State) (a : Action) (t : State) : Prop where
  encodeBuffer : ∀ index, failedEncode s a = some index →
    (∃ f, t.processor = .threw index f) ∧ index ∈ t.availableInputBuffers
  outputDone : ∀ item, failedOutputDone s a = some item →
    t.output = .threw item ∧ item ∈ t.items ∧ item.index ∉ t.captureQueued
  reuseRequest : ∀ r, refusedReuse s a = some r →
    (∃ what, t.poll = .threw what) ∧ r ∈ t.requestsToReuseQueue

/-- The index that `EncodeBuffer` is about to queue. -/
def ProcessorPoint.taken : ProcessorPoint → List Nat
  | .queueOutput index .. => [index]
  | _ => []

/-- Every index and every request that is not cancelled is at a place from which it is used. -/
structure TokensIntact (cfg : Config) (cancelled : List Nat) (s : State) : Prop where
  inputs : Partitions [s.availableInputBuffers, s.processor.taken, s.outputHeld, s.poll.slot]
    (List.range (s.main.inputsIssued cfg))
  captures : Partitions [s.captureQueued, s.captureFinished.map (·.index),
    s.poll.item.map (·.index), s.outputItemsQueue.map (·.index), s.output.item.map (·.index)]
    (List.range (s.main.capturesIssued cfg))
  requests : Partitions [s.withCamera cfg, s.requestsToReuseQueue, s.callback.owed, cancelled]
    (List.range cfg.requests)

/-! ## What is kept when the exceptions are caught -/

section Steps

variable {cfg : Config} {s t : State} {a : Action}

theorem Catches.phase (h : Catches s a t) (inv : Phase s) : Phase t := by
  cases h with
  | encodeBuffer ans index f point =>
    exact { inv with processor := inv.processor.own (by simp [point]) (by simp) (by simp) }
  | outputDone ans item point =>
    exact { inv with output := inv.output.own (by simp [point]) (by simp) (by simp) }

theorem Catches.captures (h : Catches s a t) (inv : Captures cfg s) : Captures cfg t := by
  cases h with
  | encodeBuffer => exact { inv with }
  | outputDone ans item point =>
    refine { inv with owners := ?_, mem := ?_ }
    · simpa [point, OutputPoint.item] using inv.owners
    · simpa [point, State.items, OutputPoint.item, OutputPoint.spent] using inv.mem

/-- The indices at their places. -/
def State.inputTokens (s : State) : List Nat := s.inputsElsewhere ++ s.processor.taken

theorem ProcessorStep.inputTokens {ans : Answers} (h : ProcessorStep cfg ans s t) (x : Nat) :
    t.inputTokens.count x + (failedEncode s (.processor ans)).toList.count x =
      s.inputTokens.count x := by
  cases h
  case takeIndex f fd size ts index rest point queue =>
    simp [State.inputTokens, State.inputsElsewhere, State.outputHeld, ProcessorPoint.taken,
      failedEncode, point, queue, List.count_cons]
    omega
  case queueOutput index f fd size ts point ok =>
    simp [State.inputTokens, State.inputsElsewhere, State.outputHeld, ProcessorPoint.taken,
      failedEncode, point, ok, List.count_cons]
    omega
  case throw index f fd size ts point failed =>
    simp [State.inputTokens, State.inputsElsewhere, State.outputHeld, ProcessorPoint.taken,
      failedEncode, point, failed, List.count_cons]
    omega
  all_goals
    simp [State.inputTokens, State.inputsElsewhere, State.outputHeld, ProcessorPoint.taken,
      failedEncode, *]

theorem Transition.inputTokens (h : Transition cfg s a t) (phase : Phase s) (x : Nat) :
    t.inputTokens.count x + (failedEncode s a).toList.count x +
        (List.range (s.main.inputsIssued cfg)).count x =
      s.inputTokens.count x + (List.range (t.main.inputsIssued cfg)).count x := by
  by_cases own : ∃ ans, a = .processor ans
  · obtain ⟨ans, rfl⟩ := own
    cases h with
    | processor ans h =>
      have main : t.main = s.main := by rw [h.frame]
      rw [h.inputTokens, main]
  · have other : ∀ ans, a ≠ .processor ans := fun ans here => own ⟨ans, here⟩
    obtain ⟨kept, processor⟩ := h.inputsKept phase other
    have taken : t.processor.taken = s.processor.taken := by
      rcases processor with same | ⟨before, after⟩
      · rw [same]
      · simp [before, after, ProcessorPoint.taken]
    have none : failedEncode s a = none := by cases a <;> simp_all [failedEncode]
    have := kept x
    simp only [State.inputTokens, List.count_append, taken, none, Option.toList_none,
      List.count_nil]
    omega

/-- The requests at their places. -/
def State.requestTokens (cfg : Config) (s : State) : List Nat :=
  s.withCamera cfg ++ (s.requestsToReuseQueue ++ s.callback.owed)

/-- The request that leaves all places in the step. -/
def retired (s : State) (a : Action) : Option Nat := (cancelled s a).or (refusedReuse s a)

theorem recyclerOp_lost (s : State) (a : Action) :
    (recyclerOp s a).elim 0 Recycler.Op.lost = ((retired s a).toList : Multiset Nat) := by
  fun_cases recyclerOp s a
  case case4 ans =>
    cases skipped s (.processor ans) <;>
      simp [retired, cancelled, refusedReuse, Recycler.Op.lost]
  case case6 =>
    rename_i ans r point refused
    obtain ⟨camera, alive⟩ := Option.ne_none_iff_exists'.mp refused.1
    simp [retired, cancelled, refusedReuse, Recycler.Op.lost, point, alive, refused.2]
  case case7 =>
    rename_i ans r point accepted
    cases alive : s.camera with
    | none => simp [retired, cancelled, refusedReuse, point, alive]
    | some camera =>
      have ok : ¬ ans.queueRequest < 0 := fun failed => accepted ⟨by simp [alive], failed⟩
      simp [retired, cancelled, refusedReuse, point, alive, ok]
  case case8 =>
    rename_i ans elsewhere _
    cases point : s.poll <;> simp_all [retired, cancelled, refusedReuse]
  all_goals simp [retired, cancelled, refusedReuse, Recycler.Op.lost, *]

theorem Transition.requestTokens (h : Transition cfg s a t) (phase : Phase s) (x : Nat) :
    (t.requestTokens cfg).count x + (retired s a).toList.count x =
      (s.requestTokens cfg).count x := by
  have total : ((retired s a).toList : Multiset Nat) + (t.requestTokens cfg : Multiset Nat) =
      s.requestTokens cfg := by
    have recycles := h.recycles phase
    rw [← recyclerOp_lost]
    cases op : recyclerOp s a with
    | none =>
      rw [Recycles, Simulates, op] at recycles
      have idle := congrArg Recycler.idle recycles
      have owed := congrArg Recycler.owed recycles
      simp only [recycler] at idle owed
      simp [State.requestTokens, ← Multiset.coe_add, idle, owed]
    | some o =>
      rw [Recycles, Simulates, op] at recycles
      simpa [recycler, State.requestTokens, ← Multiset.coe_add] using recycles.total
  have := congrArg (Multiset.count x) total
  simp only [Multiset.count_add, Multiset.coe_count] at this
  omega

/-! ## One failing call -/

theorem failedEncode_step (h : catchingStep cfg s a = some t) {index : Nat}
    (fails : failedEncode s a = some index) :
    index ∈ s.processor.taken ∧ t.availableInputBuffers = s.availableInputBuffers := by
  cases a with
  | processor ans =>
    simp only [failedEncode] at fails
    split at fails
    · next point failed =>
      cases fails
      refine ⟨by simp [point, ProcessorPoint.taken], ?_⟩
      rcases catchingStep_cases h with h | h
      · cases h with | encodeBuffer ans index f threw => simp [threw] at point
      · cases h with | processor ans h => cases h <;> simp_all
    · contradiction
  | _ => simp [failedEncode] at fails

theorem failedOutputDone_step (h : catchingStep cfg s a = some t) {item : OutputItem}
    (fails : failedOutputDone s a = some item) :
    s.output = .outputDone item ∧ t = { s with output := .threw item } := by
  cases a with
  | output ans =>
    simp only [failedOutputDone] at fails
    split at fails
    · next point failed =>
      cases fails
      refine ⟨point, ?_⟩
      rcases catchingStep_cases h with h | h
      · cases h with | outputDone ans item threw => simp [threw] at point
      · cases h with | output ans h => cases h <;> simp_all
    · contradiction
  | _ => simp [failedOutputDone] at fails

theorem refusedReuse_step (h : catchingStep cfg s a = some t) {r : Nat}
    (fails : refusedReuse s a = some r) : t.poll = .dequeueCapture := by
  cases a with
  | poll ans =>
    simp only [refusedReuse] at fails
    split at fails
    · next q camera point alive =>
      rcases catchingStep_cases h with h | h
      · cases h
      · cases h with | poll ans h => cases h <;> simp_all
    · contradiction
  | _ => simp [refusedReuse] at fails

end Steps

section Runs

variable {cfg : Config} {E : State → Action → Prop} {tr : List (State × Action)} {s : State}

theorem CatchingRun.captures (run : CatchingRun cfg E tr s) : Phase s ∧ Captures cfg s := by
  refine run.invariant (fun s => Phase s ∧ Captures cfg s)
    ⟨phase_initial cfg, captures_initial cfg⟩ fun s a t inv _ h => ?_
  rcases catchingStep_cases h with h | h
  · exact ⟨h.phase inv.1, h.captures inv.2⟩
  · exact ⟨h.phase inv.1, h.captures inv.1 inv.2⟩

theorem CatchingRun.withPhase (run : CatchingRun cfg E tr s) :
    CatchingRun cfg (fun s a => Phase s ∧ E s a) tr s :=
  run.strengthen Phase (phase_initial cfg) fun _ _ _ inv _ h =>
    (catchingStep_cases h).elim (·.phase inv) (·.phase inv)

/-- The missing indices are those with which `EncodeBuffer` has failed. -/
theorem CatchingRun.inputs (run : CatchingRun cfg E tr s) :
    (s.inputTokens ++ log failedEncode tr).Perm (List.range (s.main.inputsIssued cfg)) := by
  refine run.withPhase.leaks State.inputTokens (fun s => List.range (s.main.inputsIssued cfg))
    failedEncode ?_ fun s a t ok h x => ?_
  · simp [State.inputTokens, State.inputsElsewhere, State.outputHeld, initial, PollPoint.slot,
      ProcessorPoint.taken, MainPoint.inputsIssued]
  · rcases catchingStep_cases h with h | h
    · cases h <;> simp [State.inputTokens, State.inputsElsewhere, State.outputHeld,
        ProcessorPoint.taken, failedEncode, *]
    · exact h.inputTokens ok.1 x

/-- The missing requests are those that the camera has cancelled or refused. -/
theorem CatchingRun.requests (run : CatchingRun cfg E tr s) :
    (s.requestTokens cfg ++ log retired tr).Perm (List.range cfg.requests) := by
  refine run.withPhase.leaks (State.requestTokens cfg) (fun _ => List.range cfg.requests)
    retired ?_ fun s a t ok h x => ?_
  · simp [State.requestTokens, State.withCamera, initial, MainPoint.unqueued,
      CallbackPoint.request, CallbackPoint.owed, PollPoint.request]
  · rcases catchingStep_cases h with h | h
    · cases h <;> simp [State.requestTokens, State.withCamera, retired, cancelled, refusedReuse]
    · rw [h.requestTokens ok.1 x]

theorem log_retired_perm (tr : List (State × Action)) :
    (log retired tr).Perm (log cancelled tr ++ log refusedReuse tr) :=
  log_or_perm cancelled refusedReuse (fun s a => by cases a <;> simp [cancelled, refusedReuse]) tr

theorem losesToken_iff (tr : List (State × Action)) :
    (∀ x ∈ tr, losesToken x.1 x.2 = false) ↔
      log failedEncode tr = [] ∧ log refusedReuse tr = [] := by
  simp only [losesToken, Bool.or_eq_false_iff, Option.isSome_eq_false_iff,
    Option.isNone_iff_eq_none, log_eq_nil_iff]
  exact forall₂_and

theorem CatchingRun.tokensIntact_iff (run : CatchingRun cfg E tr s) :
    TokensIntact cfg (log cancelled tr) s ↔ ∀ x ∈ tr, losesToken x.1 x.2 = false := by
  have inputs := run.inputs
  have requests := run.requests.symm.trans ((log_retired_perm tr).append_left _)
  rw [losesToken_iff]
  constructor
  · intro intact
    have allInputs := intact.inputs.length
    have allRequests := intact.requests.length
    have someInputs := inputs.length_eq
    have someRequests := requests.length_eq
    simp only [State.inputTokens, State.inputsElsewhere, State.requestTokens, List.length_append,
      List.length_range, List.map_cons, List.map_nil, List.sum_cons, List.sum_nil]
      at allInputs allRequests someInputs someRequests
    exact ⟨List.length_eq_zero_iff.mp (by omega), List.length_eq_zero_iff.mp (by omega)⟩
  · rintro ⟨encodes, refusals⟩
    rw [encodes, List.append_nil] at inputs
    rw [refusals, List.append_nil] at requests
    refine ⟨?_, run.captures.2.owners, ?_⟩
    · refine List.Perm.trans (List.perm_iff_count.mpr fun x => ?_) inputs
      simp [State.inputTokens, State.inputsElsewhere]
      omega
    · refine List.Perm.trans (List.perm_iff_count.mpr fun x => ?_) requests.symm
      simp [State.requestTokens]

/-- The index in the hands of `EncodeBuffer` is not available at the same time. -/
theorem CatchingRun.taken_disjoint (run : CatchingRun cfg E tr s) :
    s.availableInputBuffers.Disjoint s.processor.taken := by
  have distinct := (run.inputs.nodup_iff).mpr List.nodup_range
  have tokens := (List.nodup_append.mp distinct).1
  have apart := (List.nodup_append.mp tokens).2.2
  intro index available taken
  exact apart index (List.mem_append_left _ available) index taken rfl

theorem CatchingRun.recovers_iff (run : CatchingRun cfg E tr s) {a : Action} {t : State}
    (h : catchingStep cfg s a = some t) : Recovers s a t ↔ losesToken s a = false := by
  constructor
  · intro recovers
    have encode : failedEncode s a = none := by
      by_contra fails
      obtain ⟨index, fails⟩ := Option.ne_none_iff_exists'.mp fails
      obtain ⟨taken, available⟩ := failedEncode_step h fails
      exact run.taken_disjoint (available ▸ (recovers.encodeBuffer index fails).2) taken
    have reuse : refusedReuse s a = none := by
      by_contra fails
      obtain ⟨r, fails⟩ := Option.ne_none_iff_exists'.mp fails
      obtain ⟨what, threw⟩ := (recovers.reuseRequest r fails).1
      rw [refusedReuse_step h fails] at threw
      contradiction
    simp [losesToken, encode, reuse]
  · intro keeps
    simp only [losesToken, Bool.or_eq_false_iff, Option.isSome_eq_false_iff,
      Option.isNone_iff_eq_none] at keeps
    refine ⟨fun index fails => ?_, fun item fails => ?_, fun r fails => ?_⟩
    · simp [keeps.1] at fails
    · obtain ⟨point, rfl⟩ := failedOutputDone_step h fails
      refine ⟨rfl, by simp [State.items, OutputPoint.item], fun queued => ?_⟩
      have disjoint := (run.captures.2.owners.nodup List.nodup_range).2
      simp only [List.pairwise_cons, List.mem_cons, forall_eq_or_imp] at disjoint
      exact disjoint.1.2.2.2.1 queued (by simp [point, OutputPoint.item])
    · simp [keeps.2] at fails

/-- After any number of failures, every token is at a place from which it is used if and only if
the failures were none of `EncodeBuffer` and of `ReuseRequest`; and a failing call is reported
with its token kept if and only if it is not theirs. -/
theorem failed_calls_recover_iff (run : CatchingRun cfg E tr s) :
    (TokensIntact cfg (log cancelled tr) s ↔ ∀ x ∈ tr, losesToken x.1 x.2 = false) ∧
    ∀ a t, catchingStep cfg s a = some t → (Recovers s a t ↔ losesToken s a = false) :=
  ⟨run.tokensIntact_iff, fun _ _ h => run.recovers_iff h⟩

end Runs

/-- One `VIDIOC_QBUF` of `EncodeBuffer` fails: the only index is nowhere any more. -/
theorem failed_encode_loses_index :
    ∃ tr s, CatchingRun (.sample 1 1 1) (fun _ _ => True) tr s ∧ s.processor = .loopTest ∧
      s.availableInputBuffers = [] ∧ s.outputHeld = [] ∧ s.poll = .loopTest ∧
      ¬ TokensIntact (.sample 1 1 1) (log cancelled tr) s := by
  have performed : (exec (catchingStep (.sample 1 1 1)) (fun _ _ => True)
      (initial (.sample 1 1 1)) (startUp (.sample 1 1 1) ++ capture 0 ++
        List.replicate 4 (.processor {}) ++
        [.processor { replies := [.failure (.other 5)] }, .processor {}])).any (fun s =>
      s.main = .running ∧ s.processor = .loopTest ∧ s.availableInputBuffers = [] ∧
        s.outputHeld = [] ∧ s.poll = .loopTest) = true := by decide +kernel
  obtain ⟨tr, s, run, ends⟩ := exists_run_of_exec_any performed
  obtain ⟨main, processor, available, held, poll⟩ := of_decide_eq_true ends
  refine ⟨tr, s, run, processor, available, held, poll, fun intact => ?_⟩
  have length := intact.inputs.length
  simp [main, processor, available, held, poll, ProcessorPoint.taken, PollPoint.slot,
    MainPoint.inputsIssued, Config.sample] at length

/-- `OutputDone` has failed; its exception is on the way to the caller. -/
theorem failed_calls_recover_iff_in_output_done :
    ∃ tr s item, CatchingRun (.sample 1 1 1) (fun s a => losesToken s a = false) tr s ∧
      s.output = .threw item ∧ TokensIntact (.sample 1 1 1) (log cancelled tr) s := by
  have performed : (exec (catchingStep (.sample 1 1 1)) (fun s a => losesToken s a = false)
      (initial (.sample 1 1 1)) (startUp (.sample 1 1 1) ++ capture 0 ++ encodeRound ++
        [.driver (.encode 4096 true)] ++ pollRound ++ List.replicate 3 (.output {}) ++
        [.output { replies := [.failure (.other 5)] }])).any (fun s =>
      s.output = .threw ⟨0, 524288, 4096, 524288, 0, true, 0, ⟨0, 0⟩⟩) = true := by
    decide +kernel
  obtain ⟨tr, s, run, ends⟩ := exists_run_of_exec_any performed
  exact ⟨tr, s, _, run, of_decide_eq_true ends,
    (failed_calls_recover_iff run).1.mpr run.forall_mem⟩

end LibcameraStreamer
