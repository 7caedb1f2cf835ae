import LibcameraStreamer.Buffers.AllocateBuffers
import LibcameraStreamer.Buffers.MakeRequests
import LibcameraStreamer.Invariants.Blocking

/-!
# The lookups of `completedRequestsProcessor`

For every completed request the thread looks up the buffer of the stream, the mappings of that
buffer and its first plane, and tests none of the results. What `allocateBuffers` and
`makeRequests` have built is never changed again: `ReuseRequest` keeps the buffers of a request.
-/
namespace LibcameraStreamer
open Library

/-! ## The pipeline with the requests themselves -/

/-- The request that `ReuseRequest` takes from `requestsToReuseQueue_` in the step. -/
def reused (s : State) : Action → Option Nat
  | .poll _ =>
    match s.poll, s.requestsToReuseQueue with
    | .reuseRequest _, r :: _ => some r
    | _, _ => none
  | _ => none

structure Circulation where
  pipeline : State
  /-- `requests_`. -/
  requests : List Request

/-- A step of the pipeline. `ReuseRequest` calls `reuse` on the request it has taken. -/
def circulate (cfg : Config) (c : Circulation) (a : Action) : Option Circulation :=
  (step cfg c.pipeline a).map fun s =>
    match reused c.pipeline a with
    | some r => ⟨s, c.requests.modify r (·.reuse .reuseBuffers)⟩
    | none => ⟨s, c.requests⟩

theorem circulate_cases {cfg : Config} {c d : Circulation} {a : Action}
    (h : circulate cfg c a = some d) :
    step cfg c.pipeline a = some d.pipeline ∧ d.requests = c.requests := by
  obtain ⟨s, goes, rfl⟩ := Option.map_eq_some_iff.mp h
  split
  · refine ⟨goes, List.ext_getElem? fun i => ?_⟩
    rw [List.getElem?_modify]
    cases c.requests[i]? <;> simp [Request.reuse]
  · exact ⟨goes, rfl⟩

abbrev CirculationRun (cfg : Config) (E : Circulation → Action → Prop) (requests : List Request)
    (tr : List (Circulation × Action)) (c : Circulation) : Prop :=
  Run (Steps (circulate cfg)) E ⟨initial cfg, requests⟩ tr c

section Runs

variable {cfg : Config} {E : Circulation → Action → Prop} {requests : List Request}
  {tr : List (Circulation × Action)} {c : Circulation}

/-- Without its requests it is a run of the pipeline. -/
theorem CirculationRun.pipeline (run : CirculationRun cfg E requests tr c) :
    PipelineRun cfg (fun _ _ => True) (image (·.pipeline) (fun _ a => some a) tr) c.pipeline :=
  run.simulation (·.pipeline) (fun _ a => some a) (fun _ _ _ _ h => (circulate_cases h).1)
    fun _ _ _ _ _ => trivial

theorem CirculationRun.requests_eq (run : CirculationRun cfg E requests tr c) :
    c.requests = requests :=
  run.invariant (fun c => c.requests = requests) rfl fun _ _ _ inv _ h =>
    (circulate_cases h).2.trans inv

/-- The frame that is completed is one of the request in `requestComplete`. -/
theorem completed_request {s : State} {a : Action} {f : Frame} (h : completed s a = some f) :
    f.request ∈ s.callback.request := by
  revert h
  fun_cases completed s a
  case case1 r point =>
    rintro ⟨⟩
    simp [point, CallbackPoint.request]
  all_goals simp

/-- The frames between the camera and the encoder are of requests of the camera. -/
theorem PipelineRun.uncoded_lt {E : State → Action → Prop} {tr : List (State × Action)} {s : State}
    (run : PipelineRun cfg E tr s) : ∀ f ∈ s.uncoded, f.request < cfg.requests := by
  refine run.reachable.invariant (fun s => ∀ f ∈ s.uncoded, f.request < cfg.requests)
    (by simp [State.uncoded, initial, ProcessorPoint.frame]) fun s a t inv before h f member => ?_
  obtain ⟨⟨_, reached⟩, -⟩ := before
  have old_or_new := ((step_cases h).2.uncoded (PipelineRun.phase reached)).subset member
  rcases List.mem_append.mp old_or_new with old | new
  · exact inv f old
  · refine (PipelineRun.withCamera_nodup reached).2 _ ?_
    simp [State.withCamera, completed_request (Option.mem_toList.mp new)]

end Runs

/-! ## What the constructor has built -/

variable {calls : BufferCalls} {allocated : List FrameBuffer} {s : Allocating}

/-- With a single stream, the `r`-th request has the `r`-th frame buffer. -/
theorem makeRequests_carries {w : CameraBuffers} {stream fuel : Nat} {t : Requesting}
    (noRequests : w.requests = [])
    (makes : makeRequests calls [stream] w fuel = some (.exit t)) :
    SameBuffers w t.members ∧ t.members.requests.length = w.frameBuffers.length ∧
      ∀ (r : Nat) request, t.members.requests[r]? = some request →
        getFrameBufferForRequest [stream] request = w.frameBuffers[r]? := by
  obtain ⟨result, made, runs⟩ := makeRequests_terminates calls (List.cons_ne_nil stream [])
    (List.nodup_singleton _) noRequests
  obtain rfl : result = .exit t := by
    have long := loop_mono (Nat.le_add_right fuel (w.frameBuffers.length + 1)) makes
    exact Option.some.inj ((runs _ (by omega)).symm.trans long)
  refine ⟨made.1, by simpa using congrArg List.length made.2.2, fun r request here => ?_⟩
  rw [getFrameBufferForRequest, (made.dealt here).1]
  simpa using lookup_deal (List.nodup_singleton stream) w.frameBuffers r (i := 0) (by simp)

theorem Allocated.mapped {w : CameraBuffers} (inv : Allocated calls allocated w)
    {buffer : FrameBuffer} (member : buffer ∈ allocated) (planes : buffer.planes ≠ []) :
    ∃ span spans, w.mappedBuffers buffer.address = some (span :: spans) := by
  have maps := inv.maps buffer member
  cases here : w.mappedBuffers buffer.address with
  | none =>
    rw [CameraBuffers.mmap, here, Option.getD_none, List.forall₂_nil_right_iff, planeGroups,
      List.splitBy_eq_nil] at maps
    contradiction
  | some spans =>
    cases spans with
    | nil =>
      rw [CameraBuffers.mmap, here, Option.getD_some, List.forall₂_nil_right_iff, planeGroups,
        List.splitBy_eq_nil] at maps
      contradiction
    | cons span spans => exact ⟨span, spans, rfl⟩

/-! ## The lookups -/

/-- In every run with the requests that the constructor has made: a request that is returned by
`WaitForCompletedRequest` has a buffer for the stream, which is mapped and has a first plane, and
no two requests have the same buffer. -/
theorem lookups_succeed {stream fuel : Nat} {w : Requesting} {cfg : Config}
    {E : Circulation → Action → Prop} {tr : List (Circulation × Action)} {c : Circulation}
    (distinct : (allocated.map (·.address)).Nodup)
    (planes : ∀ buffer ∈ allocated, buffer.planes ≠ [])
    (allocates : allocateBuffers calls allocated .empty = .next s)
    (makes : makeRequests calls [stream] s.members fuel = some (.exit w))
    (all : cfg.requests = w.members.requests.length)
    (run : CirculationRun cfg E w.members.requests tr c) :
    (∀ f, c.pipeline.processor = .lookup f →
      ∃ request buffer span plane, c.requests[f.request]? = some request ∧
        getFrameBufferForRequest [stream] request = some buffer ∧
        (w.members.mappedBuffers buffer.address).isSome ∧
        (w.members.mmap buffer)[0]? = some span ∧ buffer.planes[0]? = some plane) ∧
    ∀ (q r : Nat) (request other : Request), q ≠ r → c.requests[q]? = some request →
      c.requests[r]? = some other →
      getFrameBufferForRequest [stream] request ≠ getFrameBufferForRequest [stream] other := by
  have inv := Allocated.of_allocateBuffers distinct allocates
  obtain ⟨⟨frameBuffers, mappedBuffers⟩, length, carries⟩ := makeRequests_carries inv.requests makes
  rw [inv.frameBuffers] at length carries
  rw [run.requests_eq]
  refine ⟨fun f point => ?_, fun q r request other differ hq hr same => differ ?_⟩
  · have bound : f.request < allocated.length := by
      rw [← length, ← all]
      exact run.pipeline.uncoded_lt f (by simp [State.uncoded, point, ProcessorPoint.frame])
    have here := List.getElem?_eq_getElem (length ▸ bound : f.request < w.members.requests.length)
    obtain ⟨span, spans, mapped⟩ := inv.mapped (List.getElem_mem bound)
      (planes _ (List.getElem_mem bound))
    obtain ⟨plane, rest, first⟩ := List.exists_cons_of_ne_nil (planes _ (List.getElem_mem bound))
    refine ⟨_, allocated[f.request], span, plane, here, ?_, ?_, ?_, ?_⟩
    · rw [carries _ _ here, List.getElem?_eq_getElem bound]
    · simp [mappedBuffers, mapped]
    · simp [CameraBuffers.mmap, mappedBuffers, mapped]
    · simp [first]
  · rw [carries _ _ hq, carries _ _ hr] at same
    have inside : q < allocated.length := length ▸ (List.getElem?_eq_some_iff.mp hq).1
    exact (List.getElem?_inj inside distinct.of_map).mp same

/-- Two buffers; the request of the second is the first to be completed. -/
theorem lookups_succeed_after_completion :
    ∃ w : Requesting, ∃ tr c,
      CirculationRun (Config.sample 2 1 1) (fun _ _ => True) w.members.requests tr c ∧
      c.pipeline.processor = .lookup ⟨1, 0⟩ ∧ ∃ request buffer span,
        c.requests[1]? = some request ∧ getFrameBufferForRequest [7] request = some buffer ∧
        (w.members.mmap buffer)[0]? = some span := by
  have allocates : allocateBuffers ⟨2, fun _ => true, fun _ => true, fun _ _ => 0⟩
      [⟨16, [⟨20, 0, 64⟩]⟩, ⟨32, [⟨21, 0, 64⟩]⟩] .empty = .next (allocateBuffers
        ⟨2, fun _ => true, fun _ => true, fun _ _ => 0⟩
        [⟨16, [⟨20, 0, 64⟩]⟩, ⟨32, [⟨21, 0, 64⟩]⟩] .empty).state := rfl
  have makes : makeRequests ⟨2, fun _ => true, fun _ => true, fun _ _ => 0⟩ [7]
      (allocateBuffers ⟨2, fun _ => true, fun _ => true, fun _ _ => 0⟩
        [⟨16, [⟨20, 0, 64⟩]⟩, ⟨32, [⟨21, 0, 64⟩]⟩] .empty).state.members 3 =
      some (.exit _) := rfl
  have performed : (exec (circulate (.sample 2 1 1)) (fun _ _ => True)
      ⟨initial (.sample 2 1 1),
        [⟨[(7, ⟨16, [⟨20, 0, 64⟩]⟩)], by simp⟩, ⟨[(7, ⟨32, [⟨21, 0, 64⟩]⟩)], by simp⟩]⟩
      (startUp (.sample 2 1 1) ++ capture 1 ++ [.processor {}, .processor {}])).any
        (fun c => c.pipeline.processor == .lookup ⟨1, 0⟩) = true := by decide
  obtain ⟨tr, c, run, point⟩ := exists_run_of_exec_any performed
  have lookup : c.pipeline.processor = .lookup ⟨1, 0⟩ := by simpa using point
  obtain ⟨request, buffer, span, -, found, carries, -, mapped, -⟩ :=
    (lookups_succeed (by decide) (by simp) allocates makes rfl run).1 _ lookup
  exact ⟨_, tr, c, run, lookup, request, buffer, span, found, carries, mapped⟩

end LibcameraStreamer
