import LibcameraStreamer.Library.Dealing
import LibcameraStreamer.Model.Buffers

/-!
# The requests that `makeRequests` builds

Each round of `while (true)` deals one frame buffer to every stream. The loop over the streams
returns at the first stream when no buffer is left, and throws at a later one.
-/
namespace LibcameraStreamer
open Library

variable {calls : BufferCalls} {configuration : List Nat} {w : CameraBuffers}

/-- `createRequest` returns a request, and `addBuffer` never fails. -/
structure BufferCalls.Succeed (calls : BufferCalls) : Prop where
  createRequest : ∀ k, calls.createRequest k = true
  addBuffer : ∀ stream buffer, 0 ≤ calls.addBuffer stream buffer

def mismatch : Failure :=
  .runtimeError "concurrent streams need matching numbers of buffers"

/-- Nothing but `requests_` has changed. -/
def SameBuffers (w w' : CameraBuffers) : Prop :=
  w'.frameBuffers = w.frameBuffers ∧ w'.mappedBuffers = w.mappedBuffers

/-- One buffer more for the last request, or the exception when `addBuffer` fails. -/
theorem addFreeBuffer_eq {stream : Nat} {s : Requesting} {buffer : FrameBuffer}
    {rest : List FrameBuffer} {before : List Request} {request : Request}
    (free : s.freeBuffers = buffer :: rest) (requests : s.members.requests = before ++ [request])
    (fresh : stream ∉ request.buffers.map Prod.fst) :
    addFreeBuffer calls stream s =
      if calls.addBuffer stream buffer < 0 then
        .raise (.runtimeError "failed to add buffer to request") { s with freeBuffers := rest }
      else .next {
        members := { s.members with requests := before ++ [request.insert stream buffer fresh] }
        freeBuffers := rest } := by
  by_cases failed : calls.addBuffer stream buffer < 0 <;>
    simp [addFreeBuffer, free, requests, Request.addBuffer, fresh, failed]

/-- How the loop over the streams after the first can end, with the buffers of the last request
and the free buffers at its begin. -/
def Served (calls : BufferCalls) (w : CameraBuffers) (before : List Request) (streams : List Nat)
    (dealt : List (Nat × FrameBuffer)) (free : List FrameBuffer) : Flow Failure Requesting → Prop
  | .next t => SameBuffers w t.members ∧ streams.length ≤ free.length ∧
      t.freeBuffers = free.drop streams.length ∧
      ∃ request, t.members.requests = before ++ [request] ∧
        request.buffers = dealt ++ streams.zip free
  | .exit _ => False
  | .raise e t => SameBuffers w t.members ∧
      (calls.Succeed → e = mismatch ∧ free.length < streams.length)

theorem forEach_addStream (calls : BufferCalls) {streams : List Nat} {before : List Request}
    {request : Request} {s : Requesting}
    (later : ∀ stream ∈ streams, configuration.head? ≠ some stream) (distinct : streams.Nodup)
    (fresh : ∀ stream ∈ streams, stream ∉ request.buffers.map Prod.fst)
    (same : SameBuffers w s.members) (requests : s.members.requests = before ++ [request]) :
    Served calls w before streams request.buffers s.freeBuffers
      (forEach (addStream calls configuration) streams s) := by
  induction streams generalizing s request with
  | nil => exact ⟨same, by simp, by simp, request, requests, by simp⟩
  | cons stream streams ih =>
    obtain ⟨unique, distinct⟩ := List.nodup_cons.mp distinct
    have notFirst := later stream (by simp)
    rw [forEach_cons, addStream, if_neg notFirst]
    cases free : s.freeBuffers with
    | nil => exact ⟨same, fun _ => ⟨rfl, by simp⟩⟩
    | cons buffer rest =>
      rw [if_neg (List.cons_ne_nil _ _)]
      rw [addFreeBuffer_eq free requests (fresh stream (by simp))]
      split
      · refine ⟨same, fun works => ?_⟩
        have := works.addBuffer stream buffer
        omega
      · rw [Flow.next_andThen]
        have others : ∀ c ∈ streams, c ∉ (request.insert stream buffer
            (fresh stream (by simp))).buffers.map Prod.fst := fun c member => by
          have other : c ≠ stream := fun same => unique (same ▸ member)
          have old := fresh c (by simp [member])
          simp_all [Request.insert]
        have served := ih (s := ⟨{ s.members with requests := before ++ [request.insert stream
          buffer (fresh stream (by simp))] }, rest⟩) (fun c member => later c (by simp [member]))
          distinct others same rfl
        revert served
        generalize forEach (addStream calls configuration) streams _ = result
        cases result with
        | next t =>
          rintro ⟨kept, enough, freeBuffers, last, requests, buffers⟩
          refine ⟨kept, by simpa using enough, by simpa using freeBuffers, last, requests, ?_⟩
          rw [buffers, Request.insert]
          simp
        | exit t => exact id
        | raise e t =>
          rintro ⟨kept, why⟩
          exact ⟨kept, fun works => ⟨(why works).1, by simpa using (why works).2⟩⟩

/-! ## The rounds -/

/-- After `j` rounds `j` requests are complete, and the buffers behind theirs are free. -/
def Dealt (configuration : List Nat) (w : CameraBuffers) (s : Requesting) : Prop :=
  SameBuffers w s.members ∧ ∃ j, j * configuration.length ≤ w.frameBuffers.length ∧
    s.freeBuffers = w.frameBuffers.drop (j * configuration.length) ∧
    s.members.requests.map (·.buffers) =
      (List.range j).map (deal configuration w.frameBuffers)

/-- The result of `makeRequests`. -/
def Made (calls : BufferCalls) (configuration : List Nat) (w : CameraBuffers) :
    Flow Failure Requesting → Prop
  | .next _ => False
  | .exit s => SameBuffers w s.members ∧ configuration.length ∣ w.frameBuffers.length ∧
      s.members.requests.map (·.buffers) =
        (List.range (w.frameBuffers.length / configuration.length)).map
          (deal configuration w.frameBuffers)
  | .raise e s => SameBuffers w s.members ∧
      (calls.Succeed → e = mismatch ∧ ¬ configuration.length ∣ w.frameBuffers.length)

/-- When no buffer is left at the first stream, all rounds were complete. -/
theorem Dealt.exit (calls : BufferCalls) (someStream : configuration ≠ []) {s : Requesting}
    (inv : Dealt configuration w s) (empty : s.freeBuffers = []) :
    Made calls configuration w (.exit s) := by
  obtain ⟨same, j, used, freeBuffers, requests⟩ := inv
  have all : w.frameBuffers.length = j * configuration.length := by
    have := List.drop_eq_nil_iff.mp (freeBuffers.symm.trans empty)
    omega
  refine ⟨same, Dvd.intro_left j all.symm, ?_⟩
  rw [all, Nat.mul_div_cancel _ (List.length_pos_iff.mpr someStream)]
  exact requests

/-- The end of a round whose first stream has got its buffer. -/
theorem Served.ends {first j : Nat} {streams : List Nat} {buffer : FrameBuffer}
    {rest : List FrameBuffer} {s : Requesting} {result : Flow Failure Requesting}
    (freeBuffers : s.freeBuffers = w.frameBuffers.drop (j * (first :: streams).length))
    (free : s.freeBuffers = buffer :: rest)
    (requests : s.members.requests.map (·.buffers) =
      (List.range j).map (deal (first :: streams) w.frameBuffers))
    (served : Served calls w s.members.requests streams [(first, buffer)] rest result) :
    result.Ends (fun t => Dealt (first :: streams) w t ∧ t.freeBuffers.length < rest.length + 1)
      (Made calls (first :: streams) w) := by
  have left : w.frameBuffers.length = j * (first :: streams).length + (rest.length + 1) := by
    have := congrArg List.length (freeBuffers.symm.trans free)
    simp only [List.length_drop, List.length_cons] at this ⊢
    omega
  have dealt : deal (first :: streams) w.frameBuffers j =
      (first, buffer) :: streams.zip rest := by
    rw [deal, ← freeBuffers, free, List.zip_cons_cons]
  cases result with
  | next t =>
    obtain ⟨same, enough, others, last, complete, buffers⟩ := served
    refine ⟨⟨same, j + 1, ?_, ?_, ?_⟩, ?_⟩
    · rw [left, Nat.succ_mul]
      simp only [List.length_cons]
      omega
    · rw [others, Nat.succ_mul, ← List.drop_drop, ← freeBuffers, free]
      simp
    · rw [complete, List.map_append, requests, List.range_succ, List.map_append]
      simp [dealt, buffers]
    · rw [others, List.length_drop]
      omega
  | exit t => exact served.elim
  | raise e t =>
    obtain ⟨same, why⟩ := served
    refine ⟨same, fun works => ⟨(why works).1, ?_⟩⟩
    have short := (why works).2
    rw [left, Nat.dvd_add_right (Dvd.intro_left j rfl)]
    intro divides
    have := Nat.le_of_dvd (by omega) divides
    simp only [List.length_cons] at this
    omega

theorem makeRequests_round (someStream : configuration ≠ []) (distinct : configuration.Nodup)
    {s : Requesting} (inv : Dealt configuration w s) :
    (forEach (addStream calls configuration) configuration s).Ends
      (fun t => Dealt configuration w t ∧ t.freeBuffers.length < s.freeBuffers.length)
      (Made calls configuration w) := by
  obtain ⟨first, streams, rfl⟩ := List.exists_cons_of_ne_nil someStream
  obtain ⟨unique, others⟩ := List.nodup_cons.mp distinct
  have fresh : first ∉ Request.create.buffers.map Prod.fst := by simp [Request.create]
  rw [forEach_cons, addStream, if_pos (show (first :: streams).head? = some first from rfl)]
  cases free : s.freeBuffers with
  | nil => exact inv.exit calls someStream free
  | cons buffer rest =>
    obtain ⟨same, j, used, freeBuffers, requests⟩ := inv
    rw [if_neg (List.cons_ne_nil _ _)]
    split
    · rw [addFreeBuffer_eq (s := s.pushRequest) free rfl fresh]
      split
      · next failed =>
        refine ⟨same, fun works => ?_⟩
        have := works.addBuffer first buffer
        omega
      · rw [Flow.next_andThen]
        have later : ∀ c ∈ streams, (first :: streams).head? ≠ some c :=
          fun c member first_eq => unique (by simp_all)
        have unserved : ∀ c ∈ streams,
            c ∉ (Request.create.insert first buffer fresh).buffers.map Prod.fst :=
          fun c member => by
            have other : c ≠ first := fun same => unique (same ▸ member)
            simpa [Request.insert, Request.create] using other
        exact Served.ends freeBuffers free requests (forEach_addStream calls (s := ⟨{
          s.pushRequest.members with
            requests := s.members.requests ++ [Request.create.insert first buffer fresh] }, rest⟩)
          later others unserved same rfl)
    · next refused =>
      exact ⟨same, fun works => absurd (works.createRequest _) refused⟩

/-- `makeRequests` terminates. -/
theorem makeRequests_terminates (calls : BufferCalls) (someStream : configuration ≠ [])
    (distinct : configuration.Nodup) (noRequests : w.requests = []) :
    ∃ r, Made calls configuration w r ∧
      ∀ fuel, w.frameBuffers.length < fuel →
        makeRequests calls configuration w fuel = some r :=
  have start : Dealt configuration w ⟨w, w.frameBuffers⟩ :=
    ⟨⟨rfl, rfl⟩, 0, by simp, by simp, by simp [noRequests]⟩
  loop_terminates (fun s : Requesting => s.freeBuffers.length)
    (fun _ inv => makeRequests_round someStream distinct inv) start

/-- The `j`-th request has the buffers of the `j`-th round. -/
theorem Made.dealt {s : Requesting} (made : Made calls configuration w (.exit s)) {j : Nat}
    {request : Request} (here : s.members.requests[j]? = some request) :
    request.buffers = deal configuration w.frameBuffers j ∧
      j < w.frameBuffers.length / configuration.length := by
  have dealt := congrArg (·[j]?) made.2.2
  simp only [List.getElem?_map, here, Option.map_some] at dealt
  obtain ⟨k, index, values⟩ := Option.map_eq_some_iff.mp dealt.symm
  obtain ⟨inside, rfl⟩ := List.getElem?_eq_some_iff.mp index
  rw [List.getElem_range] at values
  exact ⟨values.symm, by simpa using inside⟩

/-- With `s` streams and `b` frame buffers: if `s` divides `b`, `makeRequests` returns with `b / s`
requests, the `j`-th of which maps the `i`-th stream to the buffer number `j * s + i`, and all
requests together hold every buffer once; if not, it throws. -/
theorem make_requests_spec (calls : BufferCalls) (configuration : List Nat) (w : CameraBuffers)
    (someStream : configuration ≠ []) (distinct : configuration.Nodup)
    (noRequests : w.requests = []) (works : calls.Succeed) :
    ∃ r, (∀ fuel, w.frameBuffers.length < fuel →
        makeRequests calls configuration w fuel = some r) ∧
      r.state.members.frameBuffers = w.frameBuffers ∧
      (configuration.length ∣ w.frameBuffers.length → r = .exit r.state ∧
        r.state.members.requests.length = w.frameBuffers.length / configuration.length ∧
        (∀ j request, r.state.members.requests[j]? = some request →
          request.buffers.map Prod.fst = configuration ∧
          ∀ i (h : i < configuration.length), List.lookup configuration[i] request.buffers =
            w.frameBuffers[j * configuration.length + i]?) ∧
        r.state.members.requests.flatMap (fun request => request.buffers.map Prod.snd) =
          w.frameBuffers) ∧
      (¬ configuration.length ∣ w.frameBuffers.length → r = .raise
        (.runtimeError "concurrent streams need matching numbers of buffers") r.state) := by
  obtain ⟨r, made, runs⟩ := makeRequests_terminates calls someStream distinct noRequests
  refine ⟨r, runs, ?_⟩
  cases r with
  | next s => exact made.elim
  | raise e s =>
    obtain ⟨same, why⟩ := made
    obtain ⟨rfl, notDivides⟩ := why works
    exact ⟨same.1, fun divides => absurd divides notDivides, fun _ => rfl⟩
  | exit s =>
    obtain ⟨same, divides, requests⟩ := id made
    refine ⟨same.1, fun _ => ⟨rfl, ?_, fun j request here => ?_, ?_⟩,
      fun notDivides => absurd divides notDivides⟩
    · simpa [Flow.state] using congrArg List.length requests
    · obtain ⟨buffers, inside⟩ := made.dealt here
      rw [buffers]
      refine ⟨deal_keys ?_, fun i h => lookup_deal distinct _ j h⟩
      exact (Nat.mul_le_mul_right _ inside).trans (Nat.div_mul_le_self _ _)
    · have dealt := flatMap_deal configuration w.frameBuffers
        (w.frameBuffers.length / configuration.length)
      rw [Nat.div_mul_cancel divides, List.take_length] at dealt
      calc s.members.requests.flatMap (fun request => request.buffers.map Prod.snd)
        _ = (s.members.requests.map (·.buffers)).flatMap (·.map Prod.snd) := by
          rw [List.flatMap_map]
        _ = (List.range (w.frameBuffers.length / configuration.length)).flatMap
            (fun j => (deal configuration w.frameBuffers j).map Prod.snd) := by
          rw [requests, List.flatMap_map]
        _ = w.frameBuffers := dealt

/-- Two streams and three frame buffers: the second round finds no buffer for its second stream. -/
theorem make_requests_spec_of_mismatch :
    ∃ r, makeRequests ⟨0, fun _ => true, fun _ => true, fun _ _ => 0⟩ [1, 2]
        { CameraBuffers.empty with frameBuffers := [⟨16, []⟩, ⟨32, []⟩, ⟨48, []⟩] } 4 = some r ∧
      r = .raise (.runtimeError "concurrent streams need matching numbers of buffers") r.state := by
  obtain ⟨r, runs, -, -, throws⟩ := make_requests_spec
    ⟨0, fun _ => true, fun _ => true, fun _ _ => 0⟩ [1, 2]
    { CameraBuffers.empty with frameBuffers := [⟨16, []⟩, ⟨32, []⟩, ⟨48, []⟩] }
    (by decide) (by decide) rfl ⟨fun _ => rfl, fun _ _ => le_rfl⟩
  exact ⟨r, runs 4 (by decide), throws (by decide)⟩

end LibcameraStreamer
