import LibcameraStreamer.Model.Buffers
import Mathlib.Data.List.Forall2
import Mathlib.Data.List.SplitBy

/-!
# The mappings that `allocateBuffers` makes

The loop over the planes looks one plane ahead and adds the lengths up until the descriptor
changes. Read from the front, the planes are closed groups, which are mapped, and one open
group, whose sum is in `buffer_size`.
-/
namespace LibcameraStreamer
open Library

variable {calls : BufferCalls} {buffer : FrameBuffer} {w : CameraBuffers}

/-- The maximal runs of planes with one descriptor. -/
def planeGroups (planes : List Plane) : List (List Plane) :=
  planes.splitBy fun plane next => plane.fd == next.fd

/-- The span is as large as the group, and unless `mmap` fails it maps the group's file. -/
structure Maps (calls : BufferCalls) (group : List Plane) (span : Span) : Prop where
  size : span.size = (group.map (·.length)).sum
  memory : (∀ k, calls.mmap k = true) →
    ∀ plane ∈ group, span.memory = .mapped plane.fd span.size 0

/-! ## The map of spans -/

theorem CameraBuffers.mmap_pushSpan (w : CameraBuffers) (buffer : FrameBuffer) (span : Span) :
    (w.pushSpan buffer span).mmap buffer = w.mmap buffer ++ [span] := by
  simp [CameraBuffers.mmap, CameraBuffers.pushSpan]

theorem CameraBuffers.mappedBuffers_pushSpan (w : CameraBuffers) (span : Span) {address : Nat}
    (other : address ≠ buffer.address) :
    (w.pushSpan buffer span).mappedBuffers address = w.mappedBuffers address := by
  simp [CameraBuffers.pushSpan, other]

/-- The members after the spans of a buffer are pushed: nothing else has changed. -/
structure Pushed (w : CameraBuffers) (buffer : FrameBuffer) (spans : List Span)
    (w' : CameraBuffers) : Prop where
  mmap : w'.mmap buffer = w.mmap buffer ++ spans
  others : ∀ address ≠ buffer.address, w'.mappedBuffers address = w.mappedBuffers address
  frameBuffers : w'.frameBuffers = w.frameBuffers
  requests : w'.requests = w.requests

theorem Pushed.pushSpan {spans : List Span} {w' : CameraBuffers} (h : Pushed w buffer spans w')
    (span : Span) : Pushed w buffer (spans ++ [span]) (w'.pushSpan buffer span) where
  mmap := by rw [CameraBuffers.mmap_pushSpan, h.mmap, List.append_assoc]
  others address other := by
    rw [CameraBuffers.mappedBuffers_pushSpan _ _ other, h.others address other]
  frameBuffers := h.frameBuffers
  requests := h.requests

/-! ## One buffer -/

/-- The planes before the `i`-th: the closed groups are mapped, and the sum of the open group is
in `buffer_size`. The next plane belongs to the open group, and not to the last closed one. -/
def Grouped (calls : BufferCalls) (w : CameraBuffers) (buffer : FrameBuffer) (i : Nat)
    (s : Allocating) : Prop :=
  ∃ closed opened rest spans, buffer.planes = closed ++ (opened ++ rest) ∧
    (closed ++ opened).length = i ∧
    (∀ x ∈ closed.getLast?, ∀ y ∈ (opened ++ rest).head?, (x.fd == y.fd) = false) ∧
    (∀ x ∈ opened, ∀ y ∈ rest.head?, x.fd = y.fd) ∧ (rest = [] → opened = []) ∧
    s.bufferSize = (opened.map (·.length)).sum ∧
    List.Forall₂ (Maps calls) (planeGroups closed) spans ∧ Pushed w buffer spans s.members

/-- The look-ahead is within `planes()`, and compares the plane with the next one. -/
theorem endsGroup_eq (before rest : List Plane) (plane : Plane) :
    endsGroup (before ++ plane :: rest) before.length plane =
      some (rest.head?.all fun next => plane.fd != next.fd) := by
  cases rest with
  | nil => simp [endsGroup]
  | cons next rest =>
    have inner : before.length ≠ (before ++ plane :: next :: rest).length - 1 := by simp
    rw [endsGroup, if_neg inner]
    simp

/-- A group that ends where the descriptor changes is a group of its own. -/
theorem planeGroups_append {closed opened : List Plane} {plane : Plane}
    (boundary : ∀ x ∈ closed.getLast?, ∀ y ∈ (opened ++ [plane]).head?, (x.fd == y.fd) = false)
    (same : ∀ x ∈ opened ++ [plane], x.fd = plane.fd) :
    planeGroups (closed ++ (opened ++ [plane])) = planeGroups closed ++ [opened ++ [plane]] := by
  have one : (opened ++ [plane]).splitBy (fun plane next => plane.fd == next.fd) =
      [opened ++ [plane]] := by
    refine List.splitBy_of_isChain (by simp) (List.Pairwise.isChain ?_)
    exact List.pairwise_of_forall_mem_list fun x hx y hy => by simp [same x hx, same y hy]
  rw [planeGroups, List.splitBy_append boundary, one, planeGroups]

theorem mapPlane_grouped {i : Nat} {s : Allocating} (more : i < buffer.planes.length)
    (inv : Grouped calls w buffer i s) :
    ∃ t, mapPlane calls buffer i s = .next t ∧ Grouped calls w buffer (i + 1) t := by
  obtain ⟨closed, opened, rest, spans, planes, length, boundary, same, -, size, maps, pushed⟩ := inv
  cases rest with
  | nil =>
    rw [planes, List.append_nil, length] at more
    exact absurd more (lt_irrefl _)
  | cons plane rest =>
    have split : buffer.planes = (closed ++ opened) ++ plane :: rest := by simp [planes]
    have here : buffer.planes[i]? = some plane := by
      rw [split, ← length, List.getElem?_append_right le_rfl]
      simp
    have ends : endsGroup buffer.planes i plane =
        some (rest.head?.all fun next => plane.fd != next.fd) := by
      rw [split, ← length, endsGroup_eq]
    have opens : ∀ x ∈ opened ++ [plane], x.fd = plane.fd := by
      intro x member
      rcases List.mem_append.mp member with old | new
      · exact same x old plane rfl
      · rw [List.mem_singleton.mp new]
    have first : (opened ++ [plane]).head? = (opened ++ plane :: rest).head? := by
      cases opened <;> rfl
    have total : s.bufferSize + plane.length = ((opened ++ [plane]).map (·.length)).sum := by
      simp [size]
    simp only [mapPlane, here, ends]
    cases last : rest.head?.all fun next => plane.fd != next.fd with
    | true =>
      refine ⟨_, rfl, closed ++ (opened ++ [plane]), [], rest,
        spans ++ [⟨if calls.mmap s.mmaps then .mapped plane.fd (s.bufferSize + plane.length) 0
          else .failed, s.bufferSize + plane.length⟩],
        by simp [planes], by simp [← length, add_assoc], ?_, by simp, by simp, rfl, ?_,
        pushed.pushSpan _⟩
      · intro x lastPlane y next
        have x_eq : plane = x := by simpa using lastPlane
        rw [List.nil_append] at next
        simpa [Option.mem_def.mp next, x_eq] using last
      · rw [planeGroups_append (first ▸ boundary) opens]
        refine List.rel_append maps (.cons ⟨total, fun works p member => ?_⟩ .nil)
        rw [if_pos (works _), opens p member]
    | false =>
      obtain ⟨next, rest', rfl⟩ : ∃ next rest', rest = next :: rest' := by
        cases rest with
        | nil => simp at last
        | cons next rest' => exact ⟨next, rest', rfl⟩
      have continues : plane.fd = next.fd := by simpa using last
      refine ⟨_, rfl, closed, opened ++ [plane], next :: rest', spans, by simp [planes],
        by simp [← length, add_assoc], ?_, ?_, by simp, total, maps, pushed⟩
      · simpa using boundary
      · intro x member y here
        rw [opens x member, continues, Option.mem_some_iff.mp here]

theorem allocateBuffer_pushed (calls : BufferCalls) (buffer : FrameBuffer) (s : Allocating) :
    ∃ t spans, allocateBuffer calls buffer s = .next t ∧
      List.Forall₂ (Maps calls) (planeGroups buffer.planes) spans ∧
      t.members.frameBuffers = s.members.frameBuffers ++ [buffer] ∧
      t.members.requests = s.members.requests ∧
      t.members.mmap buffer = s.members.mmap buffer ++ spans ∧
      ∀ address ≠ buffer.address,
        t.members.mappedBuffers address = s.members.mappedBuffers address := by
  have start : Grouped calls s.members buffer 0 { s with bufferSize := 0 } :=
    ⟨[], [], buffer.planes, [], rfl, rfl, by simp, by simp, by simp, rfl, .nil,
      ⟨by simp, fun _ _ => rfl, rfl, rfl⟩⟩
  obtain ⟨t, goes, closed, opened, rest, spans, planes, length, -, -, closes, -, maps, pushed⟩ :=
    forEach_range (f := mapPlane calls buffer) (n := buffer.planes.length)
      (Grouped calls s.members buffer) start fun i t more here => mapPlane_grouped more here
  have none_left : rest = [] := by
    have := congrArg List.length planes
    simp only [List.length_append] at this length
    exact List.length_eq_zero_iff.mp (by omega)
  have all : closed = buffer.planes := by simp [planes, closes none_left, none_left]
  rw [allocateBuffer, goes, Flow.next_andThen]
  refine ⟨_, spans, rfl, all ▸ maps, ?_, pushed.requests, pushed.mmap, pushed.others⟩
  rw [pushed.frameBuffers]

/-! ## All buffers -/

/-- After the buffers `done`. -/
structure Allocated (calls : BufferCalls) (done : List FrameBuffer) (w : CameraBuffers) :
    Prop where
  frameBuffers : w.frameBuffers = done
  requests : w.requests = []
  maps : ∀ buffer ∈ done, List.Forall₂ (Maps calls) (planeGroups buffer.planes) (w.mmap buffer)
  others : ∀ address, (∀ buffer ∈ done, buffer.address ≠ address) →
    w.mappedBuffers address = none

theorem allocateBuffers_allocated {allocated : List FrameBuffer}
    (distinct : (allocated.map (·.address)).Nodup) (allocates : 0 ≤ calls.allocate) :
    ∃ s, allocateBuffers calls allocated .empty = .next s ∧
      Allocated calls allocated s.members := by
  have start : Allocated calls [] CameraBuffers.empty :=
    ⟨rfl, rfl, by simp, fun _ _ => rfl⟩
  rw [allocateBuffers, if_neg (by omega)]
  refine forEach_next (fun done (s : Allocating) => Allocated calls done s.members) start
    fun done buffer rest s split inv => ?_
  obtain ⟨t, spans, goes, maps, frameBuffers, requests, mmap, others⟩ :=
    allocateBuffer_pushed calls buffer s
  have fresh : ∀ b ∈ done, b.address ≠ buffer.address := by
    rw [split, List.map_append, List.map_cons] at distinct
    intro b member same
    exact (List.nodup_append.mp distinct).2.2 _ (List.mem_map_of_mem member) _
      (List.mem_cons_self ..) same
  have unmapped : s.members.mmap buffer = [] := by
    simp [CameraBuffers.mmap, inv.others _ fresh]
  refine ⟨t, goes, by rw [frameBuffers, inv.frameBuffers], by rw [requests, inv.requests],
    fun b member => ?_, fun address unused => ?_⟩
  · rcases List.mem_append.mp member with old | new
    · rw [CameraBuffers.mmap, others _ (fresh b old)]
      exact inv.maps b old
    · rw [List.mem_singleton.mp new, mmap, unmapped, List.nil_append]
      exact maps
  · rw [others address fun same => unused buffer (by simp) same.symm]
    exact inv.others address fun b member => unused b (by simp [member])

theorem Allocated.of_allocateBuffers {allocated : List FrameBuffer} {s : Allocating}
    (distinct : (allocated.map (·.address)).Nodup)
    (allocates : allocateBuffers calls allocated .empty = .next s) :
    Allocated calls allocated s.members := by
  have succeeds : 0 ≤ calls.allocate := by
    by_contra failed
    rw [allocateBuffers, if_pos (by omega)] at allocates
    contradiction
  obtain ⟨t, goes, inv⟩ := allocateBuffers_allocated distinct succeeds
  obtain rfl : t = s := Flow.next.inj (goes.symm.trans allocates)
  exact inv

/-! ## The spans of a buffer -/

theorem sum_sizes {groups : List (List Plane)} {spans : List Span}
    (maps : List.Forall₂ (Maps calls) groups spans) :
    (spans.map (·.size)).sum = (groups.flatten.map (·.length)).sum := by
  induction maps with
  | nil => rfl
  | cons first rest ih => simp [first.size, ih]

/-- Neighbouring groups differ in their descriptors, and so do their mappings. -/
theorem isChain_fd {groups : List (List Plane)} {spans : List Span}
    (works : ∀ k, calls.mmap k = true) (maps : List.Forall₂ (Maps calls) groups spans)
    (differ : groups.IsChain fun a b =>
      ∃ ha hb, ((a.getLast ha).fd == (b.head hb).fd) = false) :
    spans.IsChain fun span next => span.memory.fd ≠ next.memory.fd := by
  induction maps with
  | nil => exact .nil
  | cons first rest ih =>
    cases rest with
    | nil => exact .singleton _
    | cons second rest =>
      obtain ⟨⟨ha, hb, fds⟩, differ⟩ := List.isChain_cons_cons.mp differ
      refine .cons_cons ?_ (ih differ)
      rw [first.memory works _ (List.getLast_mem ha), second.memory works _ (List.head_mem hb)]
      simpa [Memory.fd] using fds

/-- After `allocateBuffers`, a buffer has one span for every maximal run of planes with one
descriptor, in the order of the planes, and `frame_buffers_` holds the buffers in the order of
the allocator. No access to `planes()` is out of range. -/
theorem plane_grouping (calls : BufferCalls) (allocated : List FrameBuffer)
    (distinct : (allocated.map (·.address)).Nodup) (allocates : 0 ≤ calls.allocate)
    (works : ∀ k, calls.mmap k = true) :
    ∃ s, allocateBuffers calls allocated .empty = .next s ∧
      s.members.frameBuffers = allocated ∧
      ∀ buffer ∈ allocated,
        List.Forall₂ (fun group span => span.size = (group.map (·.length)).sum ∧
            ∀ plane ∈ group, span.memory = .mapped plane.fd span.size 0)
          (buffer.planes.splitBy fun plane next => plane.fd == next.fd) (s.members.mmap buffer) ∧
        ((s.members.mmap buffer).map (·.size)).sum = (buffer.planes.map (·.length)).sum ∧
        (s.members.mmap buffer).IsChain (fun span next => span.memory.fd ≠ next.memory.fd) ∧
        (buffer.planes ≠ [] → s.members.mmap buffer ≠ []) := by
  obtain ⟨s, goes, inv⟩ := allocateBuffers_allocated distinct allocates
  refine ⟨s, goes, inv.frameBuffers, fun buffer member => ?_⟩
  have maps := inv.maps buffer member
  refine ⟨maps.imp fun group span h => ⟨h.size, h.memory works⟩, ?_, ?_, fun planes empty => ?_⟩
  · rw [sum_sizes maps, planeGroups, List.flatten_splitBy]
  · exact isChain_fd works maps
      (List.isChain_getLast_head_splitBy (fun plane next : Plane => plane.fd == next.fd) _)
  · rw [empty, List.forall₂_nil_right_iff, planeGroups, List.splitBy_eq_nil] at maps
    exact planes maps

/-- Three planes in two files, as for a semi-planar buffer whose chroma has a file of its own and
is split. -/
theorem plane_grouping_of_two_files :
    ∃ s, allocateBuffers ⟨1, fun _ => true, fun _ => true, fun _ _ => 0⟩
        [⟨16, [⟨20, 0, 64⟩, ⟨21, 0, 16⟩, ⟨21, 16, 16⟩]⟩] .empty = .next s ∧
      ((s.members.mmap ⟨16, [⟨20, 0, 64⟩, ⟨21, 0, 16⟩, ⟨21, 16, 16⟩]⟩).map (·.size)).sum = 96 := by
  obtain ⟨s, goes, -, spans⟩ := plane_grouping ⟨1, fun _ => true, fun _ => true, fun _ _ => 0⟩
    [⟨16, [⟨20, 0, 64⟩, ⟨21, 0, 16⟩, ⟨21, 16, 16⟩]⟩] (by decide) (by decide) (fun _ => rfl)
  exact ⟨s, goes, (spans _ (by simp)).2.1⟩

end LibcameraStreamer
