import LibcameraStreamer.Buffers.AllocateBuffers
import LibcameraStreamer.Library.Tiling

/-!
# The size that the encoder is told

`EncodeBuffer` is given the size of a buffer's first mapping. For planes in one file it is the
sum of their lengths, and the mapping begins at offset 0: the offsets are never looked at.
-/
namespace LibcameraStreamer
open Library

/-- A buffer whose planes have one descriptor has a single group. -/
theorem planeGroups_of_one_fd {planes : List Plane} (nonempty : planes ≠ [])
    (one : ∀ p ∈ planes, ∀ q ∈ planes, p.fd = q.fd) : planeGroups planes = [planes] :=
  List.splitBy_of_isChain nonempty (List.Pairwise.isChain
    (List.pairwise_of_forall_mem_list fun p hp q hq => by simpa using one p hp q hq))

/-- The first mapping of such a buffer is its only one, as large as its planes together. -/
theorem Allocated.mmap_of_one_fd {calls : BufferCalls} {done : List FrameBuffer}
    {w : CameraBuffers} (inv : Allocated calls done w) {buffer : FrameBuffer}
    (member : buffer ∈ done) (nonempty : buffer.planes ≠ [])
    (one : ∀ p ∈ buffer.planes, ∀ q ∈ buffer.planes, p.fd = q.fd) :
    ∃ span, w.mmap buffer = [span] ∧ span.size = (buffer.planes.map (·.length)).sum := by
  have maps := inv.maps buffer member
  rw [planeGroups_of_one_fd nonempty one] at maps
  obtain ⟨span, rest, first, none, spans⟩ := List.forall₂_cons_left_iff.mp maps
  rw [List.forall₂_nil_left_iff.mp none] at spans
  exact ⟨span, spans, first.size⟩

/-- The bytes of a plane in its file. -/
def Plane.bytes (plane : Plane) : Finset Nat :=
  Finset.Ico plane.offset (plane.offset + plane.length)

/-- Every byte of the file before the end of a plane belongs to a plane. -/
def Gapless (planes : List Plane) : Prop :=
  ∀ plane ∈ planes, ∀ x < plane.offset + plane.length, ∃ other ∈ planes, x ∈ other.bytes

/-- Planes that do not overlap end within the sum of their lengths exactly when there is no gap
between them or before them. -/
theorem planes_le_sum_iff {planes : List Plane}
    (apart : planes.Pairwise fun p q => Disjoint p.bytes q.bytes) :
    (∀ plane ∈ planes, plane.offset + plane.length ≤ (planes.map (·.length)).sum) ↔
      Gapless planes := by
  have blocks : (planes.map fun p => (p.offset, p.length)).Pairwise fun b c =>
      Disjoint (block b) (block c) := List.pairwise_map.mpr apart
  simpa [Gapless, Plane.bytes, mem_cover, Function.comp_def] using ends_le_sum_iff blocks

/-- For planes in one file that do not overlap: what `completedRequestsProcessor` passes to
`EncodeBuffer` covers every plane if and only if the planes leave no gap. -/
theorem encoder_covers_planes_iff {calls : BufferCalls} {allocated : List FrameBuffer}
    {s : Allocating} (distinct : (allocated.map (·.address)).Nodup)
    (allocates : allocateBuffers calls allocated .empty = .next s) {buffer : FrameBuffer}
    (member : buffer ∈ allocated) (nonempty : buffer.planes ≠ [])
    (one : ∀ p ∈ buffer.planes, ∀ q ∈ buffer.planes, p.fd = q.fd)
    (apart : buffer.planes.Pairwise fun p q => Disjoint p.bytes q.bytes)
    {configuration : List Nat} {request : Request}
    (carries : getFrameBufferForRequest configuration request = some buffer) :
    ∃ fd size, encodeArguments configuration s.members request = some (fd, size) ∧
      ((∀ plane ∈ buffer.planes, plane.fd = fd ∧ plane.offset + plane.length ≤ size) ↔
        Gapless buffer.planes) := by
  have inv := Allocated.of_allocateBuffers distinct allocates
  obtain ⟨span, spans, size⟩ := inv.mmap_of_one_fd member nonempty one
  obtain ⟨plane, rest, planes⟩ := List.exists_cons_of_ne_nil nonempty
  refine ⟨plane.fd, span.size, ?_, ?_⟩
  · simp [encodeArguments, carries, spans, planes]
  · rw [← planes_le_sum_iff apart, size]
    exact forall₂_congr fun p held => and_iff_right (one p held plane (by simp [planes]))

/-- 640x360 in YUV420, each plane beginning on a page: the end of the last plane is cut off. -/
theorem encoder_cuts_padded_planes :
    ∃ s request buffer, allocateBuffers ⟨1, fun _ => true, fun _ => true, fun _ _ => 0⟩
        [buffer] .empty = .next s ∧
      (∀ p ∈ buffer.planes, ∀ q ∈ buffer.planes, p.fd = q.fd) ∧
      (buffer.planes.Pairwise fun p q => Disjoint p.bytes q.bytes) ∧
      getFrameBufferForRequest [1] request = some buffer ∧
      encodeArguments [1] s.members request = some (20, 345600) ∧
      ∃ plane ∈ buffer.planes, 345600 < plane.offset + plane.length := by
  refine ⟨_, ⟨[(1, ⟨16, [⟨20, 0, 230400⟩, ⟨20, 233472, 57600⟩, ⟨20, 294912, 57600⟩]⟩)], by simp⟩,
    ⟨16, [⟨20, 0, 230400⟩, ⟨20, 233472, 57600⟩, ⟨20, 294912, 57600⟩]⟩, rfl, by simp, ?_, rfl, rfl,
    ⟨20, 294912, 57600⟩, by simp, by norm_num⟩
  simp only [List.pairwise_cons, Plane.bytes, Finset.disjoint_left, Finset.mem_Ico]
  grind

/-- Two planes next to each other. -/
theorem encoder_covers_packed_planes :
    ∃ s request buffer fd size, allocateBuffers ⟨1, fun _ => true, fun _ => true, fun _ _ => 0⟩
        [buffer] .empty = .next s ∧
      encodeArguments [1] s.members request = some (fd, size) ∧ buffer.planes.length = 2 ∧
      ∀ plane ∈ buffer.planes, plane.fd = fd ∧ plane.offset + plane.length ≤ size := by
  have allocates : allocateBuffers ⟨1, fun _ => true, fun _ => true, fun _ _ => 0⟩
      [⟨16, [⟨20, 0, 64⟩, ⟨20, 64, 16⟩]⟩] .empty = .next _ := rfl
  have carries : getFrameBufferForRequest [1]
      ⟨[(1, ⟨16, [⟨20, 0, 64⟩, ⟨20, 64, 16⟩]⟩)], by simp⟩ = some _ := rfl
  have apart : List.Pairwise (fun p q : Plane => Disjoint p.bytes q.bytes)
      [⟨20, 0, 64⟩, ⟨20, 64, 16⟩] := by
    simp [Plane.bytes, Finset.disjoint_left]
    omega
  have gapless : Gapless [⟨20, 0, 64⟩, ⟨20, 64, 16⟩] := by
    intro plane held x before
    have bound : x < 80 := by
      simp only [List.mem_cons, List.not_mem_nil, or_false] at held
      rcases held with rfl | rfl <;> simp only at before <;> omega
    by_cases luma : x < 64
    · exact ⟨⟨20, 0, 64⟩, by simp, by simp [Plane.bytes, luma]⟩
    · exact ⟨⟨20, 64, 16⟩, by simp, by simp [Plane.bytes]; omega⟩
  obtain ⟨fd, size, passed, covers⟩ := encoder_covers_planes_iff (by decide) allocates
    (List.mem_singleton_self _) (by simp) (by simp) apart carries
  exact ⟨_, _, _, fd, size, allocates, passed, rfl, covers.mpr gapless⟩

end LibcameraStreamer
