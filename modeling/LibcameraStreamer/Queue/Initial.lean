import LibcameraStreamer.Library.Smearing
import LibcameraStreamer.Queue.Dequeue

/-!
# What the constructor makes

A ring of empty blocks, whose sizes are powers of two, and which has room for as many elements
as were asked for.
-/
namespace LibcameraStreamer.Moodycamel
open Library

variable {α : Type*}

/-! ## Sizes -/

/-- The result wraps around to zero from 2^63 on, and for zero itself. -/
theorem toNat_ceilToPow2 (x : UInt64) :
    (ceilToPow2 x).toNat = 2 ^ (x - 1).toNat.size % 2 ^ 64 := by
  have pairs := (Smeared.refl (x - 1).toNat).shift (i := 1) rfl (by decide)
  have nibbles := pairs.shift (i := 2) rfl (by decide)
  have bytes := nibbles.shift (i := 4) rfl (by decide)
  have halves := bytes.shift (i := (1 : UInt64) <<< 3) rfl (by decide)
  have words := halves.shift (i := (2 : UInt64) <<< 3) rfl (by decide)
  have whole := words.shift (i := (4 : UInt64) <<< 3) rfl (by decide)
  have positive := Nat.one_le_two_pow (n := (x - 1).toNat.size)
  simp only [ceilToPow2, List.foldl_cons, List.foldl_nil]
  rw [UInt64.toNat_add, whole.eq_size (x - 1).toNat_lt, UInt64.toNat_one,
    Nat.sub_add_cancel positive]

theorem toNat_pred {x : UInt64} (positive : 1 ≤ x.toNat) : (x - 1).toNat = x.toNat - 1 := by
  have le : 1 ≤ x := UInt64.le_iff_toNat_le.mpr (by rwa [UInt64.toNat_one])
  rw [UInt64.toNat_sub_of_le _ _ le, UInt64.toNat_one]

/-- Between one and 2^63 it is the least power of two that is not less. -/
theorem ceilToPow2_spec {x : UInt64} (positive : 1 ≤ x.toNat) (small : x.toNat ≤ 2 ^ 63) :
    ∃ k, (ceilToPow2 x).toNat = 2 ^ k ∧ ∀ j, x.toNat ≤ 2 ^ j ↔ k ≤ j := by
  have size := (le_two_pow_iff positive).mp small
  have fits : 2 ^ (x.toNat - 1).size < 2 ^ 64 := Nat.pow_lt_pow_right (by decide) (by omega)
  refine ⟨(x.toNat - 1).size, ?_, fun j => le_two_pow_iff positive⟩
  rw [toNat_ceilToPow2, toNat_pred positive, Nat.mod_eq_of_lt fits]

/-- `ceilToPow2` gives the least power of two that is not less, and zero when there is none that
`size_t` can hold. -/
theorem ceilToPow2_isLeast (x : UInt64) :
    if 1 ≤ x.toNat ∧ x.toNat ≤ 2 ^ 63 then
      IsLeast {p | (∃ k, p = 2 ^ k) ∧ x.toNat ≤ p} (ceilToPow2 x).toNat
    else (ceilToPow2 x).toNat = 0 := by
  split
  · next range =>
    obtain ⟨k, power, least⟩ := ceilToPow2_spec range.1 range.2
    rw [power]
    refine ⟨⟨⟨k, rfl⟩, (least k).mpr le_rfl⟩, ?_⟩
    rintro p ⟨⟨j, rfl⟩, above⟩
    exact Nat.pow_le_pow_right (by decide) ((least j).mp above)
  · next outside =>
    have big : 2 ^ 63 ≤ (x - 1).toNat := by
      by_cases zero : x = 0
      · subst zero
        decide
      · have positive : 1 ≤ x.toNat := by
          by_contra none
          exact zero (UInt64.toNat_inj.mp (by rw [UInt64.toNat_zero]; omega))
        rw [toNat_pred positive]
        omega
    have size : 64 ≤ (x - 1).toNat.size := Nat.lt_size.mpr big
    rw [toNat_ceilToPow2]
    exact Nat.mod_eq_zero_of_dvd (Nat.pow_dvd_pow 2 size)

/-- The blocks that are made have sizes that are powers of two, and without one of them they
hold what was asked for. -/
theorem initialBlocks_spec {size : UInt64} (positive : 1 ≤ size.toNat)
    (small : size.toNat < 2 ^ 63) :
    ∃ n k, k < 63 ∧ initialBlocks size = (n + 1, 2 ^ (k + 1)) ∧
      (n = 0 ∧ size.toNat ≤ 2 ^ (k + 1) - 1 ∨
        2 ^ (k + 1) = maxBlockSize ∧ size.toNat ≤ n * (maxBlockSize - 1)) := by
  have one : (1 : UInt64).toNat = 1 := rfl
  have next : (size + 1).toNat = size.toNat + 1 := by
    rw [UInt64.toNat_add, one, Nat.mod_eq_of_lt (by omega)]
  obtain ⟨k, power, least⟩ := ceilToPow2_spec (x := size + 1) (by omega) (by omega)
  rw [next] at least
  unfold initialBlocks
  simp only
  split
  · have count :
        ((size + UInt64.ofNat maxBlockSize * 2 - 3) / (UInt64.ofNat maxBlockSize - 1)).toNat
          = (size.toNat + 1021) / 511 := by
      have twice : (UInt64.ofNat maxBlockSize * 2).toNat = 1024 := rfl
      have three : (3 : UInt64).toNat = 3 := rfl
      have payload : (UInt64.ofNat maxBlockSize - 1).toNat = 511 := rfl
      have sum : (size + UInt64.ofNat maxBlockSize * 2).toNat = size.toNat + 1024 := by
        rw [UInt64.toNat_add, twice, Nat.mod_eq_of_lt (by omega)]
      have enough : (3 : UInt64) ≤ size + UInt64.ofNat maxBlockSize * 2 := by
        rw [UInt64.le_iff_toNat_le, sum, three]
        omega
      rw [UInt64.toNat_div, UInt64.toNat_sub_of_le _ _ enough, sum, three, payload]
      rfl
    refine ⟨(size.toNat + 1021) / 511 - 1, 8, by decide, ?_, .inr ⟨rfl, ?_⟩⟩
    · rw [count]
      simp only [maxBlockSize, Prod.mk.injEq]
      omega
    · simp only [maxBlockSize]
      omega
  · have one : k ≠ 0 := by
      rintro rfl
      have := (least 0).mpr le_rfl
      omega
    obtain ⟨k, rfl⟩ := Nat.exists_eq_succ_of_ne_zero one
    have room := (least (k + 1)).mpr le_rfl
    have fits : 2 ^ (k + 1) < 2 ^ 64 := power ▸ (ceilToPow2 (size + 1)).toNat_lt
    have exponent := (Nat.pow_lt_pow_iff_right (by decide)).mp fits
    exact ⟨0, k, by omega, by rw [power], .inl ⟨rfl, by omega⟩⟩

/-! ## The ring -/

/-- The blocks up to number `n` form a ring in the order of their making. -/
structure Building.Made (b : Building α) (capacity n : Nat) : Prop where
  firstBlock : b.firstBlock = some 0
  lastBlock : b.lastBlock = some n
  allocated : b.allocated = n + 1
  block : ∀ i ≤ n, b.block i =
    { (makeBlock capacity : Block α) with next := some (if i = n then 0 else i + 1) }

theorem Building.addBlock_first {malloc : Nat → Bool} {capacity : Nat} {block : Nat → Block α}
    {b : Building α} (made : Building.addBlock malloc capacity
      { firstBlock := none, lastBlock := none, allocated := 0, block } = some b) :
    b.Made capacity 0 := by
  unfold Building.addBlock at made
  split at made
  · cases made
    refine ⟨rfl, rfl, rfl, fun i last => ?_⟩
    obtain rfl := Nat.le_zero.mp last
    simp
  · contradiction

theorem Building.Made.addBlock {malloc : Nat → Bool} {capacity n : Nat} {b b' : Building α}
    (h : b.Made capacity n) (made : b.addBlock malloc capacity = some b') :
    b'.Made capacity (n + 1) := by
  unfold Building.addBlock at made
  rw [h.firstBlock, h.lastBlock, h.allocated] at made
  split at made
  · cases made
    refine ⟨rfl, rfl, rfl, fun i bound => ?_⟩
    by_cases new : i = n + 1
    · simp [new]
    · have older := h.block i (by omega)
      by_cases last : i = n
      · subst last
        simp [older]
      · simp [new, last, older]
  · contradiction

theorem Building.Made.addBlocks {malloc : Nat → Bool} {capacity : Nat} (rounds : Nat) {n : Nat}
    {b b' : Building α} (h : b.Made capacity n)
    (made : Building.addBlocks malloc capacity rounds b = some b') :
    b'.Made capacity (n + rounds) := by
  induction rounds generalizing n b with
  | zero =>
    cases made
    exact h
  | succ rounds ih =>
    obtain ⟨next, first, rest⟩ := Option.bind_eq_some_iff.mp made
    have longer := ih (h.addBlock first) rest
    rwa [Nat.add_right_comm, Nat.add_assoc n] at longer

/-- The ring of a new queue. -/
def initialShape (n : Nat) : Shape α where
  active := [0]
  spare := (List.range n).map Nat.succ
  view := fun _ => .empty

theorem initialShape_ring (n : Nat) : (initialShape n : Shape α).ring = List.range (n + 1) := by
  rw [List.range_succ_eq_map]
  rfl

theorem initialShape_content (n : Nat) : (initialShape n : Shape α).content = [] := by
  simp [Shape.content, initialShape, View.empty]

theorem Building.Made.ring {b : Building α} {n k : Nat} (small : k < 63)
    (h : b.Made (2 ^ (k + 1)) n) :
    Ring { frontBlock := 0, tailBlock := 0, largestBlockSize := 2 ^ (k + 1),
           allocated := b.allocated, block := b.block } (initialShape n) where
  distinct := by
    rw [initialShape_ring]
    exact List.nodup_range
  front := rfl
  tail := rfl
  chain := by
    rw [initialShape_ring]
    refine List.isChain_append.mpr ⟨?_, by simp, fun a last c head => ?_⟩
    · refine (List.isChain_range_succ _ n).mpr fun i bound => ?_
      simp [h.block i bound.le, bound.ne]
    · rw [List.range_succ, List.getLast?_concat] at last
      cases last
      cases head
      simp [h.block n le_rfl]
  holds a member := by
    rw [initialShape_ring, List.mem_range] at member
    have holds := (makeBlock_holds (α := α) (rfl : 2 ^ (k + 1) = 2 ^ (k + 1)) small).next
      (some (if a = n then 0 else a + 1))
    simpa only [h.block a (by omega), initialShape] using holds
  made a member := by
    rw [initialShape_ring, List.mem_range] at member
    simpa only [h.allocated] using member
  filled a member := by simp [initialShape] at member
  largest := ⟨k, small, rfl⟩

/-- A new queue is a ring of empty blocks, with room for `size` elements. -/
theorem readerWriterQueue_ring {malloc : Nat → Bool} {size : UInt64} {q : ReaderWriterQueue α}
    (positive : 1 ≤ size.toNat) (small : size.toNat < 2 ^ 63)
    (made : readerWriterQueue malloc size = some q) :
    ∃ n k, Ring q (initialShape n) ∧ q.allocated = n + 1 ∧
      (∀ a ≤ n, (q.block a).sizeMask = 2 ^ (k + 1) - 1) ∧
      (n = 0 ∧ size.toNat ≤ 2 ^ (k + 1) - 1 ∨
        2 ^ (k + 1) = maxBlockSize ∧ size.toNat ≤ n * (maxBlockSize - 1)) := by
  obtain ⟨n, k, exponent, blocks, room⟩ := initialBlocks_spec positive small
  unfold readerWriterQueue at made
  simp only [blocks, Building.addBlocks] at made
  cases built : (Building.addBlock malloc (2 ^ (k + 1)) (α := α)
      { firstBlock := none, lastBlock := none, allocated := 0, block := fun _ => makeBlock 0 }).bind
      (Building.addBlocks malloc (2 ^ (k + 1)) n) with
  | none => simp [built] at made
  | some b =>
    obtain ⟨b', first, rest⟩ := Option.bind_eq_some_iff.mp built
    have ring := (Building.addBlock_first first).addBlocks n rest
    rw [Nat.zero_add] at ring
    obtain ⟨firstBlock, lastBlock, allocated, block⟩ := b
    obtain rfl : firstBlock = some 0 := ring.firstBlock
    simp only [built, Option.some.injEq] at made
    subst made
    refine ⟨n, k, ring.ring exponent, ring.allocated, fun a bound => ?_, room⟩
    have whole := ring.block a bound
    simp only at whole
    simp only [whole]
    exact makeBlock_sizeMask rfl exponent

end LibcameraStreamer.Moodycamel
