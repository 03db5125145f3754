import Mathlib.Algebra.Order.Ring.Int

/-! Memory of a 64-bit machine. Addresses count bytes and wrap around; a word takes eight
bytes, the lowest of them first.
-/

namespace SlotC

/-- A number that a register holds. -/
abbrev Word := BitVec 64

/-- The byte at every address. -/
def Memory := Word → BitVec 8

namespace Memory

/-- The number whose bytes stand from an address on. -/
def bytes (memory : Memory) (address : Word) : (count : Nat) → BitVec (8 * count)
  | 0 => 0#0
  | count + 1 => memory.bytes (address + 1) count ++ memory address

/-- The word at an address. -/
def readWord (memory : Memory) (address : Word) : Word :=
  memory.bytes address 8

/-- The memory with a word put at an address. -/
def writeWord (memory : Memory) (address word : Word) : Memory :=
  fun place =>
    if (place - address).toNat < 8 then word.extractLsb' (8 * (place - address).toNat) 8
    else memory place

/-- Stepping to the next address moves the bytes that follow by one. -/
theorem next_add_ofNat (address : Word) (i : Nat)
    : address + 1 + .ofNat 64 i = address + .ofNat 64 (i + 1) := by
  rw [BitVec.add_assoc, Nat.add_comm i 1, BitVec.ofNat_add]
  rfl

/-- A number is read back from memories that agree on its bytes. -/
theorem bytes_congr {first second : Memory} {address : Word} {count : Nat}
    (same : ∀ i < count, first (address + .ofNat 64 i) = second (address + .ofNat 64 i))
    : first.bytes address count = second.bytes address count := by
  induction count generalizing address with
  | zero => rfl
  | succ count ih =>
      have tail : first.bytes (address + 1) count = second.bytes (address + 1) count := by
        apply ih
        intro i below
        rw [next_add_ofNat]
        exact same (i + 1) (by omega)
      have head : first address = second address := by simpa using same 0 (by omega)
      rw [bytes, bytes, tail, head]

/-- A number is read where its bytes stand in order. -/
theorem bytes_eq {memory : Memory} {address : Word} {count : Nat} {number : BitVec (8 * count)}
    (stored : ∀ i < count, memory (address + .ofNat 64 i) = number.extractLsb' (8 * i) 8)
    : memory.bytes address count = number := by
  induction count generalizing address with
  | zero => exact BitVec.eq_of_getLsbD_eq fun i below => absurd below (by omega)
  | succ count ih =>
      have tail : memory.bytes (address + 1) count = number.extractLsb' 8 (8 * count) := by
        apply ih
        intro i below
        rw [next_add_ofNat, stored (i + 1) (by omega)]
        ext k bound
        simp only [BitVec.getElem_extractLsb', BitVec.getLsbD_extractLsb']
        have inside : 8 * i + k < 8 * count := by omega
        rw [decide_eq_true inside, Bool.true_and]
        congr 1
        omega
      have head : memory address = number.extractLsb' 0 8 := by simpa using stored 0 (by omega)
      rw [bytes, tail, head]
      exact BitVec.extractLsb'_append_extractLsb'

/-- A written word is read back. -/
theorem readWord_writeWord (memory : Memory) (address word : Word)
    : (memory.writeWord address word).readWord address = word := by
  apply bytes_eq
  intro i below
  have distance : (address + .ofNat 64 i - address).toNat = i := by bv_omega
  rw [writeWord, distance, if_pos below]

/-- A word is the same in memories that agree on its eight bytes. -/
theorem readWord_congr {first second : Memory} {address : Word}
    (same : ∀ i < 8, first (address + .ofNat 64 i) = second (address + .ofNat 64 i))
    : first.readWord address = second.readWord address :=
  bytes_congr same

/-- Writing a word changes no byte outside it. -/
theorem writeWord_outside {memory : Memory} {address word place : Word}
    (outside : ¬ (place - address).toNat < 8)
    : memory.writeWord address word place = memory place := by
  rw [writeWord, if_neg outside]

/-- Writing the same word to memories that agree on a byte keeps them in agreement there. -/
theorem writeWord_congr {first second : Memory} {address word place : Word}
    (same : first place = second place)
    : first.writeWord address word place = second.writeWord address word place := by
  rw [writeWord, writeWord, same]

end Memory

end SlotC
