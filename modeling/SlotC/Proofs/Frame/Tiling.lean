import Mathlib.Data.Set.BooleanAlgebra
import Mathlib.Order.CompletePartialOrder
import SlotC.Proofs.Grammar.Function

/-! The bytes of a frame. Counted down from the base, the bytes of every variable begin where
those of the one before it end, so no byte has two owners and none is left over.
-/

namespace SlotC

/-- The bytes of a variable, counted down from the base of the frame. -/
def Variable.extent (v : Variable) : Set Int :=
  {byte | v.offset - 8 * v.slots < byte ∧ byte ≤ v.offset}

theorem Variable.mem_extent {v : Variable} {byte : Int}
    : byte ∈ v.extent ↔ v.offset - 8 * v.slots < byte ∧ byte ≤ v.offset :=
  Iff.rfl

/-- The variable that an entry becomes below the given number of bytes. -/
def Entry.placed (e : Entry) (above : Nat) : Variable :=
  ⟨e.name, e.scalar, (above + e.bytes : Nat), e.declarator.pointers, e.declarator.arrayLength,
    e.argIndex⟩

namespace Frame

variable {frame : Frame} {e : Entry} {es : List Entry}

theorem locals_add : (frame.add e).locals = frame.locals ++ [e.placed frame.size] :=
  rfl

theorem size_add : (frame.add e).size = frame.size + 8 * (e.placed frame.size).slots :=
  rfl

theorem offset_placed : (e.placed frame.size).offset = (frame.add e).size :=
  rfl

/-- The bytes of the variables lie below each other without a gap, down to the size of the
frame.
-/
structure Packed (frame : Frame) : Prop where
  offsets : ∀ (i : Nat) (v : Variable), frame.get? i = some v →
    v.offset = 8 * ((frame.locals.take (i + 1)).map Variable.slots).sum
  size : frame.size = 8 * (frame.locals.map Variable.slots).sum
  apart : frame.locals.Pairwise fun v w => Disjoint v.extent w.extent
  covers : ∀ byte : Int, (∃ v ∈ frame.locals, byte ∈ v.extent) ↔ 0 < byte ∧ byte ≤ frame.size

theorem packed_empty : empty.Packed := by
  refine ⟨by simp [get?, empty], rfl, .nil, ?_⟩
  intro byte
  simp only [empty, List.not_mem_nil, false_and, exists_false, false_iff, not_and]
  omega

/-- The bytes of a new variable begin where the frame ended. -/
theorem mem_extent_placed {byte : Int}
    : byte ∈ (e.placed frame.size).extent ↔ frame.size < byte ∧ byte ≤ (frame.add e).size := by
  rw [Variable.mem_extent, offset_placed, size_add]
  omega

/-- A new variable keeps the frame without gaps. -/
theorem Packed.add (packed : frame.Packed) : (frame.add e).Packed := by
  have grows : frame.size ≤ (frame.add e).size := Nat.le_add_right _ _
  have total : (frame.add e).size = 8 * ((frame.add e).locals.map Variable.slots).sum := by
    rw [size_add, locals_add, List.map_append, List.sum_append, Nat.mul_add, ← packed.size]
    simp
  refine ⟨?_, total, ?_, ?_⟩
  · intro i v found
    rw [get?, locals_add, List.getElem?_append] at found
    split at found
    · next old =>
        have same : (frame.add e).locals.take (i + 1) = frame.locals.take (i + 1) := by
          rw [locals_add, List.take_append_of_le_length old]
        rw [same]
        exact packed.offsets i v found
    · next new =>
        rw [List.getElem?_singleton] at found
        split at found
        · next last =>
            have all : (frame.add e).locals.take (i + 1) = (frame.add e).locals := by
              refine List.take_of_length_le ?_
              rw [locals_add, List.length_append, List.length_singleton]
              omega
            cases found
            rw [all, offset_placed, total]
            rfl
        · cases found
  · rw [locals_add, List.pairwise_append]
    refine ⟨packed.apart, List.pairwise_singleton _ _, ?_⟩
    intro v old w new
    obtain rfl := List.mem_singleton.mp new
    rw [Set.disjoint_left]
    intro byte inside
    have := (packed.covers byte).mp ⟨v, old, inside⟩
    rw [mem_extent_placed]
    omega
  · intro byte
    rw [locals_add]
    simp only [List.mem_append, List.mem_singleton, or_and_right, exists_or, exists_eq_left,
      packed.covers, mem_extent_placed]
    omega

/-- Variables that are added one below the other leave no gaps. -/
theorem Packed.addAll (packed : frame.Packed) : (frame.addAll es).Packed := by
  induction es generalizing frame with
  | nil => exact packed
  | cons e es ih => exact ih packed.add

/-- The size of a frame is the offset of its last variable. -/
theorem Packed.size_eq_last (packed : frame.Packed)
    : (frame.size : Int) = (frame.locals.getLast?.map Variable.offset).getD 0 := by
  cases last : frame.locals.getLast? with
  | none =>
      have none : frame.locals = [] := List.getLast?_eq_none_iff.mp last
      simp [packed.size, none]
  | some v =>
      have found : frame.get? (frame.locals.length - 1) = some v := by
        rw [get?, ← List.getLast?_eq_getElem?, last]
      have offset := packed.offsets _ v found
      rw [List.take_of_length_le (by omega)] at offset
      simp [packed.size, offset]

/-- The offsets of the variables lie between the base and the size of the frame. -/
theorem Packed.offset_le (packed : frame.Packed) {v : Variable} (member : v ∈ frame.locals)
    : 8 * v.slots ≤ v.offset ∧ v.offset ≤ frame.size := by
  have some : 1 ≤ v.slots := Nat.le_max_left 1 _
  have first := (packed.covers (v.offset - 8 * v.slots + 1)).mp
    ⟨v, member, by rw [Variable.mem_extent]; omega⟩
  have last := (packed.covers v.offset).mp
    ⟨v, member, by rw [Variable.mem_extent]; omega⟩
  omega

/-- The size of a frame is that of every function with its variables. -/
theorem Packed.frameSize_eq (packed : frame.Packed) (f : Function) (own : f.locals = frame.locals)
    : f.frameSize = frame.size := by
  rw [Function.frameSize, own]
  cases last : frame.locals.getLast? with
  | none =>
      have none : frame.locals = [] := List.getLast?_eq_none_iff.mp last
      simp [packed.size, none]
  | some v =>
      have size : (frame.size : Int) = v.offset := by simp [packed.size_eq_last, last]
      have greatest : (frame.locals.map Variable.offset).max? = some v.offset := by
        refine List.max?_eq_some_iff.mpr ⟨?_, ?_⟩
        · exact List.mem_map_of_mem (List.mem_of_getLast? last)
        · intro offset member
          obtain ⟨w, inside, rfl⟩ := List.mem_map.mp member
          exact size ▸ (packed.offset_le inside).2
      simp [greatest, size]

/-- A name is found at the variable that has it. -/
theorem lookup?_eq_some (distinct : frame.names.Nodup) {name : String} {id : Nat}
    : frame.lookup? name = some id ↔ ∃ v, frame.get? id = some v ∧ v.name = name := by
  constructor
  · intro found
    obtain ⟨inside, same, -⟩ := List.findIdx?_eq_some_iff_getElem.mp found
    exact ⟨_, List.getElem?_eq_getElem inside, by simpa using same⟩
  · rintro ⟨v, found, rfl⟩
    obtain ⟨inside, rfl⟩ := List.getElem?_eq_some_iff.mp found
    refine List.findIdx?_eq_some_iff_getElem.mpr ⟨inside, by simp, ?_⟩
    intro j before same
    -- An earlier variable of this name would be the same one.
    have equal : frame.names[j]? = frame.names[id]? := by
      simpa [names, List.getElem?_eq_getElem, inside, Nat.lt_trans before inside] using same
    have inside' : id < frame.names.length := by simpa [names] using inside
    have := (List.getElem?_inj inside' distinct).mp equal.symm
    omega

/-- The variables of a frame with the given number of parameters: who they are, where they
lie, and how much they take.
-/
structure Tiled (frame : Frame) (params : Nat) : Prop where
  distinct : frame.names.Nodup
  found : ∀ (name : String) (id : Nat),
    frame.lookup? name = some id ↔ ∃ v, frame.get? id = some v ∧ v.name = name
  enough : params ≤ frame.locals.length
  arguments : ∀ (i : Nat) (v : Variable), frame.get? i = some v →
    v.argIndex = if i < params then some i else none
  packed : frame.Packed
  elements : ∀ v ∈ frame.locals, ∀ j < v.arrayLength, ∀ byte : Nat, byte < 8 → ∀ base : Int,
    base - (base - v.offset + 8 * j + byte) ∈ v.extent
  size : (frame.size : Int) = (frame.locals.getLast?.map Variable.offset).getD 0
  frameSize : ∀ f : Function, f.locals = frame.locals → f.frameSize = frame.size
  fits : frame.size ≤ maxSize

/-- The bytes of an element of an array are bytes of the array. -/
theorem mem_extent_of_lt {v : Variable} {j byte : Nat} (inside : j < v.arrayLength)
    (part : byte < 8) (base : Int)
    : base - (base - v.offset + 8 * j + byte) ∈ v.extent := by
  have enough : v.arrayLength ≤ v.slots := Nat.le_max_right 1 _
  rw [Variable.mem_extent]
  omega

/-- The arguments of a function are its first variables, in order. -/
theorem argIndex_addAll (params : List Param) (others : ∀ e ∈ es, e.argIndex = none)
    : params.length ≤ (empty.addAll (Entry.ofParams 0 params ++ es)).locals.length
      ∧ ∀ (i : Nat) (v : Variable),
          (empty.addAll (Entry.ofParams 0 params ++ es)).get? i = some v →
          v.argIndex = if i < params.length then some i else none := by
  obtain ⟨vs, locals, indices, -⟩ := locals_addAll empty (Entry.ofParams 0 params ++ es)
  have own : (empty.addAll (Entry.ofParams 0 params ++ es)).locals = vs := locals
  rw [List.map_append, Entry.argIndex_ofParams, ← List.range_eq_range'] at indices
  refine ⟨?_, ?_⟩
  · have length := congrArg List.length indices
    simp only [List.length_map, List.length_append, List.length_range] at length
    rw [own]
    omega
  · intro i v at_i
    rw [get?, own] at at_i
    have index : (vs.map Variable.argIndex)[i]? = some v.argIndex := by
      rw [List.getElem?_map, at_i]
      rfl
    rw [indices, List.getElem?_append] at index
    split
    · next given => simpa [given, eq_comm] using index
    · next declared =>
        rw [if_neg (by simpa using declared), List.getElem?_map, Option.map_eq_some_iff] at index
        obtain ⟨e, member, same⟩ := index
        rw [← same]
        exact others e (List.mem_of_getElem? member)

/-- The frame of a function is tiled by its variables. -/
theorem tiled_of_ofBody {name : Token} {params : List Param} {body : List Token}
    (laid : ofBody name params body = .ok frame)
    : frame.Tiled params.length := by
  obtain ⟨-, es, found, takes, rfl⟩ := ofBody_eq_ok.mp laid
  obtain ⟨enough, arguments⟩ := argIndex_addAll params (Entry.argIndex_ofTokens found)
  have packed : (empty.addAll (Entry.ofParams 0 params ++ es)).Packed := packed_empty.addAll
  have after := takes_empty.nil_addAll takes
  have distinct : (empty.addAll (Entry.ofParams 0 params ++ es)).names.Nodup := by
    simpa using after.names
  exact {
    distinct
    found := fun name id => lookup?_eq_some distinct
    enough
    arguments
    packed
    elements := fun v _ j inside byte part base => mem_extent_of_lt inside part base
    size := packed.size_eq_last
    frameSize := packed.frameSize_eq
    fits := after.fits
  }

end Frame

end SlotC
