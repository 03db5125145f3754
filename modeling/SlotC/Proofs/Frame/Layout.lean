import Mathlib.Algebra.Order.Ring.Int
import Mathlib.Data.List.Nodup
import SlotC.Frame.Layout

/-! Layout of frames. Variables lie below each other in the order of their declaration, so
each has the bytes between its offset and that of the variable before it. Parameters come
first.
-/

namespace SlotC

section

variable {ε ε' α β : Type}

/-- Two steps succeed if the first does and the second does with its result. -/
theorem bind_eq_ok {x : Except ε α} {f : α → Except ε β} {b : β}
    : (x >>= f) = .ok b ↔ ∃ a, x = .ok a ∧ f a = .ok b := by
  cases x with
  | error => simp [bind, Except.bind]
  | ok a => simp [bind, Except.bind]

/-- Renaming an error does not make a success. -/
theorem mapError_eq_ok {x : Except ε α} {f : ε → ε'} {a : α}
    : x.mapError f = .ok a ↔ x = .ok a := by
  cases x with
  | error => simp [Except.mapError]
  | ok => simp [Except.mapError]

end

/-- The number of words that a variable takes. -/
def Variable.slots (v : Variable) : Nat :=
  max 1 v.arrayLength

namespace Declarator

/-- The number of words that a declared variable takes: for an array the value of its length, and
at least one.
-/
def slots (d : Declarator) : Int :=
  match d.length with
  | none => 1
  | some length => max 1 length.value.toInt

/-- Every variable has eight bytes for each of its words. -/
theorem bytes_eq (d : Declarator) : (d.bytes : Int) = 8 * d.slots := by
  unfold bytes arrayLength slots slotSize
  cases d.length with
  | none => rfl
  | some length =>
      simp only [Option.map_some, Option.getD_some]
      omega

end Declarator

/-- A variable that is to be added to a frame. -/
structure Entry where
  scalar : Scalar
  declarator : Declarator
  argIndex : Option Nat

namespace Entry

/-- The name that is declared. -/
def name (e : Entry) : String :=
  e.declarator.name.text

/-- Bytes that the variable takes. -/
def bytes (e : Entry) : Nat :=
  e.declarator.bytes

/-- Parameters as entries, the first of which has the given index. -/
def ofParams (index : Nat) : List Param → List Entry
  | [] => []
  | param :: params =>
    ⟨param.scalar, ⟨param.name, param.pointers, none⟩, some index⟩
      :: ofParams (index + 1) params

/-- The variables that the tokens of a body declare. -/
def ofTokens : List Token → Except Failure (List Entry)
  | [] => .ok []
  | t :: ts =>
    match t.kind with
    | .type scalar => do
      match ← Declarator.ofTokens ts with
      | none => ofTokens ts
      | some d => do
        let more ← ofTokens ts
        return ⟨scalar, d, none⟩ :: more
    | _ => ofTokens ts

/-- Variables together have eight bytes for each of their words. -/
theorem sum_bytes (es : List Entry)
    : ((es.map bytes).sum : Int) = 8 * (es.map fun e => e.declarator.slots).sum := by
  induction es with
  | nil => rfl
  | cons e es ih =>
      rw [List.map_cons, List.map_cons, List.sum_cons, List.sum_cons, Int.natCast_add, ih,
        Int.mul_add, bytes, e.declarator.bytes_eq]

end Entry

namespace Frame

/-- Adds a variable below those that the frame has. -/
def add (frame : Frame) (e : Entry) : Frame :=
  ⟨frame.locals ++ [⟨e.name, e.scalar, (frame.size + e.bytes : Nat), e.declarator.pointers,
    e.declarator.arrayLength, e.argIndex⟩], frame.size + e.bytes⟩

/-- Adds variables, one below the other. -/
def addAll (frame : Frame) (es : List Entry) : Frame :=
  es.foldl add frame

/-- The names of the variables. -/
def names (frame : Frame) : List String :=
  frame.locals.map Variable.name

/-- The frame has room for the variables, and no two names are the same. -/
structure Takes (frame : Frame) (es : List Entry) : Prop where
  names : (frame.names ++ es.map Entry.name).Nodup
  fits : frame.size + (es.map Entry.bytes).sum ≤ maxSize

section

variable {frame frame' : Frame} {e : Entry} {es : List Entry}

/-- A frame finds the names of its variables and no others. -/
theorem lookup?_isSome {name : String} : (frame.lookup? name).isSome ↔ name ∈ frame.names := by
  simp [lookup?, names, List.findIdx?_isSome]

theorem lookup?_exists {name : String}
    : (∃ id, frame.lookup? name = some id) ↔ name ∈ frame.names := by
  rw [← lookup?_isSome, Option.isSome_iff_exists]

/-- What is found is the index of a variable. -/
theorem get?_of_lookup? {name : String} {id : Nat} (found : frame.lookup? name = some id)
    : (frame.get? id).isSome := by
  obtain ⟨inside, -, -⟩ := List.findIdx?_eq_some_iff_getElem.mp found
  simpa [get?] using inside

theorem names_add : (frame.add e).names = frame.names ++ [e.name] := by
  simp [names, add]

/-- A variable is added if its name is new and there is room for it. -/
theorem declare_eq_ok
    : frame.declare e.scalar e.declarator e.argIndex = .ok frame'
      ↔ e.name ∉ frame.names ∧ frame.size + e.bytes ≤ maxSize ∧ frame' = frame.add e := by
  rw [← lookup?_isSome]
  unfold declare
  split
  · next known => simp [Entry.name, known]
  · next new =>
      dsimp only
      split
      · next fits => simp [Entry.name, Entry.bytes, new, fits, add, eq_comm]
      · next large => simp [Entry.bytes, large]

/-- A frame that has taken a variable is one that variables can be added to. -/
theorem Takes.declare (start : frame.Takes [])
    (declared : frame.declare e.scalar e.declarator e.argIndex = .ok frame')
    : frame' = frame.add e ∧ (frame.add e).Takes [] := by
  obtain ⟨new, fits, rfl⟩ := declare_eq_ok.mp declared
  have distinct : frame.names.Nodup := by simpa using start.names
  refine ⟨rfl, ?_, fits⟩
  rw [names_add, List.map_nil, List.append_nil]
  exact distinct.append (List.nodup_singleton _) (List.disjoint_singleton.mpr new)

/-- Room for variables is room for the first of them and, once it is added, for the others.
-/
theorem takes_cons
    : frame.Takes (e :: es)
      ↔ frame.declare e.scalar e.declarator e.argIndex = .ok (frame.add e)
        ∧ (frame.add e).Takes es := by
  have same : (frame.add e).names ++ es.map Entry.name
      = frame.names ++ (e :: es).map Entry.name := by
    rw [names_add, List.append_assoc, List.singleton_append, List.map_cons]
  have total : (frame.add e).size + (es.map Entry.bytes).sum
      = frame.size + ((e :: es).map Entry.bytes).sum := by
    rw [List.map_cons, List.sum_cons, ← Nat.add_assoc]
    rfl
  rw [declare_eq_ok]
  constructor
  · rintro ⟨distinct, fits⟩
    rw [← same] at distinct
    rw [← total] at fits
    refine ⟨⟨?_, Nat.le_trans (Nat.le_add_right _ _) fits, rfl⟩, distinct, fits⟩
    have head := List.Nodup.of_append_left distinct
    rw [names_add] at head
    exact List.disjoint_singleton.mp (List.disjoint_of_nodup_append head)
  · rintro ⟨-, distinct, fits⟩
    exact ⟨same ▸ distinct, total ▸ fits⟩

/-- Parameters are declared if the frame takes them. -/
theorem declareParams_eq_ok {params : List Param} {index : Nat} (start : frame.Takes [])
    : frame.declareParams index params = .ok frame'
      ↔ frame.Takes (Entry.ofParams index params)
        ∧ frame' = frame.addAll (Entry.ofParams index params) := by
  induction params generalizing frame index with
  | nil => simp [declareParams, Entry.ofParams, addAll, start, eq_comm]
  | cons param params ih =>
      rw [declareParams, bind_eq_ok, Entry.ofParams, takes_cons]
      constructor
      · rintro ⟨frame₁, first, rest⟩
        obtain ⟨rfl, start'⟩ := start.declare
          (e := ⟨param.scalar, ⟨param.name, param.pointers, none⟩, some index⟩) first
        obtain ⟨takes, rfl⟩ := (ih start').mp rest
        exact ⟨⟨first, takes⟩, rfl⟩
      · rintro ⟨⟨first, takes⟩, rfl⟩
        exact ⟨_, first, (ih (start.declare first).2).mpr ⟨takes, rfl⟩⟩

/-- The variables of a body are declared if its tokens have their form and the frame takes
them.
-/
theorem declareLocals_eq_ok {ts : List Token} (start : frame.Takes [])
    : frame.declareLocals ts = .ok frame'
      ↔ ∃ es, Entry.ofTokens ts = .ok es ∧ frame.Takes es ∧ frame' = frame.addAll es := by
  induction ts generalizing frame with
  | nil => simp [declareLocals, Entry.ofTokens, addAll, start, eq_comm]
  | cons t ts ih =>
      simp only [declareLocals, Entry.ofTokens]
      cases t.kind with
      | type scalar =>
          cases found : Declarator.ofTokens ts with
          | error failure => simp [bind, Except.bind]
          | ok d =>
              cases d with
              | none => exact ih start
              | some d =>
                  show ((frame.declare scalar d none).mapError .rejected
                      >>= fun frame => frame.declareLocals ts) = .ok frame'
                    ↔ ∃ es, (Entry.ofTokens ts >>= fun more => pure (⟨scalar, d, none⟩ :: more))
                          = .ok es
                        ∧ frame.Takes es ∧ frame' = frame.addAll es
                  constructor
                  · intro declared
                    obtain ⟨frame₁, first, rest⟩ := bind_eq_ok.mp declared
                    rw [mapError_eq_ok] at first
                    obtain ⟨rfl, start'⟩ := start.declare (e := ⟨scalar, d, none⟩) first
                    obtain ⟨es, more, takes, rfl⟩ := (ih start').mp rest
                    refine ⟨⟨scalar, d, none⟩ :: es, ?_, takes_cons.mpr ⟨first, takes⟩, rfl⟩
                    exact bind_eq_ok.mpr ⟨es, more, rfl⟩
                  · rintro ⟨es, entries, takes, rfl⟩
                    obtain ⟨more, rest, same⟩ := bind_eq_ok.mp entries
                    cases same
                    obtain ⟨first, takes⟩ := takes_cons.mp takes
                    refine bind_eq_ok.mpr ⟨_, mapError_eq_ok.mpr first, ?_⟩
                    exact (ih (start.declare first).2).mpr ⟨more, rest, takes, rfl⟩
      | _ => exact ih start

/-- Room for variables and more is room for them and, once they are added, for the others. -/
theorem takes_append {more : List Entry} (start : frame.Takes [])
    : frame.Takes (es ++ more) ↔ frame.Takes es ∧ (frame.addAll es).Takes more := by
  induction es generalizing frame with
  | nil => simp [start, addAll]
  | cons e es ih =>
      rw [List.cons_append, takes_cons, takes_cons, and_assoc]
      refine and_congr_right fun first => ?_
      exact ih (start.declare first).2

theorem takes_empty : empty.Takes [] :=
  ⟨.nil, Nat.zero_le _⟩

/-- Room for variables is room for none of them. -/
theorem Takes.nil_addAll (start : frame.Takes []) (takes : frame.Takes es)
    : (frame.addAll es).Takes [] := by
  rw [← List.append_nil es] at takes
  exact ((takes_append start).mp takes).2

/-- The frame of a function is laid out if there are few parameters, the tokens of the body
have their form and all variables fit.
-/
theorem ofBody_eq_ok {name : Token} {params : List Param} {body : List Token}
    : ofBody name params body = .ok frame
      ↔ params.length ≤ maxParams
        ∧ ∃ es, Entry.ofTokens body = .ok es ∧ empty.Takes (Entry.ofParams 0 params ++ es)
            ∧ frame = empty.addAll (Entry.ofParams 0 params ++ es) := by
  unfold ofBody
  split
  · next many => simp [Nat.not_le.mpr many]
  · next few =>
      simp only [bind_eq_ok, mapError_eq_ok, declareParams_eq_ok takes_empty,
        takes_append takes_empty, Nat.le_of_not_lt few, true_and]
      have total (es : List Entry)
          : empty.addAll (Entry.ofParams 0 params ++ es)
            = (empty.addAll (Entry.ofParams 0 params)).addAll es :=
        List.foldl_append
      constructor
      · rintro ⟨_, ⟨takes, rfl⟩, declared⟩
        obtain ⟨es, found, more, rfl⟩ :=
          (declareLocals_eq_ok (takes_empty.nil_addAll takes)).mp declared
        exact ⟨es, found, ⟨takes, more⟩, (total es).symm⟩
      · rintro ⟨es, found, ⟨takes, more⟩, rfl⟩
        refine ⟨_, ⟨takes, rfl⟩, ?_⟩
        exact (declareLocals_eq_ok (takes_empty.nil_addAll takes)).mpr ⟨es, found, more, total es⟩

-----------------------------------------------------------------------------------------
-- Places of the variables
-----------------------------------------------------------------------------------------

/-- Every variable ends at or below the base of the frame and starts within the bytes of the
frame.
-/
def Laid (frame : Frame) : Prop :=
  ∀ v ∈ frame.locals, (slotSize * v.slots : Nat) ≤ v.offset ∧ v.offset ≤ frame.size

theorem laid_addAll (laid : frame.Laid) : (frame.addAll es).Laid := by
  induction es generalizing frame with
  | nil => exact laid
  | cons e es ih =>
      apply ih
      intro v member
      have more : frame.size ≤ (frame.add e).size := Nat.le_add_right _ _
      rcases List.mem_append.mp member with old | new
      · obtain ⟨low, high⟩ := laid v old
        omega
      · rw [List.mem_singleton] at new
        subst new
        have own : slotSize * max 1 e.declarator.arrayLength ≤ frame.size + e.bytes :=
          Nat.le_add_left _ _
        exact ⟨Int.ofNat_le.mpr own, Int.le_refl _⟩

/-- The bytes of a frame are those of its variables. -/
theorem size_addAll : (frame.addAll es).size = frame.size + (es.map Entry.bytes).sum := by
  induction es generalizing frame with
  | nil => rfl
  | cons e es ih =>
      rw [List.map_cons, List.sum_cons, ← Nat.add_assoc]
      exact ih

/-- The variables that are added come after those that are there, in order. -/
theorem locals_addAll (frame : Frame) (es : List Entry)
    : ∃ vs, (frame.addAll es).locals = frame.locals ++ vs
        ∧ vs.map Variable.argIndex = es.map Entry.argIndex
        ∧ vs.map Variable.name = es.map Entry.name := by
  induction es generalizing frame with
  | nil => exact ⟨[], by simp [addAll]⟩
  | cons e es ih =>
      obtain ⟨vs, locals, indices, names⟩ := ih (frame.add e)
      refine ⟨⟨e.name, e.scalar, (frame.size + e.bytes : Nat), e.declarator.pointers,
        e.declarator.arrayLength, e.argIndex⟩ :: vs, ?_, ?_, ?_⟩
      · exact locals.trans (List.append_assoc _ _ _)
      · rw [List.map_cons, List.map_cons, indices]
      · rw [List.map_cons, List.map_cons, names]

theorem names_addAll (es : List Entry) : (empty.addAll es).names = es.map Entry.name := by
  obtain ⟨vs, locals, -, names⟩ := locals_addAll empty es
  rw [Frame.names, locals, ← names]
  rfl

end

end Frame

end SlotC
