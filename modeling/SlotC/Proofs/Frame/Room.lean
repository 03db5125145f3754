import SlotC.Proofs.Frame.Tiling
import SlotC.Proofs.Grammar.Stmt

/-! Room for variables. Offsets are signed 64-bit numbers and every step towards one is
checked, so none is wrapped around. A variable for which there is no room is refused at the
length of the array or at its name, and so is a length that is not positive.
-/

namespace SlotC

-----------------------------------------------------------------------------------------
-- Offsets in 64 bits
-----------------------------------------------------------------------------------------

/-- The number as a signed 64-bit number, if it is one. -/
def exactly? (n : Int) : Option Int64 :=
  if -2 ^ 63 ≤ n ∧ n < 2 ^ 63 then some (.ofInt n) else none

theorem exactly?_eq_some {n : Int} {w : Int64} : exactly? n = some w ↔ w.toInt = n := by
  unfold exactly?
  split
  · next range =>
      have same : (Int64.ofInt n).toInt = n := Int64.toInt_ofInt_of_le range.1 range.2
      rw [Option.some.injEq]
      constructor
      · rintro rfl
        exact same
      · rintro rfl
        exact Int64.ofInt_toInt w
  · next range =>
      simp only [reduceCtorEq, false_iff]
      rintro rfl
      exact range ⟨w.le_toInt, w.toInt_lt⟩

/-- A number in the range of signed 64-bit numbers is one. -/
theorem exists_toInt_eq {n : Int} (low : -2 ^ 63 ≤ n) (high : n < 2 ^ 63)
    : ∃ w : Int64, w.toInt = n :=
  ⟨.ofInt n, Int64.toInt_ofInt_of_le low high⟩

namespace Declarator

/-- The offset of a variable below a frame of the given size, with every step checked: the
slots of the variable, their bytes, the sum and the bound.
-/
def offset? (d : Declarator) (size : Int64) : Option Int64 := do
  let slots ← exactly? d.slots
  let bytes ← exactly? (slots.toInt * 8)
  let offset ← exactly? (size.toInt + bytes.toInt)
  if offset.toInt ≤ Frame.maxSize then some offset else none

/-- No step is out of range unless the offset is. -/
theorem offset?_eq_some (d : Declarator) {size : Int64} (offset : Int64)
    (positive : 0 ≤ size.toInt)
    : d.offset? size = some offset
      ↔ offset.toInt = size.toInt + d.bytes ∧ offset.toInt ≤ Frame.maxSize := by
  have bytes : (d.bytes : Int) = 8 * d.slots := d.bytes_eq
  simp only [offset?, Option.bind_eq_bind, Option.bind_eq_some_iff, exactly?_eq_some,
    Option.ite_none_right_eq_some, Option.some.injEq]
  constructor
  · rintro ⟨slots, number, product, eight, _, sum, fits, rfl⟩
    exact ⟨by omega, fits⟩
  · rintro ⟨sum, fits⟩
    rw [Frame.maxSize] at fits
    obtain ⟨slots, number⟩ : ∃ w : Int64, w.toInt = d.slots :=
      exists_toInt_eq (by omega) (by omega)
    obtain ⟨product, eight⟩ : ∃ w : Int64, w.toInt = slots.toInt * 8 :=
      exists_toInt_eq (by omega) (by omega)
    exact ⟨slots, number, product, eight, offset, by omega, fits, rfl⟩

end Declarator

namespace Frame

/-- Adds a variable at the offset that is computed in 64 bits. -/
def declareChecked (frame : Frame) (scalar : Scalar) (d : Declarator) (argIndex : Option Nat)
    : Except SyntaxError Frame :=
  if d.name.text ∈ frame.names then .error ⟨.duplicateIdentifier d.name.text, d.name.pos⟩
  else
    match d.offset? (.ofNat frame.size) with
    | none => .error d.tooLarge
    | some offset =>
      let length := d.length.elim 0 fun length => length.value.toInt.toNat
      .ok ⟨frame.locals ++ [⟨d.name.text, scalar, offset.toInt, d.pointers, length, argIndex⟩],
        offset.toInt.toNat⟩

/-- Offsets computed in 64 bits are exact. -/
theorem declare_eq_checked {frame : Frame} (fits : frame.size ≤ maxSize) (scalar : Scalar)
    (d : Declarator) (argIndex : Option Nat)
    : frame.declare scalar d argIndex = frame.declareChecked scalar d argIndex := by
  have size : (Int64.ofNat frame.size).toInt = frame.size := by
    rw [maxSize] at fits
    exact Int64.toInt_ofNat_of_lt (by omega)
  have positive : 0 ≤ (Int64.ofNat frame.size).toInt := by omega
  unfold declare declareChecked
  simp only [lookup?_isSome]
  split
  · rfl
  · split
    · next room =>
        rw [maxSize] at room
        obtain ⟨offset, same⟩ : ∃ w : Int64, w.toInt = (frame.size + d.bytes : Nat) :=
          exists_toInt_eq (by omega) (by omega)
        rw [(d.offset?_eq_some offset positive).mpr ⟨by omega, by rw [maxSize]; omega⟩]
        have length : d.arrayLength = d.length.elim 0 fun length => length.value.toInt.toNat := by
          unfold Declarator.arrayLength
          cases d.length <;> rfl
        simp only [same, length, Int.toNat_natCast]
    · next large =>
        cases computed : d.offset? (.ofNat frame.size) with
        | none => rfl
        | some offset =>
            have := (d.offset?_eq_some offset positive).mp computed
            omega

end Frame

-----------------------------------------------------------------------------------------
-- The search for declarations
-----------------------------------------------------------------------------------------

/-- The tokens after the name of a type have the shape of a variable. -/
inductive Declarator.Shaped : List Token → Declarator → Prop where
  | single {stars rest : List Token} {name : Token} (all : ∀ star ∈ stars, star.kind = .star)
      (named : name.kind = .identifier)
      (alone : ∀ next ∈ rest.head?, next.kind ≠ .openParen ∧ next.kind ≠ .openBracket)
      : Shaped (stars ++ name :: rest) ⟨name, stars.length, none⟩
  | array {stars rest : List Token} {name left length right : Token}
      (all : ∀ star ∈ stars, star.kind = .star) (named : name.kind = .identifier)
      (opening : left.kind = .openBracket) (own : length.kind = .constant)
      (positive : 1 ≤ length.value.toInt) (closing : right.kind = .closeBracket)
      : Shaped (stars ++ name :: left :: length :: right :: rest)
          ⟨name, stars.length + 1, some length⟩

namespace Declarator

variable {stars rest ts : List Token} {name left length right : Token} {d : Declarator}

/-- What stands alone is a variable that is no array. -/
theorem ofTokens_single (all : ∀ star ∈ stars, star.kind = .star)
    (named : name.kind = .identifier)
    (alone : ∀ next ∈ rest.head?, next.kind ≠ .openParen ∧ next.kind ≠ .openBracket)
    : ofTokens (stars ++ name :: rest) = .ok (some ⟨name, stars.length, none⟩) := by
  obtain ⟨skipped, count⟩ := Grammar.skipStars_stars rest all named
  unfold ofTokens
  rw [skipped, count]
  cases rest with
  | nil => simp [named]
  | cons next rest =>
      have other := alone next rfl
      cases kind : next.kind <;> simp_all

/-- A length that is not positive is refused before anything after it is looked at. -/
theorem ofTokens_badLength (all : ∀ star ∈ stars, star.kind = .star)
    (named : name.kind = .identifier) (opening : left.kind = .openBracket)
    (own : length.kind = .constant) (low : length.value.toInt ≤ 0)
    : ofTokens (stars ++ name :: left :: length :: rest)
      = .error (.reject (.invalidArrayLength length.value) length) := by
  obtain ⟨skipped, -⟩ := Grammar.skipStars_stars (left :: length :: rest) all named
  unfold ofTokens
  rw [skipped]
  simp [named, opening, checkLength, own, low, bind, Except.bind]

theorem ofTokens_array (all : ∀ star ∈ stars, star.kind = .star)
    (named : name.kind = .identifier) (opening : left.kind = .openBracket)
    (own : length.kind = .constant) (positive : 1 ≤ length.value.toInt)
    (closing : right.kind = .closeBracket)
    : ofTokens (stars ++ name :: left :: length :: right :: rest)
      = .ok (some ⟨name, stars.length + 1, some length⟩) := by
  obtain ⟨skipped, count⟩ :=
    Grammar.skipStars_stars (left :: length :: right :: rest) all named
  have some : ¬ length.value.toInt ≤ 0 := by omega
  unfold ofTokens
  rw [skipped, count]
  simp [named, opening, checkLength, own, some, closing, bind, Except.bind]

/-- A length is a positive number. -/
theorem checkLength_eq_ok
    : checkLength length = .ok () ↔ length.kind = .constant ∧ 1 ≤ length.value.toInt := by
  unfold checkLength
  split
  · next other => simp [other]
  · next own =>
      rw [not_not] at own
      split
      · next low =>
          have : ¬ 1 ≤ length.value.toInt := by omega
          simp [this]
      · next high =>
          have : 1 ≤ length.value.toInt := by omega
          simp [own, this]

/-- What is found begins with stars and a name. -/
theorem ofTokens_head (found : ofTokens ts = .ok (some d))
    : ∃ stars name rest, ts = stars ++ name :: rest ∧ (∀ star ∈ stars, star.kind = .star)
        ∧ name.kind = .identifier := by
  have parts : ts.takeWhile (fun t => t.kind = .star) ++ skipStars ts = ts :=
    List.takeWhile_append_dropWhile
  have all : ∀ star ∈ ts.takeWhile (fun t => t.kind = .star), star.kind = .star := by
    intro star member
    simpa using List.mem_takeWhile_imp member
  unfold ofTokens at found
  cases skipped : skipStars ts with
  | nil => simp [skipped] at found
  | cons name rest =>
      rw [skipped] at parts found
      refine ⟨_, name, rest, parts.symm, all, ?_⟩
      by_contra other
      simp [other] at found

/-- What is found in brackets is the length of an array. -/
theorem ofTokens_bracket (all : ∀ star ∈ stars, star.kind = .star)
    (named : name.kind = .identifier) (opening : left.kind = .openBracket)
    (found : ofTokens (stars ++ name :: left :: rest) = .ok (some d))
    : ∃ length right more, rest = length :: right :: more ∧ length.kind = .constant
        ∧ 1 ≤ length.value.toInt ∧ right.kind = .closeBracket
        ∧ d = ⟨name, stars.length + 1, some length⟩ := by
  obtain ⟨skipped, count⟩ := Grammar.skipStars_stars (left :: rest) all named
  unfold ofTokens at found
  rw [skipped, count] at found
  cases rest with
  | nil => simp [named, opening] at found
  | cons length rest =>
      simp only [named, opening, ne_eq, not_true_eq_false, ↓reduceIte, bind_eq_ok] at found
      obtain ⟨⟨⟩, checked, found⟩ := found
      obtain ⟨own, positive⟩ := checkLength_eq_ok.mp checked
      cases rest with
      | nil => cases found
      | cons right more =>
          by_cases closing : right.kind = .closeBracket
          · simp only [closing, not_true_eq_false, ↓reduceIte] at found
            cases found
            exact ⟨length, right, more, rfl, own, positive, closing, rfl⟩
          · simp [closing] at found

/-- The search finds exactly the variables that have their shape. -/
theorem ofTokens_eq_some : ofTokens ts = .ok (some d) ↔ Shaped ts d := by
  constructor
  · intro found
    obtain ⟨stars, name, rest, rfl, all, named⟩ := ofTokens_head found
    cases rest with
    | nil =>
        rw [ofTokens_single all named (by simp)] at found
        cases found
        exact .single all named (by simp)
    | cons next rest =>
        by_cases paren : next.kind = .openParen
        · obtain ⟨skipped, -⟩ := Grammar.skipStars_stars (next :: rest) all named
          simp [ofTokens, skipped, named, paren] at found
        · by_cases opening : next.kind = .openBracket
          · obtain ⟨length, right, more, rfl, own, positive, closing, rfl⟩ :=
              ofTokens_bracket all named opening found
            exact .array all named opening own positive closing
          · have alone
                : ∀ t ∈ (next :: rest).head?, t.kind ≠ .openParen ∧ t.kind ≠ .openBracket := by
              simp [paren, opening]
            rw [ofTokens_single all named alone] at found
            cases found
            exact .single all named alone
  · rintro (⟨all, named, alone⟩ | ⟨all, named, opening, own, positive, closing⟩)
    · exact ofTokens_single all named alone
    · exact ofTokens_array all named opening own positive closing

end Declarator

namespace Frame

/-- The search for declarations goes from the first frame and tokens to the others without an
error.
-/
inductive Accepts : Frame → List Token → Frame → List Token → Prop where
  | here {frame : Frame} {ts : List Token} : Accepts frame ts frame ts
  | pass {frame frame' : Frame} {t : Token} {ts rest : List Token} (other : t.kind.isType = false)
      (more : Accepts frame ts frame' rest)
      : Accepts frame (t :: ts) frame' rest
  | function {frame frame' : Frame} {t : Token} {ts rest : List Token} {scalar : Scalar}
      (own : t.kind = .type scalar) (none : Declarator.ofTokens ts = .ok none)
      (more : Accepts frame ts frame' rest)
      : Accepts frame (t :: ts) frame' rest
  | declared {frame frame₁ frame' : Frame} {t : Token} {ts rest : List Token} {scalar : Scalar}
      {d : Declarator} (own : t.kind = .type scalar) (shaped : Declarator.Shaped ts d)
      (added : frame.declare scalar d none = .ok frame₁) (more : Accepts frame₁ ts frame' rest)
      : Accepts frame (t :: ts) frame' rest

/-- All parameters are added and the search of the body has come to the tokens `rest`. -/
structure Reaches (params : List Param) (body : List Token) (frame : Frame) (rest : List Token)
    : Prop where
  few : params.length ≤ maxParams
  accepts : ∃ start, empty.declareParams 0 params = .ok start ∧ Accepts start body frame rest

/-- The frame comes up while the parameters or the variables of a body are added. -/
inductive Arises (params : List Param) (body : List Token) (frame : Frame) : Prop where
  | given {some : List Param} (first : some <+: params)
      (added : empty.declareParams 0 some = .ok frame)
  | reached {rest : List Token} (reaches : Reaches params body frame rest)

/-- The tokens start with a declaration that the frame has no room for or whose length is not
positive.
-/
inductive Refuses (frame : Frame) : List Token → SyntaxError → Prop where
  | noRoom {t : Token} {ts : List Token} {scalar : Scalar} {d : Declarator}
      (own : t.kind = .type scalar) (shaped : Declarator.Shaped ts d)
      (new : d.name.text ∉ frame.names) (large : maxSize < frame.size + 8 * d.slots)
      : Refuses frame (t :: ts)
          ⟨.invalidArrayLength ((d.length.map Token.value).getD 1), (d.length.getD d.name).pos⟩
  | badLength {t name left length : Token} {stars rest : List Token} {scalar : Scalar}
      (own : t.kind = .type scalar) (all : ∀ star ∈ stars, star.kind = .star)
      (named : name.kind = .identifier) (opening : left.kind = .openBracket)
      (number : length.kind = .constant) (low : length.value.toInt ≤ 0)
      : Refuses frame (t :: (stars ++ name :: left :: length :: rest))
          ⟨.invalidArrayLength length.value, length.pos⟩

section

variable {frame frame' : Frame} {params : List Param} {body ts rest : List Token}
  {error : SyntaxError}

/-- The search only depends on where it has come to. -/
theorem Accepts.declareLocals_eq (accepts : Accepts frame ts frame' rest)
    : frame.declareLocals ts = frame'.declareLocals rest := by
  induction accepts with
  | here => rfl
  | @pass _ _ t _ _ other _ ih =>
      rw [← ih, declareLocals]
      cases kind : t.kind <;> simp_all [Kind.isType]
  | function own none _ ih => simp [← ih, declareLocals, own, none, bind, Except.bind]
  | declared own shaped added _ ih =>
      simp [← ih, declareLocals, own, Declarator.ofTokens_eq_some.mpr shaped, added, bind,
        Except.bind, Except.mapError]

/-- The search keeps within the largest frame. -/
theorem Accepts.takes (accepts : Accepts frame ts frame' rest) (start : frame.Takes [])
    : frame'.Takes [] := by
  induction accepts with
  | here => exact start
  | pass _ _ ih | function _ _ _ ih => exact ih start
  | @declared _ _ _ _ _ _ scalar d _ _ added _ ih =>
      obtain ⟨rfl, start'⟩ := start.declare (e := ⟨scalar, d, none⟩) added
      exact ih start'

theorem takes_of_declareParams (added : empty.declareParams 0 params = .ok frame)
    : frame.Takes [] := by
  obtain ⟨takes, rfl⟩ := (declareParams_eq_ok takes_empty).mp added
  exact takes_empty.nil_addAll takes

theorem Arises.fits (arises : Arises params body frame) : frame.size ≤ maxSize := by
  cases arises with
  | given _ added => exact (takes_of_declareParams added).fits
  | reached reaches =>
      obtain ⟨start, added, accepts⟩ := reaches.accepts
      exact (accepts.takes (takes_of_declareParams added)).fits

/-- The search ends at a declaration that is refused. -/
theorem Refuses.declareLocals_eq (refuses : frame.Refuses rest error)
    : frame.declareLocals rest = .error (.rejected error) := by
  cases refuses with
  | @noRoom t ts scalar d own shaped new large =>
      have refused : frame.declare scalar d none = .error d.tooLarge := by
        have unknown : ¬ (frame.lookup? d.name.text).isSome := fun known =>
          new (lookup?_isSome.mp known)
        have above : ¬ frame.size + d.bytes ≤ maxSize := by
          have bytes := d.bytes_eq
          omega
        simp [declare, unknown, above]
      have same : d.tooLarge
          = ⟨.invalidArrayLength ((d.length.map Token.value).getD 1),
              (d.length.getD d.name).pos⟩ := by
        cases length : d.length <;> simp [Declarator.tooLarge, length]
      rw [← same]
      simp [declareLocals, own, Declarator.ofTokens_eq_some.mpr shaped, refused, bind, Except.bind,
        Except.mapError]
  | badLength own all named opening number low =>
      simp [declareLocals, own, Declarator.ofTokens_badLength all named opening number low, bind,
        Except.bind, Failure.reject]

/-- No frame is laid out for a body with a declaration that is refused. -/
theorem Reaches.ofBody_eq (reaches : Reaches params body frame rest)
    (refuses : frame.Refuses rest error) (function : Token)
    : ofBody function params body = .error error := by
  obtain ⟨few, start, added, accepts⟩ := reaches
  rw [ofBody, if_neg (Nat.not_lt.mpr few), added]
  simp [accepts.declareLocals_eq, refuses.declareLocals_eq, bind, Except.bind, Except.mapError,
    Failure.locate]

end

end Frame

/-- A frame that is laid out is tiled by its variables, at offsets that 64 bits hold exactly.
None is laid out for a body with a variable too many or a length that is not positive.
-/
theorem ofBody_layout (function : Token) (params : List Param) (body : List Token)
    : (∀ frame, Frame.ofBody function params body = .ok frame → frame.Tiled params.length)
      ∧ (∀ frame, Frame.Arises params body frame → ∀ scalar d argIndex,
          frame.declare scalar d argIndex = frame.declareChecked scalar d argIndex)
      ∧ ∀ frame rest error, Frame.Reaches params body frame rest → frame.Refuses rest error →
          Frame.ofBody function params body = .error error := by
  refine ⟨?_, ?_, ?_⟩
  · intro frame laid
    exact Frame.tiled_of_ofBody laid
  · intro frame arises scalar d argIndex
    exact Frame.declare_eq_checked arises.fits scalar d argIndex
  · intro frame rest error reaches refuses
    exact reaches.ofBody_eq refuses function

namespace FullFrame

/-- The name of a function of one parameter. -/
def function : Token :=
  ⟨.identifier, "f", 0, 4⟩

/-- A parameter. -/
def param : Param :=
  ⟨.int, 1, ⟨.identifier, "p", 0, 11⟩⟩

/-- The largest array that there is room for below the parameter. -/
def array : List Token :=
  [⟨.type .int, "int", 0, 16⟩, ⟨.identifier, "a", 0, 20⟩, ⟨.openBracket, "[", 0, 21⟩,
    ⟨.constant, "268435453", 268435453, 22⟩, ⟨.closeBracket, "]", 0, 31⟩,
    ⟨.semicolon, ";", 0, 32⟩]

/-- One more variable. -/
def another : List Token :=
  [⟨.type .int, "int", 0, 34⟩, ⟨.identifier, "b", 0, 38⟩, ⟨.semicolon, ";", 0, 39⟩]

/-- The frame of the parameter and the array. -/
def frame : Frame :=
  ⟨[⟨"p", .int, 8, 1, 0, some 0⟩, ⟨"a", .int, 0x7ffffff0, 1, 268435453, none⟩], 0x7ffffff0⟩

theorem laid : Frame.ofBody function [param] array = .ok frame := by
  rfl

/-- After the array the frame is full. -/
theorem reaches : Frame.Reaches [param] (array ++ another) frame another where
  few := by decide
  accepts := by
    refine ⟨⟨[⟨"p", .int, 8, 1, 0, some 0⟩], 8⟩, rfl, ?_⟩
    have shaped := @Declarator.Shaped.array [] (array.drop 5 ++ another) array[1] array[2] array[3]
      array[4] (by simp) rfl rfl rfl (by decide) rfl
    refine .declared rfl shaped rfl ?_
    exact .pass rfl (.pass rfl (.pass rfl (.pass rfl (.pass rfl .here))))

end FullFrame

/-- A frame can be full, and then it takes no other variable. -/
theorem ofBody_layout_full
    : FullFrame.frame.Tiled 1
      ∧ Frame.ofBody FullFrame.function [FullFrame.param] (FullFrame.array ++ FullFrame.another)
        = .error ⟨.invalidArrayLength 1, 38⟩ := by
  constructor
  · exact (ofBody_layout FullFrame.function [FullFrame.param] FullFrame.array).1 _ FullFrame.laid
  · refine (ofBody_layout _ _ _).2.2 _ _ _ FullFrame.reaches ?_
    have shaped := @Declarator.Shaped.single [] (FullFrame.another.drop 2) FullFrame.another[1]
      (by simp) rfl (by simp [FullFrame.another])
    exact .noRoom rfl shaped (by decide) (by decide)

end SlotC
