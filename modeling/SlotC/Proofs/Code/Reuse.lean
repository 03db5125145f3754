import SlotC.Proofs.Code.Faults
import SlotC.Proofs.Code.Renumbering

/-! Functions one after another. Of all that earlier functions leave behind, with code or with an
error, a function takes up the number of the next label only: its lines go behind those that are
there, and it counts the values on the stack from none.
-/

namespace SlotC

-----------------------------------------------------------------------------------------
-- Values on the stack
-----------------------------------------------------------------------------------------

namespace Emit

/-- No function is found to leave values on the stack. -/
theorem function_only_balanced (f : Function)
    : (function f).Only fun error => ∀ depth name, error ≠ .unbalanced depth name := by
  apply function_only
  · intro _ depth name same
    cases same
  · intro v _ _ depth name same
    cases same
  · intro id _ _ depth name same
    cases same
  · intro n _ error explains depth name same
    subst same
    cases explains

/-- A function with code leaves no value on the stack. -/
theorem function_depth {f : Function} {g g' : GenState} {ls : Listing}
    (h : (function f).Emits g ls g' ())
    : g'.depth = 0 := by
  obtain ⟨_, _, -, body, -⟩ := function_emits h
  exact stmts_state f.body body

end Emit

/-- The code of an expression, of a place and of a statement counts one value more on the stack,
in every function and from every state. So the check at the end of a function never fails, and a
function that has code leaves no value on the stack, whatever the functions before it left there.
-/
theorem function_balanced (f : Function)
    : (∀ e g ls g', (Emit.value f e).Emits g ls g' () → g'.depth = g.depth + 1)
      ∧ (∀ e g ls g', (Emit.place f e).Emits g ls g' () → g'.depth = g.depth + 1)
      ∧ (∀ s g ls g', (Emit.stmt f s).Emits g ls g' () → g'.depth = g.depth + 1)
      ∧ ∀ g, (∀ depth name, (Emit.function f g).outcome ≠ .error (.unbalanced depth name))
          ∧ ((Emit.function f g).outcome = .ok () → (Emit.function f g).state.depth = 0) := by
  refine ⟨?_, ?_, ?_, fun g => ⟨?_, ?_⟩⟩
  · intro e g ls g' emitted
    rw [Emit.value_state e emitted, GenState.deeper_depth]
  · intro e g ls g' emitted
    rw [Emit.place_state e emitted, GenState.deeper_depth]
  · intro s g ls g' emitted
    exact Emit.stmt_state s emitted
  · intro depth name failed
    exact Emit.function_only_balanced f g _ failed depth name rfl
  · intro ok
    exact Emit.function_depth (Emit.emits_of_outcome ok)

namespace Spoiled

/-- A function with the address of a number behind two values. -/
def broken : Function :=
  ⟨"broken", 0, [],
    [.expr (.binary .add (.constant 1) (.binary .add (.constant 2) (.addressOf (.constant 3))))]⟩

/-- A branch that returns, with a call in it. -/
def branch : Stmt :=
  .branch (.var 0) (.ret (.binary .add (.var 0) (.call "h" [.var 1]))) none

/-- A function whose two variables are the same slot, above its frame. -/
def odd : Function :=
  ⟨"odd", 3, [⟨"x", .int, -8, 2, 0, some 4⟩, ⟨"y", .int, -8, 0, 0, none⟩],
    [branch, .whileLoop (.var 1) (.block [])]⟩

end Spoiled

/-- The first function fails with two values on the stack. The second one has code all the same,
and its first statement adds one value to any that are there.
-/
theorem function_balanced_spoiled
    : (Emit.function Spoiled.broken .initial).outcome = .error (.notAnLvalue (.constant 3))
      ∧ (Emit.function Spoiled.broken .initial).state = ⟨1, 2⟩
      ∧ (Emit.function Spoiled.odd ⟨1, 2⟩).outcome = .ok ()
      ∧ (Emit.function Spoiled.odd ⟨1, 2⟩).state.depth = 0
      ∧ (Emit.stmt Spoiled.odd Spoiled.branch ⟨1, 2⟩).outcome = .ok ()
      ∧ (Emit.stmt Spoiled.odd Spoiled.branch ⟨1, 2⟩).state.depth = 2 + 1 := by
  have ok : (Emit.function Spoiled.odd ⟨1, 2⟩).outcome = .ok () := rfl
  have branch : (Emit.stmt Spoiled.odd Spoiled.branch ⟨1, 2⟩).outcome = .ok () := rfl
  obtain ⟨-, -, raises, every⟩ := function_balanced Spoiled.odd
  exact ⟨rfl, rfl, ok, (every ⟨1, 2⟩).2 ok, branch,
    raises _ _ _ _ (Emit.emits_of_outcome branch)⟩

-----------------------------------------------------------------------------------------
-- Lines and labels
-----------------------------------------------------------------------------------------

namespace Emit

section

variable {α β : Type} {x : Emit α} {m : α → Emit β}

/-- The emission writes the same lines behind all others and ends in the same way, wherever it
starts, with later labels if it starts with one. Only the depth at its end may differ.
-/
def Steady (x : Emit α) : Prop :=
  ∀ n, ∃ ls next outcome, ∀ k d out, ∃ depth,
    x.run ⟨n + k, d⟩ out = ⟨out ++ Listing.later k ls, ⟨next + k, depth⟩, outcome⟩

theorem Steady.bind (first : x.Steady) (second : ∀ a, (m a).Steady) : (x >>= m).Steady := by
  intro n
  obtain ⟨ls, next, outcome, written⟩ := first n
  cases outcome with
  | error error =>
      refine ⟨ls, next, .error error, fun k d out => ?_⟩
      obtain ⟨depth, written⟩ := written k d out
      exact ⟨depth, run_bind_error written⟩
  | ok a =>
      obtain ⟨ls', next', outcome, written'⟩ := second a next
      refine ⟨ls ++ ls', next', outcome, fun k d out => ?_⟩
      obtain ⟨depth, written⟩ := written k d out
      obtain ⟨depth', written'⟩ := written' k depth (out ++ ls.later k)
      refine ⟨depth', ?_⟩
      rw [run_bind_ok written, written', Listing.later_append, List.append_assoc]

theorem steady_pure {a : α} : (pure a : Emit α).Steady := by
  intro n
  refine ⟨[], n, .ok a, fun _ d _ => ⟨d, ?_⟩⟩
  rw [Listing.later, List.map_nil, List.append_nil]
  rfl

theorem steady_fail {error : CodeError} : (fail error : Emit α).Steady :=
  fun n => ⟨[], n, .error error, fun _ d _ => ⟨d, by simp [fail, Listing.later]⟩⟩

/-- Lines without numbered labels are the same everywhere. -/
theorem steady_lines {ls : Listing} (same : ∀ k, ls.later k = ls) : (lines ls).Steady := by
  intro n
  refine ⟨ls, n, .ok (), fun k d out => ⟨d, ?_⟩⟩
  rw [same]
  rfl

end

variable {f : Function}

theorem steady_prologue {name : String} {frame : Int} : (prologue name frame).Steady := by
  refine (steady_lines fun _ => rfl).bind fun _ => ?_
  split
  · exact steady_lines fun _ => rfl
  · exact steady_pure

theorem steady_spill (vs : List Variable) : (spill vs).Steady := by
  induction vs with
  | nil => exact steady_pure
  | cons v vs ih =>
      rw [spill]
      split
      · exact (steady_lines fun _ => rfl).bind fun _ => ih
      · exact steady_fail

/-- What starts at a depth of its own does not depend on the depth before it. -/
theorem steady_setDepth {x : Emit Unit} {depth : Int} (later : ∀ k, Later k id x x)
    : (setDepth depth >>= fun _ => x).Steady := by
  intro n
  let e := x ⟨n, depth⟩
  refine ⟨e.lines, e.state.nextLabel, e.outcome, fun k d out => ⟨e.state.depth, ?_⟩⟩
  have reset : (setDepth depth).run ⟨n + k, d⟩ out = ⟨out, ⟨n + k, depth⟩, .ok ()⟩ := rfl
  have shifted : x ⟨n + k, depth⟩ = e.later k id := later k ⟨n, depth⟩
  calc (setDepth depth >>= fun _ => x).run ⟨n + k, d⟩ out
      = x.run ⟨n + k, depth⟩ out := run_bind_ok reset
    _ = (x ⟨n + k, depth⟩).behind out := x.appends _ _
    _ = (e.later k id).behind out := by rw [shifted]
    _ = _ := by rw [Emission.later, CodeError.mapError_rename_id]; rfl

theorem steady_function (f : Function) : (function f).Steady := by
  have later (k : Nat) : Later k id (body f) (body f) := by
    have renamed : Later k id (body f) (body (f.rename id)) := later_body
    rwa [f.rename_id] at renamed
  rw [function_eq]
  split
  · exact steady_prologue.bind fun _ => (steady_spill _).bind fun _ => steady_setDepth later
  · exact steady_fail

end Emit

/-- From two states with the same next label, a function has the same lines, written behind all
that has been written before, and ends with the same next label, in the same way. This also holds
if it fails, and whatever was on the stack. From a state whose next label is `k` later, the labels
in its lines and the next label at its end are `k` later, and nothing else is different.
-/
theorem function_appends (f : Function) (n : Nat) (d d' : Int) (out out' : Listing)
    : ∃ ls next outcome,
        (∃ depth, (Emit.function f).run ⟨n, d⟩ out = ⟨out ++ ls, ⟨next, depth⟩, outcome⟩)
        ∧ (∃ depth, (Emit.function f).run ⟨n, d'⟩ out' = ⟨out' ++ ls, ⟨next, depth⟩, outcome⟩)
        ∧ ∀ k, ∃ depth, (Emit.function f).run ⟨n + k, d'⟩ out'
            = ⟨out' ++ Listing.later k ls, ⟨next + k, depth⟩, outcome⟩ := by
  obtain ⟨ls, next, outcome, written⟩ := Emit.steady_function f n
  have same := written 0
  simp only [Listing.later_zero] at same
  exact ⟨ls, next, outcome, same d out, same d' out', fun k => written k d' out'⟩

end SlotC
