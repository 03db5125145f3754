import Mathlib.Logic.Embedding.Basic
import SlotC.Frame.Layout
import SlotC.Program.Basic

/-! Other names for the variables of a function. Variables are found by equality of names, so
they are found under the other names too if different names stay different.
-/

namespace SlotC

/-- The variable under another name. -/
def Variable.rename (r : String → String) (v : Variable) : Variable :=
  { v with name := r v.name }

/-- The frame with other names for its variables. -/
def Frame.rename (r : String → String) (frame : Frame) : Frame :=
  { frame with locals := frame.locals.map (Variable.rename r) }

/-- The function with other names for its variables. -/
def Function.rename (r : String → String) (f : Function) : Function :=
  { f with locals := f.locals.map (Variable.rename r) }

/-- The program with other names for the variables of its functions. -/
def Program.rename (r : String → String) (program : Program) : Program :=
  ⟨program.functions.map (Function.rename r)⟩

namespace Frame

variable {frame : Frame}

/-- Variables are found under their other names. -/
theorem lookup?_rename (r : String ↪ String) (name : String)
    : (frame.rename r).lookup? (r name) = frame.lookup? name := by
  unfold lookup? rename
  rw [List.findIdx?_map]
  congr 1
  funext v
  exact decide_eq_decide.mpr r.injective.eq_iff

theorem get?_rename (r : String → String) (id : Nat)
    : (frame.rename r).get? id = (frame.get? id).map (Variable.rename r) :=
  List.getElem?_map

end Frame

namespace Function

theorem get?_rename (r : String → String) (f : Function) (id : Nat)
    : (f.rename r).get? id = (f.get? id).map (Variable.rename r) :=
  List.getElem?_map

theorem frameSize_rename (r : String → String) (f : Function)
    : (f.rename r).frameSize = f.frameSize := by
  unfold frameSize rename
  rw [List.map_map]
  rfl

theorem params_rename (r : String → String) (f : Function)
    : (f.rename r).params = f.params.map (Variable.rename r) :=
  List.filter_map

theorem rename_id (f : Function) : f.rename id = f := by
  have kept : f.locals.map (Variable.rename id) = f.locals := List.map_id f.locals
  rw [rename, kept]

/-- Functions keep the names of their variables if no name is changed. -/
theorem map_rename_id (fs : List Function) : fs.map (rename id) = fs :=
  List.map_id'' rename_id fs

end Function

end SlotC
