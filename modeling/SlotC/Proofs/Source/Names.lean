import SlotC.Compile
import SlotC.Proofs.Frame.Room
import SlotC.Proofs.Source.Division
import SlotC.Proofs.Source.Print

/-! Names of what is read. The names of a function, of its variables and of the functions that
it calls are identifiers among the tokens that it is read from, so a program that is read from
a source text is well formed.
-/

namespace SlotC

/-- The text is that of an identifier among the tokens. -/
def Named (ts : List Token) (text : String) : Prop :=
  ∃ t ∈ ts, t.kind = .identifier ∧ t.text = text

section

variable {l r ts : List Token} {t : Token} {text : String}

theorem Named.mono (named : Named l text) (inside : l ⊆ ts) : Named ts text := by
  obtain ⟨t, member, own⟩ := named
  exact ⟨t, inside member, own⟩

theorem Named.left (named : Named l text) : Named (l ++ r) text :=
  named.mono (List.subset_append_left l r)

theorem Named.right (named : Named r text) : Named (l ++ r) text :=
  named.mono (List.subset_append_right l r)

theorem Named.tail (named : Named l text) : Named (t :: l) text :=
  named.mono (List.subset_cons_self t l)

end

-----------------------------------------------------------------------------------------
-- Calls
-----------------------------------------------------------------------------------------

theorem Sign.callees_build (sign : Sign) (e : Expr) : (sign.build e).callees = e.callees := by
  cases sign <;> simp [Sign.build, Expr.callees]

theorem Operator.mem_callees_build {o : Operator} {a b : Expr} {name : String}
    : name ∈ (o.build a b).callees ↔ name ∈ a.callees ∨ name ∈ b.callees := by
  cases o <;> simp [Operator.build, Expr.callees, or_comm]

section

variable {locals : List Variable}

namespace Term

mutual

/-- The functions that an expression calls are named in its tokens. -/
theorem Spelled.callees {layer : Layer} {l : List Token} {e : Term} {e' : Expr}
    (spelled : Spelled layer l e) (denotes : e.Denotes locals e')
    : ∀ name ∈ e'.callees, Named l name := by
  match spelled with
  | .operand inner => exact inner.callees denotes
  | .tighter inner => exact inner.callees denotes
  | .chain left _ right | .assign left _ right =>
      cases denotes with
      | joined denotes₁ denotes₂ =>
          intro name member
          rcases Operator.mem_callees_build.mp member with first | second
          · exact (left.callees denotes₁ name first).left
          · exact (right.callees denotes₂ name second).tail.right

theorem Unary.callees {l : List Token} {e : Term} {e' : Expr} (spelled : Unary l e)
    (denotes : e.Denotes locals e')
    : ∀ name ∈ e'.callees, Named l name := by
  match spelled with
  | .primary inner => exact inner.callees denotes
  | @Unary.signed _ _ _ sign _ operand =>
      cases denotes with
      | signed inner =>
          rw [sign.callees_build]
          exact fun name member => (operand.callees inner name member).tail
  | .size _ operand =>
      cases denotes
      simp [Expr.callees]

theorem Primary.callees {l : List Token} {e : Term} {e' : Expr} (spelled : Primary l e)
    (denotes : e.Denotes locals e')
    : ∀ name ∈ e'.callees, Named l name := by
  match spelled with
  | .number _ | .name _ =>
      cases denotes
      simp [Expr.callees]
  | .element _ _ index _ =>
      cases denotes with
      | element _ inner => exact fun name member => (index.callees inner name member).left.tail.tail
  | .callNone own _ _ =>
      cases denotes with
      | call inner =>
          cases inner
          exact List.forall_mem_singleton.mpr ⟨_, List.mem_cons_self, own, rfl⟩
  | .call own _ arguments _ =>
      cases denotes with
      | call inner =>
          refine List.forall_mem_cons.mpr ⟨⟨_, List.mem_cons_self, own, rfl⟩, ?_⟩
          exact fun name member => (arguments.callees inner name member).left.tail.tail
  | .group _ inner _ => exact fun name member => (inner.callees denotes name member).left.tail

theorem Arguments.callees {l : List Token} {es : List Term} {es' : List Expr}
    (spelled : Arguments l es) (denotes : AllDenote locals es es')
    : ∀ name ∈ Expr.calleesOf es', Named l name := by
  match spelled with
  | .last argument =>
      cases denotes with
      | cons first none =>
          cases none
          simpa [Expr.calleesOf] using argument.callees first
  | .more argument _ others =>
      cases denotes with
      | cons first more =>
          refine List.forall_mem_append.mpr ⟨?_, ?_⟩
          · exact fun name member => (argument.callees first name member).left
          · exact fun name member => (others.callees more name member).tail.right

end

theorem Grouped.callees {l : List Token} {e : Term} {e' : Expr} (grouped : Grouped l e)
    (denotes : e.Denotes locals e')
    : ∀ name ∈ e'.callees, Named l name := by
  obtain ⟨_, inner, _⟩ := grouped
  exact fun name member => (inner.callees denotes name member).left.tail

theorem Optional.callees {l : List Token} {e : Option Term} {e' : Option Expr}
    (optional : Optional l e) (denotes : Option.Rel (Denotes locals) e e')
    : ∀ name ∈ Expr.calleesOf e'.toList, Named l name := by
  cases optional with
  | none =>
      cases denotes
      simp [Expr.calleesOf]
  | some spelled =>
      cases denotes with
      | some inner => simpa [Expr.calleesOf] using spelled.callees inner

end Term

namespace Phrase

mutual

/-- The functions that a statement calls are named in its tokens. -/
theorem Spelled.callees {l : List Token} {p : Phrase} {s : Stmt} (spelled : Spelled l p)
    (denotes : p.Denotes locals s)
    : ∀ name ∈ s.callees, Named l name := by
  match spelled with
  | .expr value _ =>
      cases denotes with
      | expr inner => exact fun name member => (value.callees inner name member).left
  | .ret _ value _ =>
      cases denotes with
      | ret inner => exact fun name member => (value.callees inner name member).left.tail
  | .block _ body _ =>
      cases denotes with
      | block inner => exact fun name member => (body.callees inner name member).left.tail
  | .branch _ condition whenTrue =>
      cases denotes with
      | branch inner₁ inner₂ =>
          refine List.forall_mem_append.mpr ⟨?_, ?_⟩
          · exact fun name member => (condition.callees inner₁ name member).left.tail
          · exact fun name member => (whenTrue.callees inner₂ name member).right.tail
  | .branchElse _ condition whenTrue _ whenFalse =>
      cases denotes with
      | branchElse inner₁ inner₂ inner₃ =>
          refine List.forall_mem_append.mpr ⟨?_, List.forall_mem_append.mpr ⟨?_, ?_⟩⟩
          · exact fun name member => (condition.callees inner₁ name member).left.tail
          · exact fun name member => (whenTrue.callees inner₂ name member).left.right.tail
          · exact fun name member => (whenFalse.callees inner₃ name member).tail.right.right.tail
  | .whileLoop _ condition body =>
      cases denotes with
      | whileLoop inner₁ inner₂ =>
          refine List.forall_mem_append.mpr ⟨?_, ?_⟩
          · exact fun name member => (condition.callees inner₁ name member).left.tail
          · exact fun name member => (body.callees inner₂ name member).right.tail
  | .forLoop _ _ starts _ continues _ steps _ body =>
      cases denotes with
      | forLoop inner₁ inner₂ inner₃ inner₄ =>
          simp only [Stmt.callees, Expr.calleesOf_append, List.forall_mem_append]
          refine ⟨⟨⟨?_, ?_⟩, ?_⟩, ?_⟩
          · exact fun name member => (starts.callees inner₁ name member).left.tail.tail
          · exact fun name member =>
              (continues.callees inner₂ name member).left.tail.right.tail.tail
          · exact fun name member =>
              (steps.callees inner₃ name member).left.tail.right.tail.right.tail.tail
          · exact fun name member =>
              (body.callees inner₄ name member).tail.right.tail.right.tail.right.tail.tail
  | .declare .. =>
      cases denotes
      simp [Stmt.callees]

theorem AllSpelled.callees {l : List Token} {ps : List Phrase} {ss : List Stmt}
    (spelled : AllSpelled l ps) (denotes : AllDenote locals ps ss)
    : ∀ name ∈ Stmt.calleesOf ss, Named l name := by
  match spelled with
  | .nil =>
      cases denotes
      simp [Stmt.calleesOf]
  | .cons first others =>
      cases denotes with
      | cons inner₁ inner₂ =>
          refine List.forall_mem_append.mpr ⟨?_, ?_⟩
          · exact fun name member => (first.callees inner₁ name member).left
          · exact fun name member => (others.callees inner₂ name member).right

end

end Phrase

end

-----------------------------------------------------------------------------------------
-- Variables
-----------------------------------------------------------------------------------------

theorem Kind.exists_of_isType {kind : Kind} (type : kind.isType)
    : ∃ scalar, kind = .type scalar := by
  unfold isType at type
  split at type
  · exact ⟨_, rfl⟩
  · cases type

/-- What the search for declarations finds is named in the tokens. -/
theorem Entry.named_of_ofTokens {ts : List Token} {es : List Entry} (found : ofTokens ts = .ok es)
    : ∀ e ∈ es, Named ts e.name := by
  induction ts generalizing es with
  | nil =>
      cases found
      simp
  | cons t ts ih =>
      by_cases type : t.kind.isType
      · obtain ⟨scalar, own⟩ := Kind.exists_of_isType type
        obtain ⟨d, more, head, others, rfl⟩ := (ofTokens_type own).mp found
        refine List.forall_mem_append.mpr ⟨?_, fun e member => (ih others e member).tail⟩
        cases d with
        | none => simp
        | some d =>
            refine List.forall_mem_singleton.mpr (Named.tail ?_)
            cases Declarator.ofTokens_eq_some.mp head with
            | single _ named | array _ named => exact ⟨_, by simp, named, rfl⟩
      · rw [ofTokens_cons (by simpa using type)] at found
        exact fun e member => (ih found e member).tail

theorem Entry.map_name_ofParams (params : List Param) (index : Nat)
    : (ofParams index params).map name = params.map (·.name.text) := by
  induction params generalizing index with
  | nil => rfl
  | cons param params ih => simp [ofParams, ih, name]

namespace Param

variable {l : List Token} {param : Param} {params : List Param}

theorem Spelled.named (spelled : Spelled l param) : Named l param.name.text := by
  obtain ⟨-, -, named⟩ := spelled
  exact ⟨_, by simp, named, rfl⟩

theorem AllSpelled.named (spelled : AllSpelled l params)
    : ∀ param ∈ params, Named l param.name.text := by
  induction spelled with
  | last own => exact List.forall_mem_singleton.mpr own.named
  | more own _ _ ih =>
      exact List.forall_mem_cons.mpr
        ⟨own.named.left, fun param member => (ih param member).tail.right⟩

theorem ListSpelled.named (spelled : ListSpelled l params)
    : ∀ param ∈ params, Named l param.name.text := by
  cases spelled with
  | none => simp
  | some all => exact all.named

end Param

-----------------------------------------------------------------------------------------
-- Functions and programs
-----------------------------------------------------------------------------------------

/-- All names in the function have the property. -/
structure Function.NamesAll (P : String → Prop) (f : Function) : Prop where
  name : P f.name
  locals : ∀ v ∈ f.locals, P v.name
  callees : ∀ name ∈ Stmt.calleesOf f.body, P name

theorem Function.NamesAll.imp {P Q : String → Prop} {f : Function} (all : f.NamesAll P)
    (imp : ∀ name, P name → Q name)
    : f.NamesAll Q :=
  ⟨imp _ all.name, fun v member => imp _ (all.locals v member),
    fun name member => imp _ (all.callees name member)⟩

namespace Definition

/-- The variables of a function are named in its tokens. -/
theorem Spelled.named_entries {l : List Token} {d : Definition} (spelled : Spelled l d)
    (sound : ∀ e ∈ d.entries, e.Sound)
    : ∀ name ∈ d.entries.map Entry.name, Named l name := by
  obtain ⟨-, -, given, -, -, inner, -⟩ := spelled
  rw [entries, List.map_append, Entry.map_name_ofParams]
  obtain ⟨-, sound⟩ := List.forall_mem_append.mp sound
  -- The search for declarations goes over the same tokens.
  have found := (inner.scanned.entries [] _).mpr ⟨sound, [], rfl, rfl⟩
  rw [List.append_nil, List.append_nil] at found
  refine List.forall_mem_append.mpr ⟨?_, ?_⟩
  · intro name member
    obtain ⟨param, inside, rfl⟩ := List.mem_map.mp member
    exact (given.named param inside).left.tail.right
  · intro name member
    obtain ⟨e, inside, rfl⟩ := List.mem_map.mp member
    exact (Entry.named_of_ofTokens found e inside).left.tail.tail.right.tail.right

/-- The names in a function are those of its tokens. -/
theorem Elaborates.named {l : List Token} {d : Definition} {f : Function}
    (elaborates : d.Elaborates f) (spelled : Spelled l d)
    : f.NamesAll (Named l) := by
  refine ⟨?_, ?_, ?_⟩
  · rw [elaborates.name]
    obtain ⟨named⟩ := spelled
    exact named.named.left
  · intro v member
    refine spelled.named_entries elaborates.sound v.name ?_
    rw [← Frame.names_addAll, Frame.names, ← elaborates.locals]
    exact List.mem_map_of_mem member
  · have denotes := elaborates.matches.body
    obtain ⟨-, -, -, -, -, inner, -⟩ := spelled
    exact fun name member =>
      (inner.callees denotes name member).left.tail.tail.right.tail.right

theorem AllSpelled.named {ts : List Token} {ds : List Definition} {fs : List Function}
    (spelled : AllSpelled ts ds) (elaborate : List.Forall₂ Elaborates ds fs)
    : ∀ f ∈ fs, f.NamesAll (Named ts) := by
  induction spelled generalizing fs with
  | nil =>
      cases elaborate
      simp
  | cons first _ ih =>
      cases elaborate with
      | cons own more =>
          refine List.forall_mem_cons.mpr ⟨?_, ?_⟩
          · exact (own.named first).imp fun _ named => named.left
          · exact fun f member => (ih more f member).imp fun _ named => named.right

end Definition

namespace Program

/-- The names in a program are those of the tokens that it is read from. -/
theorem named_of_ofTokens {ts : List Token} {program : Program}
    (read : ofTokens ts = .ok program)
    : ∀ f ∈ program.functions, f.NamesAll (Named ts) := by
  unfold ofTokens at read
  split at read
  · next fs found =>
      cases read
      obtain ⟨ds, spelled, elaborate⟩ := Grammar.functions_elaborate found
      exact spelled.named elaborate
  · cases read

/-- A program that is read from a source text is well formed. -/
theorem wellFormed_of_ofSource {source : String} {program : Program}
    (read : ofSource source = .ok program)
    : program.WellFormed := by
  obtain ⟨ts, scanned, read⟩ := bind_eq_ok.mp read
  replace scanned := mapError_eq_ok.mp scanned
  replace read := mapError_eq_ok.mp read
  have isName : ∀ name, Named ts name → IsName name := by
    rintro name ⟨t, member, own, rfl⟩
    exact Token.isName_of_scan scanned t member own
  intro f member
  obtain ⟨name, locals, callees⟩ := (named_of_ofTokens read f member).imp isName
  exact ⟨regular_of_ofTokens read f member, name, locals, callees⟩

end Program

end SlotC
