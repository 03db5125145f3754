/-! Outlines: the shape of a value for a dump, written on one line or one item a line.
-/

namespace SlotC.Text

/-- What encloses the items of a group. -/
inductive Enclosure where
  | parens
  | brackets
  | braces
deriving DecidableEq, Repr

namespace Enclosure

/-- The opening mark; a brace stands apart from the name before it. -/
def opening : Enclosure → String
  | .parens => "("
  | .brackets => "["
  | .braces => " \x7b"

/-- The closing mark. -/
def closing : Enclosure → String
  | .parens => ")"
  | .brackets => "]"
  | .braces => "\x7d"

/-- What stands between a mark and the items on one line. -/
def padding : Enclosure → String
  | .braces => " "
  | _ => ""

end Enclosure

/-- The shape of a value: a word, a named part, or a group of items under a name. -/
inductive Outline where
  | word (text : String)
  | field (name : String) (value : Outline)
  | group (name : String) (enclosure : Enclosure) (items : List Outline)
deriving Repr

namespace Outline

/-- A constructor with its arguments. -/
def applied (name : String) (arguments : List Outline) : Outline :=
  .group name .parens arguments

/-- A record with its fields. -/
def record (name : String) (fields : List (String × Outline)) : Outline :=
  .group name .braces (fields.map fun (name, value) => .field name value)

/-- A list of items. -/
def list (items : List Outline) : Outline :=
  .group "" .brackets items

/-- A value that may be absent. -/
def optional : Option Outline → Outline
  | none => .word "None"
  | some value => applied "Some" [value]

mutual

/-- The outline on one line. -/
def inline : Outline → String
  | .word text => text
  | .field name value => name ++ ": " ++ value.inline
  | .group name enclosure items =>
    name ++ enclosure.opening ++ enclosure.padding ++ inlineItems items
      ++ enclosure.padding ++ enclosure.closing

/-- Items on one line, divided by commas. -/
def inlineItems : List Outline → String
  | [] => ""
  | [item] => item.inline
  | item :: next :: rest => item.inline ++ ", " ++ inlineItems (next :: rest)

end

mutual

/-- Appends the outline to `written`, each item of a group on lines of its own that are
indented by four more columns than `margin`.
-/
def writeIndented (margin written : String) : Outline → String
  | .word text => written ++ text
  | .field name value => writeIndented margin (written ++ name ++ ": ") value
  | .group name enclosure [] => written ++ name ++ enclosure.opening ++ enclosure.closing
  | .group name enclosure (item :: items) =>
    writeItems (margin ++ "    ") (written ++ name ++ enclosure.opening ++ "\n")
      (item :: items) ++ margin ++ enclosure.closing

/-- Appends items to `written`, each on lines of its own and followed by a comma. -/
def writeItems (margin written : String) : List Outline → String
  | [] => written
  | item :: items =>
    writeItems margin (writeIndented margin (written ++ margin) item ++ ",\n") items

end

/-- The outline with one item a line. -/
def indented (outline : Outline) : String :=
  outline.writeIndented "" ""

end Outline

end SlotC.Text
