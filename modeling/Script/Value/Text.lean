import Script.Number.Shortest
import Script.Text.Quoted
import Script.Value.Heap

/-!
# Values as text

How a value is printed.  Inside a collection, strings and characters are quoted,
and outside they stand as they are.  A container that contains itself is printed
once, and where it comes again dots stand for it.
-/

namespace Script

open Std (ExtTreeMap)

/-- The text of a parameter list. -/
def paramsText (params : List Name) : String :=
  "(" ++ ", ".intercalate (params.map (·.text)) ++ ")"

/-- The text of a value that is not a container. -/
def Value.plainText (quoted : Bool) : Value → String
  | .str text => if quoted then Text.quotedString text else text
  | .char c | .rune c =>
    if quoted then Text.quotedCharacter c else String.singleton c
  | .int n => toString n
  | .float x => Binary64.text x
  | .bool b => if b then "true" else "false"
  | .null => "null"
  | .byte b => toString b
  | .function f => "<fn " ++ f.name ++ paramsText f.code.params.names ++ ">"
  | .arrow f => "<arrow" ++ paramsText f.params ++ ">"
  | .builtin f => "<builtin " ++ f.name ++ ">"
  | .struct d => "<struct " ++ d.name ++ ">"
  | .enum d => "<enum " ++ d.name ++ ">"
  | .variant v => v.enum ++ "." ++ v.name
  | .range start stop => toString start ++ ".." ++ toString stop
  | .array _ | .map _ | .record _ => ""

/-- Texts in ascending order. -/
def sortTexts (texts : List String) : List String :=
  texts.mergeSort fun left right => !decide (right < left)

namespace Heap

/-- The text of a value inside the containers of a path. -/
def textOn (h : Heap) (quoted : Bool) (path : List Ref) (v : Value) : String :=
  match v with
  | .array cell =>
    if Ref.array cell ∈ path then "[...]"
    else
      let items := (h.items cell).toList.attach.map fun ⟨item, _hitem⟩ =>
        h.textOn true (.array cell :: path) item
      "[" ++ ", ".intercalate items ++ "]"
  | .map cell =>
    if Ref.map cell ∈ path then "\x7b...\x7d"
    else
      let entries := (h.storedEntries cell).attach.map fun ⟨entry, _hentry⟩ =>
        entry.2.key.plainText true ++ ": " ++
          h.textOn true (.map cell :: path) entry.2.value
      "\x7b" ++ ", ".intercalate (sortTexts entries) ++ "\x7d"
  | .record cell =>
    let r := h.instanceAt cell
    if Ref.record cell ∈ path then r.struct.name ++ " \x7b...\x7d"
    else
      let fields := r.struct.fields.map fun name =>
        match _hfind : (h.instanceAt cell).fields[name]? with
        | none => name ++ ": null"
        | some value =>
          name ++ ": " ++ h.textOn true (.record cell :: path) value
      r.struct.name ++ " \x7b" ++ ", ".intercalate fields ++ "\x7d"
  | v => v.plainText quoted
termination_by offPath h.refs path
decreasing_by
  · exact offPath_cons_lt (array_mem_refs _hitem) ‹_›
  · exact offPath_cons_lt (map_mem_refs (mem_storedEntries.mp _hentry)) ‹_›
  · exact offPath_cons_lt (record_mem_refs _hfind) ‹_›

/-- The text of a value as it is printed. -/
def display (h : Heap) (v : Value) : String := h.textOn false [] v

/-- The text of a value as it stands in a collection. -/
def repr (h : Heap) (v : Value) : String := h.textOn true [] v

/-- The entries of a map in the order of the texts of their keys.  Entries whose
keys have the same text come as they are in memory. -/
def sortedEntries (h : Heap) (cell : Nat) : List MapEntry :=
  ((h.storedEntries cell).map (·.2)).mergeSort fun left right =>
    !decide (right.key.plainText true < left.key.plainText true)

theorem sortedEntries_perm (h : Heap) (cell : Nat) :
    (h.sortedEntries cell).Perm ((h.entries cell).toList.map (·.2)) :=
  (List.mergeSort_perm _ _).trans ((List.mergeSort_perm _ _).map _)

end Heap

end Script
