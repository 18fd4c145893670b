import Script.Value

/-!
# Modules

What `include` brings into a scope.
-/

namespace Script

/-- The names that each module binds, in order; nothing where there is no module
of that name. -/
abbrev Library : Type := String → Option (List (String × Value))

namespace Library

def functions (fs : List Builtin) : List (String × Value) :=
  fs.map fun f => (f.name, .builtin f)

/-- The modules `math` and `strings`. -/
def standard : Library
  | "math" =>
    some (functions [.abs, .sqrt, .pow, .min, .max, .floor, .ceil] ++
      [("PI", .float 3.141592653589793), ("E", .float 2.718281828459045)])
  | "strings" =>
    some (functions
      [.trim, .replicate, .reverse, .startsWith, .endsWith, .replace])
  | _ => none

/-- No modules at all. -/
def empty : Library := fun _ => none

end Library

end Script
