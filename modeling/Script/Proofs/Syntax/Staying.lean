import Script.Proofs.Syntax.Relocation
import Script.Proofs.Syntax.Sites

/-!
# Trees that stay where they are

A site with all its locations moved is made of the sites right inside it, moved.  So a
site stays as it is if nothing moves the location of any site inside it.
-/

namespace Script

section

variable (move : Location → Location)

def Site.relocate : Site → Site
  | .program p => .program (p.relocate move)
  | .stmt st => .stmt (st.relocate move)
  | .block b => .block (b.relocate move)
  | .expr e => .expr (e.relocate move)
  | .case c => .case (c.relocate move)
  | .function f => .function (f.relocate move)
  | .attempt t => .attempt (t.relocate move)
  | .name id => .name (id.relocate move)
  | .type t => .type (t.relocate move)

/-- Nothing changes if the site is moved. -/
def Site.Stays (x : Site) : Prop := x.relocate move = x

end

variable {move : Location → Location}

namespace Site

/-! ### What it means for each kind of site -/

theorem stays_stmt {st : Stmt} : (stmt st).Stays move ↔ st.relocate move = st :=
  ⟨stmt.inj, congrArg stmt⟩

theorem stays_block {b : Block} : (block b).Stays move ↔ b.relocate move = b :=
  ⟨block.inj, congrArg block⟩

theorem stays_expr {e : Expr} : (expr e).Stays move ↔ e.relocate move = e :=
  ⟨expr.inj, congrArg expr⟩

theorem stays_case {c : Case} : (case c).Stays move ↔ c.relocate move = c :=
  ⟨case.inj, congrArg case⟩

theorem stays_function {f : Function} :
    (function f).Stays move ↔ f.relocate move = f :=
  ⟨function.inj, congrArg function⟩

theorem stays_attempt {t : Attempt} : (attempt t).Stays move ↔ t.relocate move = t :=
  ⟨attempt.inj, congrArg attempt⟩

theorem stays_name {id : Name} : (name id).Stays move ↔ id.relocate move = id :=
  ⟨name.inj, congrArg name⟩

theorem stays_type {t : TypeExpr} : (type t).Stays move ↔ t.relocate move = t :=
  ⟨type.inj, congrArg type⟩

end Site

open Site

/-! ### Parts that come in lists -/

/-- A list stays as it is if each of its items does. -/
theorem map_eq_self {α : Type} {f : α → α} {xs : List α} (h : ∀ x ∈ xs, f x = x) :
    xs.map f = xs := by
  rw [List.map_congr_left h]
  exact List.map_id xs

theorem option_map_eq_self {α : Type} {f : α → α} {x : Option α}
    (h : ∀ y ∈ x, f y = y) : x.map f = x := by
  cases x with
  | none => rfl
  | some y => exact congrArg some (h y rfl)

theorem relocateExpr?_eq_map (move : Location → Location) (e : Option Expr) :
    relocateExpr? move e = e.map (Expr.relocate move) := by
  cases e <;> rfl

theorem relocateStmt?_eq_map (move : Location → Location) (st : Option Stmt) :
    relocateStmt? move st = st.map (Stmt.relocate move) := by
  cases st <;> rfl

theorem relocateBlock?_eq_map (move : Location → Location) (b : Option Block) :
    relocateBlock? move b = b.map (Block.relocate move) := by
  cases b <;> rfl

theorem LoopHeader.relocate_eq_self {header : LoopHeader}
    (h : ∀ y ∈ header.sites, y.Stays move) : header.relocate move = header := by
  cases header with
  | items item iterable =>
    simp only [sites, List.forall_mem_cons, stays_name, stays_expr] at h
    rw [relocate, h.1, h.2.1]
  | pairs index value iterable =>
    simp only [sites, List.forall_mem_cons, stays_name, stays_expr] at h
    rw [relocate, h.1, h.2.1, h.2.2.1]
  | counting start condition update =>
    simp only [sites, List.forall_mem_append, List.forall_mem_map, Option.mem_toList,
      stays_stmt, stays_expr] at h
    rw [relocate, relocateStmt?_eq_map, relocateExpr?_eq_map, relocateExpr?_eq_map,
      option_map_eq_self h.1.1, option_map_eq_self h.1.2, option_map_eq_self h.2]

theorem Params.relocate_eq_self {params : Params}
    (h : ∀ y ∈ params.sites, y.Stays move) : params.relocate move = params := by
  cases params with
  | plain names =>
    simp only [sites, List.forall_mem_map, stays_name] at h
    rw [relocate, map_eq_self h]
  | typed params =>
    simp only [sites, List.forall_mem_flatMap, List.forall_mem_cons, stays_name,
      stays_type] at h
    refine congrArg Params.typed (map_eq_self fun p hp => ?_)
    obtain ⟨hname, htype, -⟩ := h p hp
    rw [TypedName.relocate, hname, htype]

namespace Site

theorem stays_ofType {t : TypeExpr} (hloc : move t.loc = t.loc)
    (h : ∀ y ∈ ofType t, y.Stays move) : t.relocate move = t := by
  cases t with
  | named name loc => exact congrArg (TypeExpr.named name) hloc
  | array element loc =>
    simp only [ofType, List.forall_mem_cons, stays_type] at h
    rw [TypeExpr.relocate, h.1, show move loc = loc from hloc]
  | map key value loc =>
    simp only [ofType, List.forall_mem_cons, stays_type] at h
    rw [TypeExpr.relocate, h.1, h.2.1, show move loc = loc from hloc]

theorem stays_ofEntry {entry : Entry}
    (h : ∀ y ∈ [expr entry.key, expr entry.value], y.Stays move) :
    entry.relocate move = entry := by
  obtain ⟨key, value⟩ := entry
  simp only [List.forall_mem_cons, stays_expr] at h
  rw [Entry.relocate, h.1, h.2.1]

theorem stays_ofField {field : Field}
    (h : ∀ y ∈ [name field.name, expr field.value], y.Stays move) :
    field.relocate move = field := by
  obtain ⟨id, value⟩ := field
  simp only [List.forall_mem_cons, stays_name, stays_expr] at h
  rw [Field.relocate, h.1, h.2.1]

theorem stays_ofExpr {e : Expr} (hloc : move e.loc = e.loc)
    (h : ∀ y ∈ ofExpr e, y.Stays move) : e.relocate move = e := by
  cases e with
  | map entries loc =>
    rw [Expr.relocate, relocateEntries_eq_map, show move loc = loc from hloc]
    rw [map_eq_self fun e he => stays_ofEntry (List.forall_mem_flatMap.mp h e he)]
  | record struct fields loc =>
    obtain ⟨hstruct, hfields⟩ := List.forall_mem_cons.mp h
    rw [Expr.relocate, relocateFields_eq_map, stays_name.mp hstruct,
      show move loc = loc from hloc]
    rw [map_eq_self fun f hf => stays_ofField (List.forall_mem_flatMap.mp hfields f hf)]
  | forLoop header body loc =>
    obtain ⟨hheader, hbody⟩ := List.forall_mem_append.mp h
    rw [Expr.relocate, LoopHeader.relocate_eq_self hheader,
      stays_block.mp (hbody _ (List.mem_singleton_self _)), show move loc = loc from hloc]
  | _ =>
    simp only [ofExpr, List.cons_append, List.forall_mem_cons, List.forall_mem_append,
      List.forall_mem_map, Option.mem_toList, stays_name, stays_expr, stays_block,
      stays_function, stays_case, stays_attempt] at h
    simp only [Expr.loc] at hloc
    simp_all [Expr.relocate, relocateExprs_eq_map, relocateCases_eq_map,
      relocateExpr?_eq_map, relocateBlock?_eq_map, map_eq_self, option_map_eq_self]

theorem stays_ofStmt {st : Stmt} (hloc : move st.loc = st.loc)
    (h : ∀ y ∈ ofStmt st, y.Stays move) : st.relocate move = st := by
  cases st with
  | enum id variants loc =>
    obtain ⟨hid, hvariants⟩ := List.forall_mem_cons.mp h
    rw [Stmt.relocate, stays_name.mp hid, show move loc = loc from hloc]
    refine congrArg (Stmt.enum id · loc) (map_eq_self fun v hv => ?_)
    rw [VariantDecl.relocate, stays_name.mp (List.forall_mem_map.mp hvariants v hv)]
  | _ =>
    simp only [ofStmt, List.cons_append, List.forall_mem_cons, List.forall_mem_append,
      List.forall_mem_map, Option.mem_toList, stays_name, stays_expr, stays_type,
      stays_function, stays_attempt] at h
    simp only [Stmt.loc] at hloc
    simp_all [Stmt.relocate, relocateExpr?_eq_map, map_eq_self, option_map_eq_self]

/-- A site stays as it is if its location and what is right inside it do. -/
theorem stays_of_parts {x : Site} (hloc : move x.loc = x.loc)
    (h : ∀ y ∈ x.parts, y.Stays move) : x.Stays move := by
  cases x with
  | program p =>
    obtain ⟨statements, loc⟩ := p
    simp only [parts, List.forall_mem_map, stays_stmt] at h
    rw [Stays, relocate, Program.relocate, map_eq_self h, show move loc = loc from hloc]
  | stmt st => exact stays_stmt.mpr (stays_ofStmt hloc h)
  | block b =>
    obtain ⟨statements, loc⟩ := b
    simp only [parts, List.forall_mem_map, stays_stmt] at h
    rw [stays_block, Block.relocate, relocateStmts_eq_map, map_eq_self h,
      show move loc = loc from hloc]
  | expr e => exact stays_expr.mpr (stays_ofExpr hloc h)
  | case c =>
    obtain ⟨values, body, loc⟩ := c
    simp only [parts, List.forall_mem_append, List.forall_mem_map, List.forall_mem_cons,
      stays_expr, stays_block] at h
    rw [stays_case, Case.relocate, relocateExprs_eq_map, map_eq_self h.1, h.2.1,
      show move loc = loc from hloc]
  | function f =>
    obtain ⟨id, params, returns, body, loc⟩ := f
    simp only [parts, List.forall_mem_append, List.forall_mem_map, List.forall_mem_cons,
      stays_type, stays_block] at h
    obtain ⟨⟨hparams, hreturns⟩, hbody, -⟩ := h
    rw [stays_function, Function.relocate, Params.relocate_eq_self hparams,
      map_eq_self hreturns, hbody, show move loc = loc from hloc]
  | attempt t =>
    obtain ⟨body, param, handler, loc⟩ := t
    simp only [parts, List.cons_append, List.forall_mem_append, List.forall_mem_map,
      List.forall_mem_cons, Option.mem_toList, stays_name, stays_block] at h
    obtain ⟨hbody, hparam, hhandler⟩ := h
    rw [stays_attempt, Attempt.relocate, relocateBlock?_eq_map, hbody,
      option_map_eq_self hparam, option_map_eq_self hhandler, show move loc = loc from hloc]
  | name id => exact stays_name.mpr (congrArg (Name.mk id.text) hloc)
  | type t => exact stays_type.mpr (stays_ofType hloc h)

/-- A site stays as it is if nothing inside it is moved. -/
theorem stays_of_every {x : Site} (h : Every (fun y => move y.loc = y.loc) x) :
    x.Stays move := by
  induction h with
  | intro hloc _ ih => exact stays_of_parts hloc ih

end Site

/-- A program stays as it is if nothing inside it is moved. -/
theorem Program.relocate_eq_self {p : Program}
    (h : Site.Every (fun y => move y.loc = y.loc) (.program p)) : p.relocate move = p :=
  Site.program.inj (Site.stays_of_every h)

end Script
