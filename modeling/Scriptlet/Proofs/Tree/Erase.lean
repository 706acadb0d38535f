import Scriptlet.Tree.Basic

/-! Trees up to positions, and trees that assign to names only. -/
namespace Scriptlet

mutual

/-- The expression with all positions forgotten. -/
def Expr.erase : Expr → Expr
  | .literal _ v => .literal default v
  | .name _ id => .name default id
  | .binary _ op a b => .binary default op a.erase b.erase
  | .assign _ t e => .assign default t.erase e.erase
  | .unary _ op e => .unary default op e.erase
  | .call _ f es => .call default f.erase (Expr.eraseAll es)
  | .index _ a i => .index default a.erase i.erase
  | .member _ e field => .member default e.erase field
  | .context _ e s => .context default e.erase s

def Expr.eraseAll : List Expr → List Expr
  | [] => []
  | e :: es => e.erase :: Expr.eraseAll es

end

theorem Expr.eraseAll_eq_map (es : List Expr) : Expr.eraseAll es = es.map Expr.erase := by
  induction es with
  | nil => rfl
  | cons e es ih => rw [Expr.eraseAll, ih, List.map_cons]

@[simp] theorem Expr.pos_erase (e : Expr) : e.erase.pos = default := by
  cases e <;> rw [Expr.erase] <;> rfl

@[simp] theorem Expr.name?_erase (e : Expr) : e.erase.name? = e.name? := by
  cases e <;> rw [Expr.erase] <;> rfl

theorem Expr.name?_eq_some {e : Expr} {id : String} (h : e.name? = some id) :
    ∃ p, e = .name p id := by
  cases e with
  | name p x =>
    cases h
    exact ⟨p, rfl⟩
  | _ => cases h

def Declaration.erase (d : Declaration) : Declaration :=
  { d with initial := d.initial.map Expr.erase }

mutual

/-- The statement with all positions forgotten. -/
@[simp] def Stmt.erase : Stmt → Stmt
  | .expr _ e => .expr default e.erase
  | .declare _ d => .declare default d.erase
  | .block _ body => .block default (Stmt.eraseAll body)
  | .function _ s body => .function default s (Stmt.eraseAll body)
  | .ret _ v => .ret default (v.map Expr.erase)
  | .ifThen _ c s => .ifThen default c.erase s.erase
  | .ifElse _ c s f => .ifElse default c.erase s.erase f.erase
  | .whileLoop _ c b => .whileLoop default c.erase b.erase
  | .forRange _ x a b s => .forRange default x a.erase b.erase s.erase

def Stmt.eraseAll : List Stmt → List Stmt
  | [] => []
  | s :: ss => s.erase :: Stmt.eraseAll ss

end

theorem Stmt.eraseAll_eq_map (ss : List Stmt) : Stmt.eraseAll ss = ss.map Stmt.erase := by
  induction ss with
  | nil => rfl
  | cons s ss ih => rw [Stmt.eraseAll, ih, List.map_cons]

mutual

/-- Whether every assignment in the expression has a name as its target. -/
def Expr.assignsNames : Expr → Bool
  | .literal .. | .name .. => true
  | .binary _ _ a b => a.assignsNames && b.assignsNames
  | .assign _ t e => t.name?.isSome && e.assignsNames
  | .unary _ _ e => e.assignsNames
  | .call _ f es => f.assignsNames && Expr.allAssignNames es
  | .index _ a i => a.assignsNames && i.assignsNames
  | .member _ e _ => e.assignsNames
  | .context _ e _ => e.assignsNames

def Expr.allAssignNames : List Expr → Bool
  | [] => true
  | e :: es => e.assignsNames && Expr.allAssignNames es

end

mutual

/-- Whether every assignment in the statement has a name as its target. -/
def Stmt.assignsNames : Stmt → Bool
  | .expr _ e => e.assignsNames
  | .declare _ d => d.initial.all Expr.assignsNames
  | .block _ ss | .function _ _ ss => Stmt.allAssignNames ss
  | .ret _ v => v.all Expr.assignsNames
  | .ifThen _ c s | .whileLoop _ c s => c.assignsNames && s.assignsNames
  | .ifElse _ c s f => c.assignsNames && s.assignsNames && f.assignsNames
  | .forRange _ _ a b s => a.assignsNames && b.assignsNames && s.assignsNames

def Stmt.allAssignNames : List Stmt → Bool
  | [] => true
  | s :: ss => s.assignsNames && Stmt.allAssignNames ss

end

end Scriptlet
