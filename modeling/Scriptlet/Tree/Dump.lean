import Scriptlet.Tree.Basic

/-! Dumps of program trees with all positions. -/
namespace Scriptlet

def BinaryOp.dumpName : BinaryOp → String
  | add => "Add" | sub => "Sub" | mul => "Mul" | div => "Div" | mod => "Mod" | eq => "Eq"
  | ne => "Ne" | lt => "Lt" | le => "Le" | gt => "Gt" | ge => "Ge" | and => "And" | or => "Or"

def UnaryOp.dumpName : UnaryOp → String
  | not => "Not" | negate => "Negate" | plus => "Plus"

/-- A node of a tree: its kind and its position. -/
def Dump.node (name : String) (kind : Dump) (p : Position) : Dump :=
  .record name
    [("kind", kind),
     ("position", .record "Position" [("line", .nat p.line), ("column", .nat p.column)])]

/-- A binary operation; an assignment counts as one. -/
def Dump.binary (operator : String) (lhs rhs : Dump) : Dump :=
  .record "Binary" [("operator", .atom operator), ("lhs", lhs), ("rhs", rhs)]

mutual

def Expr.dump : Expr → Dump
  | .literal p v => .node "Expression" v.dump p
  | .name p id => .node "Expression" (.apply "Identifier" [.string id]) p
  | .binary p op l r => .node "Expression" (.binary op.dumpName l.dump r.dump) p
  | .assign p t v => .node "Expression" (.binary "Assign" t.dump v.dump) p
  | .unary p op e =>
    .node "Expression" (.record "Unary" [("operator", .atom op.dumpName), ("rhs", e.dump)]) p
  | .call p f args =>
    .node "Expression"
      (.record "Call" [("callee", f.dump), ("arguments", .list (Expr.dumps args))]) p
  | .index p a i =>
    .node "Expression" (.record "Index" [("array", a.dump), ("index", i.dump)]) p
  | .member p o field =>
    .node "Expression" (.record "Member" [("object", o.dump), ("name", .string field)]) p
  | .context p e c =>
    .node "Expression"
      (.record "ContextConditional" [("inner", e.dump), ("context", .string c)]) p

def Expr.dumps : List Expr → List Dump
  | [] => []
  | e :: es => e.dump :: Expr.dumps es

end

def Dump.optionString (s : Option String) : Dump := .option (s.map .string)

def Declaration.dump (d : Declaration) : Dump :=
  .apply "VariableDecl"
    [.record "VariableDecl"
      [("name", .string d.name), ("type_name", .optionString d.typeName),
       ("initial", .option (d.initial.map Expr.dump)), ("mutable", .bool d.mutable)]]

def Parameter.dump (p : Parameter) : Dump :=
  .record "Parameter" [("name", .string p.name), ("type_name", .string p.typeName)]

def Signature.dump (s : Signature) (body : Dump) : Dump :=
  .apply "FunctionDecl"
    [.record "FunctionDecl"
      [("name", .string s.name), ("parameters", .list (s.parameters.map Parameter.dump)),
       ("return_type", .optionString s.returnType), ("body", body)]]

/-- A conditional; without an `else` branch its failure is missing. -/
def Dump.conditional (condition success : Dump) (failure : Option Dump) : Dump :=
  .record "If" [("condition", condition), ("success", success), ("failure", .option failure)]

mutual

def Stmt.dump : Stmt → Dump
  | .expr p e => .node "Statement" (.apply "Expression" [e.dump]) p
  | .declare p d => .node "Statement" d.dump p
  | .block p body => .node "Statement" (.apply "Block" [.list (Stmt.dumps body)]) p
  | .function p s body => .node "Statement" (s.dump (.list (Stmt.dumps body))) p
  | .ret p v => .node "Statement" (.apply "Return" [.option (v.map Expr.dump)]) p
  | .ifThen p c s => .node "Statement" (.conditional c.dump s.dump none) p
  | .ifElse p c s f => .node "Statement" (.conditional c.dump s.dump (some f.dump)) p
  | .whileLoop p c b =>
    .node "Statement" (.record "While" [("condition", c.dump), ("body", b.dump)]) p
  | .forRange p v a b s =>
    .node "Statement"
      (.record "For"
        [("variable", .string v), ("start", a.dump), ("end", b.dump), ("body", s.dump)]) p

def Stmt.dumps : List Stmt → List Dump
  | [] => []
  | s :: ss => s.dump :: Stmt.dumps ss

end

def Program.dump (p : Program) : Dump := .record "Program" [("statements", .list (Stmt.dumps p))]

end Scriptlet
