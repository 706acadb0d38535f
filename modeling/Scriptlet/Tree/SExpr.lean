import Scriptlet.Tree.Basic

/-! Program trees as S-expressions, without positions. -/
namespace Scriptlet

/-- A word, or a list in parentheses. -/
inductive SExpr where
  | atom (text : String)
  | list (items : List SExpr)

mutual

def SExpr.render : SExpr → String
  | .atom text => text
  | .list items => "(" ++ String.intercalate " " (SExpr.renderAll items) ++ ")"

def SExpr.renderAll : List SExpr → List String
  | [] => []
  | e :: es => e.render :: SExpr.renderAll es

end

/-- The operator as it is written in a source text. -/
def BinaryOp.text : BinaryOp → String
  | add => "+" | sub => "-" | mul => "*" | div => "/" | mod => "%" | eq => "==" | ne => "!="
  | lt => "<" | le => "<=" | gt => ">" | ge => ">=" | and => "and" | or => "or"

def UnaryOp.text : UnaryOp → String
  | not => "not" | negate => "-" | plus => "+"

/-- Texts are quoted, and floating-point numbers have the fewest digits that identify them. -/
def Value.toSExpr : Value → SExpr
  | integer n => .atom (toString n)
  | float x => .atom (Decimal.text x)
  | string s => .atom (Text.quoted s)
  | bool b => .atom (if b then "true" else "false")

mutual

def Expr.toSExpr : Expr → SExpr
  | .literal _ v => v.toSExpr
  | .name _ id => .atom id
  | .binary _ op l r => .list [.atom op.text, l.toSExpr, r.toSExpr]
  | .assign _ t v => .list [.atom "=", t.toSExpr, v.toSExpr]
  | .unary _ op e => .list [.atom op.text, e.toSExpr]
  | .call _ f args => .list (.atom "call" :: f.toSExpr :: Expr.toSExprs args)
  | .index _ a i => .list [.atom "index", a.toSExpr, i.toSExpr]
  | .member _ o field => .list [.atom ".", o.toSExpr, .atom field]
  | .context _ e c => .list [.atom "context", e.toSExpr, .atom (Text.quoted c)]

def Expr.toSExprs : List Expr → List SExpr
  | [] => []
  | e :: es => e.toSExpr :: Expr.toSExprs es

end

/-- A declared name with a colon and its type, or the bare name. -/
def typedName (name : String) : Option String → List SExpr
  | none => [.atom name]
  | some type => [.atom (name ++ ":"), .atom type]

def Declaration.toSExpr (d : Declaration) : SExpr :=
  .list (.atom "let" :: (if d.mutable then [.atom "mut"] else []) ++ typedName d.name d.typeName ++
    (d.initial.map Expr.toSExpr).toList)

/-- The name, the parameters in one list, and the result type behind an arrow. -/
def Signature.toSExprs (s : Signature) : List SExpr :=
  .atom s.name :: .list (s.parameters.flatMap fun p => typedName p.name (some p.typeName)) ::
    match s.returnType with
    | none => []
    | some type => [.atom "->", .atom type]

mutual

def Stmt.toSExpr : Stmt → SExpr
  | .expr _ e => .list [.atom "expr", e.toSExpr]
  | .declare _ d => d.toSExpr
  | .block _ body => .list (.atom "block" :: Stmt.toSExprs body)
  | .function _ s body =>
    .list (.atom "fn" :: s.toSExprs ++ [.list (.atom "block" :: Stmt.toSExprs body)])
  | .ret _ v => .list (.atom "return" :: (v.map Expr.toSExpr).toList)
  | .ifThen _ c s => .list [.atom "if", c.toSExpr, s.toSExpr]
  | .ifElse _ c s f => .list [.atom "if", c.toSExpr, s.toSExpr, f.toSExpr]
  | .whileLoop _ c b => .list [.atom "while", c.toSExpr, b.toSExpr]
  | .forRange _ v a b s => .list [.atom "for", .atom v, a.toSExpr, b.toSExpr, s.toSExpr]

def Stmt.toSExprs : List Stmt → List SExpr
  | [] => []
  | s :: ss => s.toSExpr :: Stmt.toSExprs ss

end

def Expr.text (e : Expr) : String := e.toSExpr.render

def Stmt.text (s : Stmt) : String := s.toSExpr.render

/-- One top-level statement a line. -/
def Program.text (p : Program) : String := String.intercalate "\n" (p.map Stmt.text)

end Scriptlet
