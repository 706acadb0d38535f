import Scriptlet.Proofs.Parse.Names
import Scriptlet.Proofs.Tree.Erase
import Scriptlet.Proofs.Tree.Readable

/-! Expressions as S-expressions: which words they are made of, and that they can be told apart. -/
namespace Scriptlet

def Value.isFloat : Value → Bool
  | float _ => true
  | _ => false

mutual

/-- The literals of an expression from left to right. -/
def Expr.literals : Expr → List Value
  | .literal _ v => [v]
  | .name .. => []
  | .binary _ _ a b | .assign _ a b | .index _ a b => a.literals ++ b.literals
  | .unary _ _ e | .member _ e _ | .context _ e _ => e.literals
  | .call _ f es => f.literals ++ Expr.allLiterals es

def Expr.allLiterals : List Expr → List Value
  | [] => []
  | e :: es => e.literals ++ Expr.allLiterals es

end

section Words

variable {c : Char} {x y : String}

theorem not_isCloser_of_isWordChar (h : IsWordChar c) : ¬ isCloser c := by
  intro hc
  simp only [isCloser, Bool.or_eq_true, beq_iff_eq] at hc
  rcases hc with (rfl | rfl) | rfl <;> revert h <;> simp [IsWordChar]

theorem IsWordStart.isWordChar (h : IsWordStart c) : IsWordChar c :=
  h.imp_right .inr

theorem IsWordStart.ne {d : Char} (h : IsWordStart c) (hd : ¬ d.isAlpha ∧ d ≠ '_') : c ≠ d := by
  rintro rfl
  exact h.elim hd.1 hd.2

theorem IsName.all_isWordChar (h : IsName x) : ∀ d ∈ x.toList, IsWordChar d := by
  obtain ⟨c, cs, hx, hc, hcs⟩ := h.word
  rw [hx]
  exact List.forall_mem_cons.2 ⟨hc.isWordChar, hcs⟩

theorem IsName.isAtom (h : IsName x) : IsAtom x := by
  obtain ⟨c, cs, hx, hc, _⟩ := h.word
  have hall := h.all_isWordChar
  rw [hx] at hall
  refine .word (isWord_iff.2 ⟨c, cs, hx, hc.ne (by decide), hc.ne (by decide), fun d hd => ?_⟩)
  exact not_isCloser_of_isWordChar (hall d hd)

theorem IsName.isAtom_colon (h : IsName x) : IsAtom (x ++ ":") := by
  obtain ⟨c, cs, hx, hc, _⟩ := h.word
  have hall := h.all_isWordChar
  rw [hx] at hall
  have hchars : (x ++ ":").toList = c :: (cs ++ [':']) := by simp [hx]
  have hcolon : ¬ isCloser ':' := by decide
  refine .word (isWord_iff.2 ⟨c, _, hchars, hc.ne (by decide), hc.ne (by decide), ?_⟩)
  rw [← List.cons_append, List.forall_mem_append, List.forall_mem_singleton]
  exact ⟨fun d hd => not_isCloser_of_isWordChar (hall d hd), hcolon⟩

theorem IsName.ne_append_colon (h : IsName x) (y : String) : x ≠ y ++ ":" := by
  rintro rfl
  have hcolon := h.all_isWordChar ':' (by simp)
  revert hcolon
  simp [IsWordChar]

end Words

/-- The forms of literals. -/
inductive LiteralShape where
  | number | text | truth (b : Bool)

/-- The forms of expressions. -/
inductive Shape where
  | literal (l : LiteralShape)
  | name | assign | call | index | member | context
  | unary (op : Option UnaryOp)
  | binary (op : Option BinaryOp)

def UnaryOp.ofText? (t : String) : Option UnaryOp := [not, negate, plus].find? (·.text == t)

def BinaryOp.ofText? (t : String) : Option BinaryOp :=
  [add, sub, mul, div, mod, eq, ne, lt, le, gt, ge, and, or].find? (·.text == t)

/-- The form of expression that an atom stands for. -/
def atomShape (a : String) : Shape :=
  match a.toList with
  | [] => .name
  | c :: _ =>
    if c = '"' then .literal .text
    else if c = '-' ∨ c.isDigit then .literal .number
    else if a = "true" then .literal (.truth true)
    else if a = "false" then .literal (.truth false)
    else .name

/-- The form of expression that an S-expression stands for. The word in front tells it, and the
number of operands tells the two kinds of signs apart. -/
def SExpr.shape : SExpr → Shape
  | .atom a => atomShape a
  | .list (.atom "=" :: _) => .assign
  | .list (.atom "call" :: _) => .call
  | .list (.atom "index" :: _) => .index
  | .list (.atom "." :: _) => .member
  | .list (.atom "context" :: _) => .context
  | .list [.atom t, _] => .unary (UnaryOp.ofText? t)
  | .list (.atom t :: _) => .binary (BinaryOp.ofText? t)
  | .list _ => .name

def Value.shape : Value → LiteralShape
  | .integer _ | .float _ => .number
  | .string _ => .text
  | .bool b => .truth b

def Expr.shape : Expr → Shape
  | .literal _ v => .literal v.shape
  | .name .. => .name
  | .binary _ op _ _ => .binary (some op)
  | .assign .. => .assign
  | .unary _ op _ => .unary (some op)
  | .call .. => .call
  | .index .. => .index
  | .member .. => .member
  | .context .. => .context

theorem IsName.atomShape_eq {x : String} (h : IsName x) : atomShape x = .name := by
  obtain ⟨c, cs, hx, hc, _⟩ := h.word
  have hquote : c ≠ '"' := hc.ne (by decide)
  have hdigit : ¬ c.isDigit := Scan.not_isDigit_of_isWordStart (Scan.isWordStart_iff.2 hc)
  have hnumber : ¬ (c = '-' ∨ c.isDigit) := not_or.2 ⟨hc.ne (by decide), hdigit⟩
  rw [atomShape, hx]
  simp only [if_neg hquote, if_neg hnumber, if_neg h.ne_true, if_neg h.ne_false]

namespace Value

variable {v v' : Value}

theorem shape_toSExpr (h : v.isFloat = false) : v.toSExpr.shape = .literal v.shape := by
  cases v with
  | integer n =>
    obtain ⟨c, cs, hn, hc, _⟩ := Text.toList_toString_int n
    have hquote : c ≠ '"' := by
      rintro rfl
      exact absurd hc (by decide)
    change atomShape (toString n) = .literal .number
    rw [atomShape, hn]
    simp only [if_neg hquote, if_pos hc]
  | float x => cases h
  | string s =>
    obtain ⟨cs, hs⟩ := toList_quoted s
    change atomShape (Text.quoted s) = .literal .text
    rw [atomShape, hs]
    rfl
  | bool b => cases b <;> rfl

theorem toSExpr_inj (h : v.isFloat = false) (h' : v'.isFloat = false)
    (heq : v.toSExpr = v'.toSExpr) : v = v' := by
  have hshape : v.shape = v'.shape := by
    apply Shape.literal.inj
    rw [← shape_toSExpr h, heq, shape_toSExpr h']
  cases v with
  | integer n =>
    cases v' with
    | integer n' => rw [Text.toString_int_inj (SExpr.atom.inj heq)]
    | float _ => cases h'
    | _ => cases hshape
  | float _ => cases h
  | string s =>
    cases v' with
    | string s' => rw [Text.quoted_inj (SExpr.atom.inj heq)]
    | _ => cases hshape
  | bool b =>
    cases v' with
    | bool b' => rw [LiteralShape.truth.inj hshape]
    | _ => cases hshape

theorem readable_toSExpr (h : v.isFloat = false) : v.toSExpr.Readable := by
  cases v with
  | integer n =>
    obtain ⟨c, cs, hn, hc, hcs⟩ := Text.toList_toString_int n
    have hne : ∀ d : Char, ¬ (d = '-' ∨ d.isDigit) → c ≠ d := by
      rintro d hd rfl
      exact hd hc
    have hclose : ∀ d : Char, d.isDigit → ¬ isCloser d := fun d hd =>
      not_isCloser_of_isWordChar (.inr (.inl hd))
    refine .word (isWord_iff.2 ⟨c, cs, hn, hne _ (by decide), hne _ (by decide), ?_⟩)
    rw [List.forall_mem_cons]
    constructor
    · rcases hc with rfl | hc
      · decide
      · exact hclose c hc
    · exact fun d hd => hclose d (hcs d hd)
  | float x => cases h
  | string s => exact .quoted s
  | bool b => cases b <;> exact .word rfl

end Value

theorem BinaryOp.isAtom_text (op : BinaryOp) : IsAtom op.text := by
  cases op <;> exact .word rfl

theorem UnaryOp.isAtom_text (op : UnaryOp) : IsAtom op.text := by
  cases op <;> exact .word rfl

/-- The names are no keywords, and there are no floating-point literals. -/
structure Plain (names : List String) (literals : List Value) : Prop where
  isName : ∀ x ∈ names, IsName x
  isFloat : ∀ v ∈ literals, v.isFloat = false

namespace Plain

variable {x : String} {ns ns' : List String} {vs vs' : List Value}

theorem head (h : Plain (x :: ns) vs) : IsName x := h.isName x List.mem_cons_self

theorem tail (h : Plain (x :: ns) vs) : Plain ns vs :=
  ⟨fun y hy => h.isName y (List.mem_cons_of_mem x hy), h.isFloat⟩

/-- The names in front, which may be those of a head without literals. -/
theorem front (h : Plain (ns ++ ns') vs) : ∀ y ∈ ns, IsName y :=
  fun y hy => h.isName y (List.mem_append_left _ hy)

theorem back (h : Plain (ns ++ ns') vs) : Plain ns' vs :=
  ⟨fun y hy => h.isName y (List.mem_append_right _ hy), h.isFloat⟩

theorem left (h : Plain (ns ++ ns') (vs ++ vs')) : Plain ns vs :=
  ⟨fun y hy => h.isName y (List.mem_append_left _ hy),
    fun v hv => h.isFloat v (List.mem_append_left _ hv)⟩

theorem right (h : Plain (ns ++ ns') (vs ++ vs')) : Plain ns' vs' :=
  ⟨fun y hy => h.isName y (List.mem_append_right _ hy),
    fun v hv => h.isFloat v (List.mem_append_right _ hv)⟩

end Plain

mutual

theorem Expr.readable_toSExpr :
    ∀ {e : Expr}, Plain e.names e.literals → e.toSExpr.Readable
  | .literal _ v, h => v.readable_toSExpr (h.isFloat v List.mem_cons_self)
  | .name .., h => h.head.isAtom
  | .binary _ op a b, h =>
    ⟨op.isAtom_text, a.readable_toSExpr h.left, b.readable_toSExpr h.right, trivial⟩
  | .assign _ t e, h =>
    ⟨.word rfl, t.readable_toSExpr h.left, e.readable_toSExpr h.right, trivial⟩
  | .unary _ op e, h => ⟨op.isAtom_text, e.readable_toSExpr h, trivial⟩
  | .call _ f _, h => ⟨.word rfl, f.readable_toSExpr h.left, Expr.readable_toSExprs h.right⟩
  | .index _ a i, h =>
    ⟨.word rfl, a.readable_toSExpr h.left, i.readable_toSExpr h.right, trivial⟩
  | .member _ e _, h => ⟨.word rfl, e.readable_toSExpr h.tail, h.head.isAtom, trivial⟩
  | .context _ e c, h => ⟨.word rfl, e.readable_toSExpr h, .quoted c, trivial⟩

theorem Expr.readable_toSExprs :
    ∀ {es : List Expr}, Plain (Expr.allNames es) (Expr.allLiterals es) →
      SExpr.AllReadable (Expr.toSExprs es)
  | [], _ => trivial
  | e :: _, h => ⟨e.readable_toSExpr h.left, Expr.readable_toSExprs h.right⟩

end

theorem Expr.shape_toSExpr {e : Expr} (h : Plain e.names e.literals) :
    e.toSExpr.shape = e.shape := by
  cases e with
  | literal _ v => exact v.shape_toSExpr (h.isFloat v List.mem_cons_self)
  | name _ x => exact h.head.atomShape_eq
  | binary _ op _ _ => cases op <;> rfl
  | unary _ op _ => cases op <;> rfl
  | _ => rfl

mutual

/-- An expression is determined by its S-expression, up to positions. -/
theorem Expr.erase_eq_of_toSExpr {e e' : Expr} (h : Plain e.names e.literals)
    (h' : Plain e'.names e'.literals) (heq : e.toSExpr = e'.toSExpr) : e.erase = e'.erase := by
  have hshape : e.shape = e'.shape := by
    rw [← Expr.shape_toSExpr h, heq, Expr.shape_toSExpr h']
  cases e with
  | literal _ v =>
    cases e' with
    | literal _ v' =>
      have hv := Value.toSExpr_inj (h.isFloat v List.mem_cons_self)
        (h'.isFloat v' List.mem_cons_self) heq
      rw [Expr.erase, Expr.erase, hv]
    | _ => cases hshape
  | name _ x =>
    cases e' with
    | name _ x' => rw [Expr.erase, Expr.erase, SExpr.atom.inj heq]
    | _ => cases hshape
  | binary _ op a b =>
    cases e' with
    | binary _ op' a' b' =>
      cases hshape
      simp only [Expr.toSExpr, SExpr.list.injEq, List.cons.injEq, true_and, and_true] at heq
      have ha := Expr.erase_eq_of_toSExpr h.left h'.left heq.1
      have hb := Expr.erase_eq_of_toSExpr h.right h'.right heq.2
      rw [Expr.erase, Expr.erase, ha, hb]
    | _ => cases hshape
  | assign _ t v =>
    cases e' with
    | assign _ t' v' =>
      simp only [Expr.toSExpr, SExpr.list.injEq, List.cons.injEq, true_and, and_true] at heq
      have ht := Expr.erase_eq_of_toSExpr h.left h'.left heq.1
      have hv := Expr.erase_eq_of_toSExpr h.right h'.right heq.2
      rw [Expr.erase, Expr.erase, ht, hv]
    | _ => cases hshape
  | unary _ op a =>
    cases e' with
    | unary _ op' a' =>
      cases hshape
      simp only [Expr.toSExpr, SExpr.list.injEq, List.cons.injEq, true_and, and_true] at heq
      have ha : a.erase = a'.erase := Expr.erase_eq_of_toSExpr h h' heq
      rw [Expr.erase, Expr.erase, ha]
    | _ => cases hshape
  | call _ f es =>
    cases e' with
    | call _ f' es' =>
      simp only [Expr.toSExpr, SExpr.list.injEq, List.cons.injEq, true_and] at heq
      have hf := Expr.erase_eq_of_toSExpr h.left h'.left heq.1
      have hes := Expr.eraseAll_eq_of_toSExprs h.right h'.right heq.2
      rw [Expr.erase, Expr.erase, hf, hes]
    | _ => cases hshape
  | index _ a i =>
    cases e' with
    | index _ a' i' =>
      simp only [Expr.toSExpr, SExpr.list.injEq, List.cons.injEq, true_and, and_true] at heq
      have ha := Expr.erase_eq_of_toSExpr h.left h'.left heq.1
      have hi := Expr.erase_eq_of_toSExpr h.right h'.right heq.2
      rw [Expr.erase, Expr.erase, ha, hi]
    | _ => cases hshape
  | member _ o field =>
    cases e' with
    | member _ o' field' =>
      simp only [Expr.toSExpr, SExpr.list.injEq, List.cons.injEq, true_and, and_true] at heq
      have ho := Expr.erase_eq_of_toSExpr h.tail h'.tail heq.1
      rw [Expr.erase, Expr.erase, ho, SExpr.atom.inj heq.2]
    | _ => cases hshape
  | context _ a c =>
    cases e' with
    | context _ a' c' =>
      simp only [Expr.toSExpr, SExpr.list.injEq, List.cons.injEq, true_and, and_true] at heq
      have ha : a.erase = a'.erase := Expr.erase_eq_of_toSExpr h h' heq.1
      rw [Expr.erase, Expr.erase, ha, Text.quoted_inj (SExpr.atom.inj heq.2)]
    | _ => cases hshape

theorem Expr.eraseAll_eq_of_toSExprs {es es' : List Expr}
    (h : Plain (Expr.allNames es) (Expr.allLiterals es))
    (h' : Plain (Expr.allNames es') (Expr.allLiterals es'))
    (heq : Expr.toSExprs es = Expr.toSExprs es') : Expr.eraseAll es = Expr.eraseAll es' := by
  cases es with
  | nil =>
    cases es' with
    | nil => rfl
    | cons e' es' => cases heq
  | cons e es =>
    cases es' with
    | nil => cases heq
    | cons e' es' =>
      obtain ⟨he, hes⟩ := List.cons.inj heq
      have hhead := Expr.erase_eq_of_toSExpr h.left h'.left he
      have htail := Expr.eraseAll_eq_of_toSExprs h.right h'.right hes
      rw [Expr.eraseAll, Expr.eraseAll, hhead, htail]

end

end Scriptlet
