import Scriptlet.Proofs.Tree.ExpressionText

/-! The text of a program identifies it up to positions, if there are no floating-point literals. -/
namespace Scriptlet

mutual

/-- The literals of a statement from left to right. -/
def Stmt.literals : Stmt → List Value
  | .expr _ e => e.literals
  | .declare _ d => (d.initial.map Expr.literals).getD []
  | .block _ ss | .function _ _ ss => Stmt.allLiterals ss
  | .ret _ v => (v.map Expr.literals).getD []
  | .ifThen _ c s | .whileLoop _ c s => c.literals ++ s.literals
  | .ifElse _ c s f => c.literals ++ s.literals ++ f.literals
  | .forRange _ _ a b s => a.literals ++ b.literals ++ s.literals

def Stmt.allLiterals : List Stmt → List Value
  | [] => []
  | s :: ss => s.literals ++ Stmt.allLiterals ss

end

section Heads

variable {x y : String} {t t' : Option String} {xs ys : List SExpr}

theorem readable_typedName (hx : IsName x) (ht : ∀ y ∈ t.toList, IsName y) :
    SExpr.AllReadable (typedName x t) := by
  cases t with
  | none => exact ⟨hx.isAtom, trivial⟩
  | some y => exact ⟨hx.isAtom_colon, (ht y (by simp)).isAtom, trivial⟩

/-- The colon tells a name with a type from one without. -/
theorem typedName_append_inj (hx : IsName x) (hy : IsName y)
    (h : typedName x t ++ xs = typedName y t' ++ ys) : x = y ∧ t = t' ∧ xs = ys := by
  cases t with
  | none =>
    cases t' with
    | none => simpa [typedName] using h
    | some u =>
      have hxy : x = y ++ ":" := SExpr.atom.inj (List.cons.inj h).1
      exact absurd hxy (hx.ne_append_colon y)
  | some u =>
    cases t' with
    | none =>
      have hxy : x ++ ":" = y := SExpr.atom.inj (List.cons.inj h).1
      exact absurd hxy.symm (hy.ne_append_colon x)
    | some u' =>
      simp only [typedName, List.cons_append, List.nil_append, List.cons.injEq,
        SExpr.atom.injEq] at h
      have hxy : x.toList ++ [':'] = y.toList ++ [':'] := by
        simpa using congrArg String.toList h.1
      exact ⟨String.toList_inj.1 (List.append_cancel_right hxy), by rw [h.2.1], h.2.2⟩

theorem typedName_append_ne_mut (hx : IsName x) :
    typedName x t ++ xs ≠ .atom "mut" :: ys := by
  intro h
  cases t with
  | none =>
    have hmut : x = "mut" := SExpr.atom.inj (List.cons.inj h).1
    exact hx.ne_keyword .mutKw hmut
  | some u =>
    have hmut : x ++ ":" = "mut" := SExpr.atom.inj (List.cons.inj h).1
    have hlast := congrArg (·.toList.getLast?) hmut
    simp at hlast

theorem flatMap_typedName_inj : ∀ {ps qs : List Parameter},
    (∀ x ∈ ps.flatMap Parameter.names, IsName x) → (∀ x ∈ qs.flatMap Parameter.names, IsName x) →
    (ps.flatMap fun p => typedName p.name (some p.typeName)) =
      (qs.flatMap fun p => typedName p.name (some p.typeName)) → ps = qs
  | [], [], _, _, _ => rfl
  | [], q :: qs, _, _, h => by simp [typedName] at h
  | p :: ps, [], _, _, h => by simp [typedName] at h
  | p :: ps, q :: qs, hp, hq, h => by
    simp only [List.flatMap_cons, List.forall_mem_append] at hp hq h
    obtain ⟨hname, htype, hrest⟩ := typedName_append_inj (hp.1 _ (by simp)) (hq.1 _ (by simp)) h
    have hps := flatMap_typedName_inj hp.2 hq.2 hrest
    cases p
    cases q
    simp_all

theorem readable_parameters {ps : List Parameter}
    (h : ∀ x ∈ ps.flatMap Parameter.names, IsName x) :
    SExpr.AllReadable (ps.flatMap fun p => typedName p.name (some p.typeName)) := by
  induction ps with
  | nil => trivial
  | cons p ps ih =>
    simp only [List.flatMap_cons, List.forall_mem_append] at h ⊢
    have hhead := readable_typedName (t := some p.typeName) (h.1 p.name (by simp))
      (by simpa using h.1 p.typeName (by simp))
    exact SExpr.allReadable_append hhead (ih h.2)

theorem Signature.readable_toSExprs {f : Signature} (h : ∀ x ∈ f.names, IsName x) :
    SExpr.AllReadable f.toSExprs := by
  simp only [Signature.names, List.cons_append, List.forall_mem_cons, List.forall_mem_append] at h
  obtain ⟨hname, hparams, hresult⟩ := h
  refine ⟨hname.isAtom, readable_parameters hparams, ?_⟩
  cases ht : f.returnType with
  | none => trivial
  | some t => exact ⟨.word rfl, (hresult t (by simp [ht])).isAtom, trivial⟩

/-- The arrow tells a result type from the body. -/
theorem Signature.toSExprs_append_inj {f f' : Signature} {b b' : SExpr}
    (h : ∀ x ∈ f.names, IsName x) (h' : ∀ x ∈ f'.names, IsName x)
    (heq : f.toSExprs ++ [b] = f'.toSExprs ++ [b']) : f = f' ∧ b = b' := by
  obtain ⟨name, params, result⟩ := f
  obtain ⟨name', params', result'⟩ := f'
  simp only [Signature.names, List.cons_append, List.forall_mem_cons,
    List.forall_mem_append] at h h'
  simp only [Signature.toSExprs, List.cons_append, List.cons.injEq, SExpr.atom.injEq,
    SExpr.list.injEq] at heq
  obtain ⟨hname, hparams, hrest⟩ := heq
  have hps := flatMap_typedName_inj h.2.1 h'.2.1 hparams
  cases result <;> cases result' <;> simp_all

variable {v v' : Option Expr}

theorem Expr.readable_optional
    (h : Plain ((v.map Expr.names).getD []) ((v.map Expr.literals).getD [])) :
    SExpr.AllReadable (v.map Expr.toSExpr).toList := by
  cases v with
  | none => trivial
  | some e => exact ⟨e.readable_toSExpr h, trivial⟩

theorem Expr.optional_erase_eq
    (h : Plain ((v.map Expr.names).getD []) ((v.map Expr.literals).getD []))
    (h' : Plain ((v'.map Expr.names).getD []) ((v'.map Expr.literals).getD []))
    (heq : (v.map Expr.toSExpr).toList = (v'.map Expr.toSExpr).toList) :
    v.map Expr.erase = v'.map Expr.erase := by
  cases v with
  | none =>
    cases v' with
    | none => rfl
    | some e' => cases heq
  | some e =>
    cases v' with
    | none => cases heq
    | some e' => exact congrArg some (Expr.erase_eq_of_toSExpr h h' (List.cons.inj heq).1)

theorem Declaration.readable_toSExpr {d : Declaration}
    (h : Plain d.names ((d.initial.map Expr.literals).getD [])) : d.toSExpr.Readable := by
  have hhead := h.front
  rw [List.forall_mem_cons] at hhead
  have hmut : SExpr.AllReadable (if d.mutable then [.atom "mut"] else []) := by
    cases d.mutable
    · trivial
    · exact ⟨.word rfl, trivial⟩
  exact ⟨.word rfl, SExpr.allReadable_append
    (SExpr.allReadable_append hmut (readable_typedName hhead.1 hhead.2))
    (Expr.readable_optional h.back)⟩

/-- No name is `mut`, so that the word can only stand for itself. -/
theorem Declaration.erase_eq_of_toSExpr {d d' : Declaration}
    (h : Plain d.names ((d.initial.map Expr.literals).getD []))
    (h' : Plain d'.names ((d'.initial.map Expr.literals).getD []))
    (heq : d.toSExpr = d'.toSExpr) : d.erase = d'.erase := by
  obtain ⟨x, t, v, m⟩ := d
  obtain ⟨x', t', v', m'⟩ := d'
  have hx : IsName x := h.head
  have hx' : IsName x' := h'.head
  simp only [Declaration.toSExpr, SExpr.list.injEq, List.cons_append, List.cons.injEq, true_and,
    List.append_assoc] at heq
  have hm : m = m' := by
    cases m with
    | false =>
      cases m' with
      | false => rfl
      | true => exact absurd heq (typedName_append_ne_mut hx)
    | true =>
      cases m' with
      | false => exact absurd heq.symm (typedName_append_ne_mut hx')
      | true => rfl
  subst hm
  obtain ⟨hxx, htt, hvv⟩ := typedName_append_inj hx hx' (List.append_cancel_left heq)
  have hv := Expr.optional_erase_eq h.back h'.back hvv
  simp only [Declaration.erase, hxx, htt, hv]

end Heads

mutual

theorem Stmt.readable_toSExpr : ∀ {s : Stmt}, Plain s.names s.literals → s.toSExpr.Readable
  | .expr _ e, h => ⟨.word rfl, e.readable_toSExpr h, trivial⟩
  | .declare _ d, h => d.readable_toSExpr h
  | .block .., h => ⟨.word rfl, Stmt.readable_toSExprs h⟩
  | .function _ f _, h =>
    ⟨.word rfl, SExpr.allReadable_append (f.readable_toSExprs h.front)
      ⟨⟨.word rfl, Stmt.readable_toSExprs h.back⟩, trivial⟩⟩
  | .ret .., h => ⟨.word rfl, Expr.readable_optional h⟩
  | .ifThen _ c s, h => ⟨.word rfl, c.readable_toSExpr h.left, s.readable_toSExpr h.right, trivial⟩
  | .ifElse _ c s f, h =>
    ⟨.word rfl, c.readable_toSExpr h.left.left, s.readable_toSExpr h.left.right,
      f.readable_toSExpr h.right, trivial⟩
  | .whileLoop _ c s, h =>
    ⟨.word rfl, c.readable_toSExpr h.left, s.readable_toSExpr h.right, trivial⟩
  | .forRange _ _ a b s, h =>
    ⟨.word rfl, h.left.left.head.isAtom, a.readable_toSExpr h.left.left.tail,
      b.readable_toSExpr h.left.right, s.readable_toSExpr h.right, trivial⟩

theorem Stmt.readable_toSExprs :
    ∀ {ss : List Stmt}, Plain (Stmt.allNames ss) (Stmt.allLiterals ss) →
      SExpr.AllReadable (Stmt.toSExprs ss)
  | [], _ => trivial
  | s :: _, h => ⟨s.readable_toSExpr h.left, Stmt.readable_toSExprs h.right⟩

end

mutual

/-- A statement is determined by its S-expression, up to positions. -/
theorem Stmt.erase_eq_of_toSExpr {s s' : Stmt} (h : Plain s.names s.literals)
    (h' : Plain s'.names s'.literals) (heq : s.toSExpr = s'.toSExpr) : s.erase = s'.erase := by
  cases s with
  | expr _ e =>
    cases s' with
    | expr _ e' =>
      simp only [Stmt.toSExpr, SExpr.list.injEq, List.cons.injEq, true_and, and_true] at heq
      have he : e.erase = e'.erase := Expr.erase_eq_of_toSExpr h h' heq
      rw [Stmt.erase, Stmt.erase, he]
    | _ => simp [Stmt.toSExpr, Declaration.toSExpr] at heq
  | declare _ d =>
    cases s' with
    | declare _ d' =>
      have hd : d.erase = d'.erase := Declaration.erase_eq_of_toSExpr h h' heq
      rw [Stmt.erase, Stmt.erase, hd]
    | _ => simp [Stmt.toSExpr, Declaration.toSExpr] at heq
  | block _ ss =>
    cases s' with
    | block _ ss' =>
      simp only [Stmt.toSExpr, SExpr.list.injEq, List.cons.injEq, true_and] at heq
      have hss : Stmt.eraseAll ss = Stmt.eraseAll ss' := Stmt.eraseAll_eq_of_toSExprs h h' heq
      rw [Stmt.erase, Stmt.erase, hss]
    | _ => simp [Stmt.toSExpr, Declaration.toSExpr] at heq
  | function _ f ss =>
    cases s' with
    | function _ f' ss' =>
      simp only [Stmt.toSExpr, SExpr.list.injEq, List.cons_append, List.cons.injEq,
        true_and] at heq
      obtain ⟨hf, hbody⟩ := Signature.toSExprs_append_inj h.front h'.front heq
      simp only [SExpr.list.injEq, List.cons.injEq, true_and] at hbody
      have hss := Stmt.eraseAll_eq_of_toSExprs h.back h'.back hbody
      rw [Stmt.erase, Stmt.erase, hf, hss]
    | _ => simp [Stmt.toSExpr, Declaration.toSExpr] at heq
  | ret _ v =>
    cases s' with
    | ret _ v' =>
      simp only [Stmt.toSExpr, SExpr.list.injEq, List.cons.injEq, true_and] at heq
      rw [Stmt.erase, Stmt.erase, Expr.optional_erase_eq h h' heq]
    | _ => simp [Stmt.toSExpr, Declaration.toSExpr] at heq
  | ifThen _ c s =>
    cases s' with
    | ifThen _ c' s' =>
      simp only [Stmt.toSExpr, SExpr.list.injEq, List.cons.injEq, true_and, and_true] at heq
      have hc := Expr.erase_eq_of_toSExpr h.left h'.left heq.1
      have hs := Stmt.erase_eq_of_toSExpr h.right h'.right heq.2
      rw [Stmt.erase, Stmt.erase, hc, hs]
    | _ => simp [Stmt.toSExpr, Declaration.toSExpr] at heq
  | ifElse _ c s f =>
    cases s' with
    | ifElse _ c' s' f' =>
      simp only [Stmt.toSExpr, SExpr.list.injEq, List.cons.injEq, true_and, and_true] at heq
      have hc := Expr.erase_eq_of_toSExpr h.left.left h'.left.left heq.1
      have hs := Stmt.erase_eq_of_toSExpr h.left.right h'.left.right heq.2.1
      have hf := Stmt.erase_eq_of_toSExpr h.right h'.right heq.2.2
      rw [Stmt.erase, Stmt.erase, hc, hs, hf]
    | _ => simp [Stmt.toSExpr, Declaration.toSExpr] at heq
  | whileLoop _ c s =>
    cases s' with
    | whileLoop _ c' s' =>
      simp only [Stmt.toSExpr, SExpr.list.injEq, List.cons.injEq, true_and, and_true] at heq
      have hc := Expr.erase_eq_of_toSExpr h.left h'.left heq.1
      have hs := Stmt.erase_eq_of_toSExpr h.right h'.right heq.2
      rw [Stmt.erase, Stmt.erase, hc, hs]
    | _ => simp [Stmt.toSExpr, Declaration.toSExpr] at heq
  | forRange _ x a b s =>
    cases s' with
    | forRange _ x' a' b' s' =>
      simp only [Stmt.toSExpr, SExpr.list.injEq, List.cons.injEq, true_and, and_true,
        SExpr.atom.injEq] at heq
      obtain ⟨hx, ha, hb, hs⟩ := heq
      have ha := Expr.erase_eq_of_toSExpr h.left.left.tail h'.left.left.tail ha
      have hb := Expr.erase_eq_of_toSExpr h.left.right h'.left.right hb
      have hs := Stmt.erase_eq_of_toSExpr h.right h'.right hs
      rw [Stmt.erase, Stmt.erase, hx, ha, hb, hs]
    | _ => simp [Stmt.toSExpr, Declaration.toSExpr] at heq

theorem Stmt.eraseAll_eq_of_toSExprs {ss ss' : List Stmt}
    (h : Plain (Stmt.allNames ss) (Stmt.allLiterals ss))
    (h' : Plain (Stmt.allNames ss') (Stmt.allLiterals ss'))
    (heq : Stmt.toSExprs ss = Stmt.toSExprs ss') : Stmt.eraseAll ss = Stmt.eraseAll ss' := by
  cases ss with
  | nil =>
    cases ss' with
    | nil => rfl
    | cons s' ss' => cases heq
  | cons s ss =>
    cases ss' with
    | nil => cases heq
    | cons s' ss' =>
      obtain ⟨hs, hss⟩ := List.cons.inj heq
      have hhead := Stmt.erase_eq_of_toSExpr h.left h'.left hs
      have htail := Stmt.eraseAll_eq_of_toSExprs h.right h'.right hss
      rw [Stmt.eraseAll, Stmt.eraseAll, hhead, htail]

end

section Positions

mutual

/-- Positions leave no trace. -/
theorem Expr.toSExpr_erase : ∀ e : Expr, e.erase.toSExpr = e.toSExpr
  | .literal .. | .name .. => rfl
  | .binary _ _ a b => by simp only [Expr.erase, Expr.toSExpr, a.toSExpr_erase, b.toSExpr_erase]
  | .assign _ t e => by simp only [Expr.erase, Expr.toSExpr, t.toSExpr_erase, e.toSExpr_erase]
  | .unary _ _ e | .member _ e _ | .context _ e _ => by
    simp only [Expr.erase, Expr.toSExpr, e.toSExpr_erase]
  | .call _ f es => by
    simp only [Expr.erase, Expr.toSExpr, f.toSExpr_erase, Expr.toSExprs_eraseAll es]
  | .index _ a i => by simp only [Expr.erase, Expr.toSExpr, a.toSExpr_erase, i.toSExpr_erase]

theorem Expr.toSExprs_eraseAll :
    ∀ es : List Expr, Expr.toSExprs (Expr.eraseAll es) = Expr.toSExprs es
  | [] => rfl
  | e :: es => by
    simp only [Expr.eraseAll, Expr.toSExprs, e.toSExpr_erase, Expr.toSExprs_eraseAll es]

end

theorem Expr.optional_toSExpr_erase (v : Option Expr) :
    (v.map Expr.erase).map Expr.toSExpr = v.map Expr.toSExpr := by
  cases v with
  | none => rfl
  | some e => exact congrArg some e.toSExpr_erase

theorem Declaration.toSExpr_erase (d : Declaration) : d.erase.toSExpr = d.toSExpr := by
  have hinitial : d.erase.initial.map Expr.toSExpr = d.initial.map Expr.toSExpr :=
    Expr.optional_toSExpr_erase d.initial
  rw [Declaration.toSExpr, hinitial]
  rfl

mutual

theorem Stmt.toSExpr_erase : ∀ s : Stmt, s.erase.toSExpr = s.toSExpr
  | .expr _ e => by simp only [Stmt.erase, Stmt.toSExpr, e.toSExpr_erase]
  | .declare _ d => d.toSExpr_erase
  | .block _ ss => by simp only [Stmt.erase, Stmt.toSExpr, Stmt.toSExprs_eraseAll ss]
  | .function _ f ss => by simp only [Stmt.erase, Stmt.toSExpr, Stmt.toSExprs_eraseAll ss]
  | .ret _ v => by simp only [Stmt.erase, Stmt.toSExpr, Expr.optional_toSExpr_erase]
  | .ifThen _ c s | .whileLoop _ c s => by
    simp only [Stmt.erase, Stmt.toSExpr, c.toSExpr_erase, s.toSExpr_erase]
  | .ifElse _ c s f => by
    simp only [Stmt.erase, Stmt.toSExpr, c.toSExpr_erase, s.toSExpr_erase, f.toSExpr_erase]
  | .forRange _ _ a b s => by
    simp only [Stmt.erase, Stmt.toSExpr, a.toSExpr_erase, b.toSExpr_erase, s.toSExpr_erase]

theorem Stmt.toSExprs_eraseAll :
    ∀ ss : List Stmt, Stmt.toSExprs (Stmt.eraseAll ss) = Stmt.toSExprs ss
  | [] => rfl
  | s :: ss => by
    simp only [Stmt.eraseAll, Stmt.toSExprs, s.toSExpr_erase, Stmt.toSExprs_eraseAll ss]

end

end Positions

theorem Program.text_eq (p : Program) :
    p.text = String.intercalate "\n" (SExpr.renderAll (Stmt.toSExprs p)) := by
  have hlines : p.map Stmt.text = SExpr.renderAll (Stmt.toSExprs p) := by
    induction p with
    | nil => rfl
    | cons s ss ih => rw [List.map_cons, ih, Stmt.toSExprs, SExpr.renderAll, Stmt.text]
  rw [Program.text, hlines]

/-- Two programs that are read without an error and have no floating-point literals are equal up to
positions exactly if their texts are. -/
theorem Program.text_eq_iff (source source' : String)
    (h : (parse (tokenize source).1).2 = []) (h' : (parse (tokenize source').1).2 = [])
    (hv : ∀ v ∈ Stmt.allLiterals (parse (tokenize source).1).1, v.isFloat = false)
    (hv' : ∀ v ∈ Stmt.allLiterals (parse (tokenize source').1).1, v.isFloat = false) :
    Program.text (parse (tokenize source).1).1 = Program.text (parse (tokenize source').1).1 ↔
      Stmt.eraseAll (parse (tokenize source).1).1 =
        Stmt.eraseAll (parse (tokenize source').1).1 := by
  have hplain : Plain (Stmt.allNames _) (Stmt.allLiterals _) := ⟨isName_of_parse h, hv⟩
  have hplain' : Plain (Stmt.allNames _) (Stmt.allLiterals _) := ⟨isName_of_parse h', hv'⟩
  rw [Program.text_eq, Program.text_eq]
  constructor
  · intro htext
    have hlines := SExpr.renderLines_inj (Stmt.readable_toSExprs hplain)
      (Stmt.readable_toSExprs hplain') htext
    exact Stmt.eraseAll_eq_of_toSExprs hplain hplain' hlines
  · intro herase
    rw [← Stmt.toSExprs_eraseAll, herase, Stmt.toSExprs_eraseAll]

/-- Variables with the names of lists, a minus with one and with two operands, and a parenthesis and
a quote in a string. -/
def listNames : String := "let mut call: expr = -x - 1;\nblock(!call, \"a) \\\"\");"

/-- The same with parentheses, in one line, and with the other word for `!`. -/
def listNamesInLine : String :=
  "let mut call : expr = ((-x) - 1) ; block(not call, \"a) \\\"\") ;"

theorem text_eq_iff_listNames :
    let p := parse (tokenize listNames).1
    let q := parse (tokenize listNamesInLine).1
    let text := "(let mut call: expr (- (- x) 1))\n(expr (call block (not call) \"a) \\\"\"))"
    (p.2 = [] ∧ q.2 = []) ∧ (Program.text p.1 = text ∧ Program.text q.1 = text) ∧
      Stmt.eraseAll p.1 = Stmt.eraseAll q.1 := by
  intro p q text
  have hclean : p.2 = [] ∧ q.2 = [] := by decide +kernel
  have htext : Program.text p.1 = text ∧ Program.text q.1 = text := by decide +kernel
  have hfloat : ∀ v ∈ Stmt.allLiterals p.1, v.isFloat = false := by decide +kernel
  have hfloat' : ∀ v ∈ Stmt.allLiterals q.1, v.isFloat = false := by decide +kernel
  have hiff := Program.text_eq_iff listNames listNamesInLine hclean.1 hclean.2 hfloat hfloat'
  exact ⟨hclean, htext, hiff.1 (htext.1.trans htext.2.symm)⟩

end Scriptlet
