import Scriptlet.Proofs.Eval.Blame
import Scriptlet.Proofs.Parse.Origin

/-! What can be read assigns to names only, so that running it never fails for its targets. -/
namespace Scriptlet

mutual

/-- Evaluation comes to nodes of the expression only. -/
theorem Expr.mem_parts_of_evaluated {x : Expr} :
    ∀ {e : Expr}, Node.expr x ∈ e.evaluated → x ∈ e.parts
  | .literal .., h | .name .., h | .index .., h | .member .., h | .context .., h => by
    have hx := List.mem_singleton.1 h
    cases hx
    exact List.mem_cons_self
  | .binary _ _ l r, h => by
    rw [Expr.evaluated, List.mem_cons, List.mem_append] at h
    rw [Expr.parts, List.mem_cons, List.mem_append]
    rcases h with hx | hl | hr
    · exact .inl (Node.expr.inj hx)
    · exact .inr (.inl (Expr.mem_parts_of_evaluated hl))
    · exact .inr (.inr (Expr.mem_parts_of_evaluated hr))
  | .assign _ t e, h => by
    rw [Expr.evaluated, List.mem_cons] at h
    rw [Expr.parts, List.mem_cons, List.mem_append]
    rcases h with hx | he
    · exact .inl (Node.expr.inj hx)
    · split at he
      · exact .inr (.inr (Expr.mem_parts_of_evaluated he))
      · cases he
  | .unary _ _ e, h => by
    rw [Expr.evaluated, List.mem_cons] at h
    rw [Expr.parts, List.mem_cons]
    rcases h with hx | he
    · exact .inl (Node.expr.inj hx)
    · exact .inr (Expr.mem_parts_of_evaluated he)
  | .call _ f args, h => by
    rw [Expr.evaluated, List.mem_cons] at h
    rw [Expr.parts, List.mem_cons, List.mem_append]
    rcases h with hx | hargs
    · exact .inl (Node.expr.inj hx)
    · split at hargs
      · exact .inr (.inr (Expr.mem_allParts_of_evaluated hargs))
      · cases hargs

theorem Expr.mem_allParts_of_evaluated {x : Expr} :
    ∀ {es : List Expr}, Node.expr x ∈ Expr.allEvaluated es → x ∈ Expr.allParts es
  | [], h => nomatch h
  | e :: es, h => by
    rw [Expr.allEvaluated, List.mem_append] at h
    rw [Expr.allParts, List.mem_append]
    rcases h with he | hes
    · exact .inl (Expr.mem_parts_of_evaluated he)
    · exact .inr (Expr.mem_allParts_of_evaluated hes)

end

theorem Node.mem_of_mem_stmt_cons {x : Expr} {s : Stmt} {ns : List Node}
    (h : Node.expr x ∈ Node.stmt s :: ns) : Node.expr x ∈ ns :=
  List.mem_of_ne_of_mem Node.noConfusion h

mutual

theorem Stmt.mem_parts_of_evaluated {x : Expr} :
    ∀ {s : Stmt}, Node.expr x ∈ s.evaluated → x ∈ s.parts
  | .expr _ e, h => Expr.mem_parts_of_evaluated (Node.mem_of_mem_stmt_cons h)
  | .declare _ d, h => by
    have hd := Node.mem_of_mem_stmt_cons h
    obtain ⟨e, he, hx⟩ := List.mem_flatMap.1 hd
    exact List.mem_flatMap.2 ⟨e, he, Expr.mem_parts_of_evaluated hx⟩
  | .block _ body, h => Stmt.mem_allParts_of_evaluated (Node.mem_of_mem_stmt_cons h)
  | .ifThen _ c s, h | .whileLoop _ c s, h => by
    have hin := Node.mem_of_mem_stmt_cons h
    rw [Stmt.parts, List.mem_append]
    rcases List.mem_append.1 hin with hc | hs
    · exact .inl (Expr.mem_parts_of_evaluated hc)
    · exact .inr (Stmt.mem_parts_of_evaluated hs)
  | .ifElse _ c s f, h => by
    have hin := Node.mem_of_mem_stmt_cons h
    rw [List.mem_append, List.mem_append] at hin
    rw [Stmt.parts, List.mem_append, List.mem_append]
    rcases hin with hc | hs | hf
    · exact .inl (Expr.mem_parts_of_evaluated hc)
    · exact .inr (.inl (Stmt.mem_parts_of_evaluated hs))
    · exact .inr (.inr (Stmt.mem_parts_of_evaluated hf))
  | .function .., h | .ret .., h | .forRange .., h => by
    have hx := List.mem_singleton.1 h
    cases hx

theorem Stmt.mem_allParts_of_evaluated {x : Expr} :
    ∀ {ss : List Stmt}, Node.expr x ∈ Stmt.allEvaluated ss → x ∈ Stmt.allParts ss
  | [], h => nomatch h
  | s :: ss, h => by
    rw [Stmt.allEvaluated, List.mem_append] at h
    rw [Stmt.allParts, List.mem_append]
    rcases h with hs | hss
    · exact .inl (Stmt.mem_parts_of_evaluated hs)
    · exact .inr (Stmt.mem_allParts_of_evaluated hss)

end

/-- A run blames a target only if some assignment in the program has none that is a name. -/
theorem Program.run_target {p : Program} {limit : Nat} {m m' : Machine} {e : RuntimeError}
    (h : p.run limit m = some (.error e, m')) (hfault : e.fault = .invalidAssignmentTarget) :
    ∃ q target value, Expr.assign q target value ∈ Stmt.allParts p ∧ ∀ r x, target ≠ .name r x := by
  obtain ⟨n, hn, _, hexplains⟩ := Stmt.raises_execAll limit p m e m' h
  rw [hfault] at hexplains
  cases hexplains with
  | target ht => exact ⟨_, _, _, Stmt.mem_allParts_of_evaluated hn, ht⟩

/-- Whatever the tokens, with or without errors, every assignment in the program that is read has a
name as its target. So no run of it, from any machine, fails for a target. -/
theorem parse_targets (tokens : List Token) :
    (∀ p target value, Expr.assign p target value ∈ Stmt.allParts (parse tokens).1 →
      ∃ q x, target = .name q x) ∧
    ∀ limit m e m', (parse tokens).1.run limit m = some (.error e, m') →
      e.fault ≠ .invalidAssignmentTarget := by
  have hnames : ∀ p target value, Expr.assign p target value ∈ Stmt.allParts (parse tokens).1 →
      ∃ q x, target = .name q x := by
    intro p target value hmem
    have hsome : target.name?.isSome := stems_of_parse tokens _ hmem
    obtain ⟨x, hx⟩ := Option.isSome_iff_exists.1 hsome
    obtain ⟨q, rfl⟩ := Expr.name?_eq_some hx
    exact ⟨q, x, rfl⟩
  refine ⟨hnames, fun limit m e m' hrun hfault => ?_⟩
  obtain ⟨q, target, value, hmem, ht⟩ := Program.run_target hrun hfault
  obtain ⟨r, x, rfl⟩ := hnames q target value hmem
  exact ht r x rfl

/-- `(a) = b = 1; 2 = c;` -/
def assignmentTokens : List Token :=
  [⟨.symbol .leftParen, "(", none, ⟨0, 1⟩, ⟨1, 1⟩⟩, ⟨.identifier, "a", none, ⟨1, 1⟩, ⟨1, 2⟩⟩,
    ⟨.symbol .rightParen, ")", none, ⟨2, 1⟩, ⟨1, 3⟩⟩,
    ⟨.symbol .assign, "=", none, ⟨4, 1⟩, ⟨1, 5⟩⟩, ⟨.identifier, "b", none, ⟨6, 1⟩, ⟨1, 7⟩⟩,
    ⟨.symbol .assign, "=", none, ⟨8, 1⟩, ⟨1, 9⟩⟩,
    ⟨.integer, "1", some (.integer 1), ⟨10, 1⟩, ⟨1, 11⟩⟩,
    ⟨.symbol .semicolon, ";", none, ⟨11, 1⟩, ⟨1, 12⟩⟩,
    ⟨.integer, "2", some (.integer 2), ⟨13, 1⟩, ⟨1, 14⟩⟩,
    ⟨.symbol .assign, "=", none, ⟨15, 1⟩, ⟨1, 16⟩⟩, ⟨.identifier, "c", none, ⟨17, 1⟩, ⟨1, 18⟩⟩,
    ⟨.symbol .semicolon, ";", none, ⟨18, 1⟩, ⟨1, 19⟩⟩, ⟨.eof, "", none, ⟨19, 0⟩, ⟨1, 20⟩⟩]

/-- A target in parentheses is a name, a literal is none and loses its assignment. The run fails,
but for a variable. -/
theorem parse_targets_assignmentTokens :
    let outer := Expr.assign ⟨1, 5⟩ (.name ⟨1, 2⟩ "a")
      (.assign ⟨1, 9⟩ (.name ⟨1, 7⟩ "b") (.literal ⟨1, 11⟩ (.integer 1)))
    let p : Program := [.expr ⟨1, 1⟩ outer, .expr ⟨1, 14⟩ (.literal ⟨1, 14⟩ (.integer 2))]
    let e : RuntimeError := ⟨.undefinedVariable "b", ⟨1, 9⟩⟩
    parse assignmentTokens = (p, [⟨.invalidAssignmentTarget, ⟨15, 1⟩, ⟨1, 16⟩, "="⟩]) ∧
      outer ∈ Stmt.allParts p ∧ (∃ q x, Expr.name ⟨1, 2⟩ "a" = .name q x) ∧
      p.run 1 (.ofLines []) = some (.error e, .ofLines []) ∧
      e.fault ≠ .invalidAssignmentTarget := by
  intro outer p e
  have hparse : parse assignmentTokens =
      (p, [⟨.invalidAssignmentTarget, ⟨15, 1⟩, ⟨1, 16⟩, "="⟩]) := rfl
  have houter : outer ∈ Stmt.allParts p := List.mem_cons_self
  have hrun : p.run 1 (.ofLines []) = some (.error e, .ofLines []) := rfl
  obtain ⟨hnames, hruns⟩ := parse_targets assignmentTokens
  rw [hparse] at hnames hruns
  exact ⟨hparse, houter, hnames _ _ _ houter, hrun, hruns 1 _ e _ hrun⟩

end Scriptlet
