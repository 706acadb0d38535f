import Scriptlet.Proofs.Parse.Input

/-! Where trees and errors come from: from the tokens before the end of input. What stands for that
end is seen in the places of errors only, with or without errors in the program. -/
namespace Scriptlet

open List (Forall₂)

mutual

/-- The expression and all that stand in it. -/
def Expr.parts : Expr → List Expr
  | e@(.binary _ _ a b) | e@(.assign _ a b) | e@(.index _ a b) => e :: (a.parts ++ b.parts)
  | e@(.unary _ _ x) | e@(.member _ x _) | e@(.context _ x _) => e :: x.parts
  | e@(.call _ f args) => e :: (f.parts ++ Expr.allParts args)
  | e@(.literal ..) | e@(.name ..) => [e]

def Expr.allParts : List Expr → List Expr
  | [] => []
  | e :: es => e.parts ++ Expr.allParts es

end

mutual

/-- All expressions that stand in the statement. -/
def Stmt.parts : Stmt → List Expr
  | .expr _ e => e.parts
  | .declare _ d => d.initial.toList.flatMap Expr.parts
  | .block _ body | .function _ _ body => Stmt.allParts body
  | .ret _ v => v.toList.flatMap Expr.parts
  | .ifThen _ c s | .whileLoop _ c s => c.parts ++ s.parts
  | .ifElse _ c s f => c.parts ++ (s.parts ++ f.parts)
  | .forRange _ _ a b s => a.parts ++ (b.parts ++ s.parts)

def Stmt.allParts : List Stmt → List Expr
  | [] => []
  | s :: ss => s.parts ++ Stmt.allParts ss

end

theorem Expr.mem_allParts {x : Expr} {es : List Expr} :
    x ∈ Expr.allParts es ↔ ∃ e ∈ es, x ∈ e.parts := by
  induction es with
  | nil => simp [Expr.allParts]
  | cons e es ih => simp [Expr.allParts, ih]

theorem Stmt.mem_allParts {x : Expr} {ss : List Stmt} :
    x ∈ Stmt.allParts ss ↔ ∃ s ∈ ss, x ∈ s.parts := by
  induction ss with
  | nil => simp [Stmt.allParts]
  | cons s ss ih => simp [Stmt.allParts, ih]

/-- The node is one that can be read from the tokens: a leaf is one of them, what is assigned to is
a name, and a context is the text of a string. -/
def Expr.Stems (ts : List Token) : Expr → Prop
  | .literal p v => ∃ t ∈ ts, t.position = p ∧ t.leaf? = some v
  | .name p x => ∃ t ∈ ts, t.position = p ∧ t.kind = .identifier ∧ t.lexeme = x
  | .assign _ target _ => target.name?.isSome
  | .context _ _ s => ∃ t ∈ ts, t.kind = .string ∧ t.stringValue = s
  | _ => True

namespace ParseError

/-- The error has the place and the text of the token. -/
def IsAt (e : ParseError) (t : Token) : Prop := e = .atToken e.fault t

/-- Two errors of the same kind with the same text. They stand at the same one of the tokens, or
each stands at an end of input. -/
structure Agrees (ts : List Token) (stop stop' : Token) (a b : ParseError) : Prop where
  fault : a.fault = b.fault
  lexeme : a.lexeme = b.lexeme
  place : (∃ t ∈ ts, a.IsAt t ∧ b.IsAt t) ∨ a.IsAt stop ∧ b.IsAt stop'

end ParseError

namespace Parse

variable {ts : List Token} {stop stop' : Token}

theorem eq_of_rel {α : Type} {Q : α → Prop} {a? b? : Option α}
    (h : Option.Rel (fun a b => Q a ∧ a = b) a? b?) : (∀ a ∈ a?.toList, Q a) ∧ a? = b? := by
  cases h with
  | none => simp
  | some h =>
    obtain ⟨hQ, rfl⟩ := h
    exact ⟨List.forall_mem_singleton.2 hQ, rfl⟩

theorem eq_of_forall₂ {α : Type} {Q : α → Prop} {as bs : List α}
    (h : Forall₂ (fun a b => Q a ∧ a = b) as bs) : (∀ a ∈ as, Q a) ∧ as = bs := by
  rw [List.forall₂_and_left, List.forall₂_eq_eq_eq] at h
  exact h

/-- Reading the same tokens with two ends of input that have the same text: the trees are equal, and
all their nodes stem from the tokens. -/
def origin (ts : List Token) (stop stop' : Token) (h : stop'.lexeme = stop.lexeme) : Parallel where
  stop := stop
  stop' := stop'
  token t t' := t ∈ ts ∧ t = t'
  pos := Eq
  error := ParseError.Agrees ts stop stop'
  expr e e' := (∀ x ∈ e.parts, x.Stems ts) ∧ e = e'
  stmt s s' := (∀ x ∈ s.parts, x.Stems ts) ∧ s = s'
  stop_lexeme := h
  token_kind h := by rw [h.2]
  token_lexeme h := by rw [h.2]
  token_leaf? h := by rw [h.2]
  token_pos h := by rw [h.2]
  error_token fault h := by
    obtain ⟨ht, rfl⟩ := h
    exact ⟨rfl, rfl, .inl ⟨_, ht, rfl, rfl⟩⟩
  error_stop fault := ⟨rfl, h.symm, .inr ⟨rfl, rfl⟩⟩
  expr_pos h := by rw [h.2]
  expr_name? h := by rw [h.2]
  expr_literal h hv := by
    obtain ⟨ht, rfl⟩ := h
    exact ⟨List.forall_mem_singleton.2 ⟨_, ht, rfl, hv⟩, rfl⟩
  expr_name h hk := by
    obtain ⟨ht, rfl⟩ := h
    exact ⟨List.forall_mem_singleton.2 ⟨_, ht, rfl, hk, rfl⟩, rfl⟩
  expr_binary hp ha hb := by
    refine ⟨?_, by rw [hp, ha.2, hb.2]⟩
    rw [Expr.parts, List.forall_mem_cons, List.forall_mem_append]
    exact ⟨trivial, ha.1, hb.1⟩
  expr_assign hp hn ha hb := by
    refine ⟨?_, by rw [hp, ha.2, hb.2]⟩
    rw [Expr.parts, List.forall_mem_cons, List.forall_mem_append]
    exact ⟨hn, ha.1, hb.1⟩
  expr_unary hp h := by
    refine ⟨?_, by rw [hp, h.2]⟩
    rw [Expr.parts, List.forall_mem_cons]
    exact ⟨trivial, h.1⟩
  expr_call hp h hs := by
    obtain ⟨hargs, rfl⟩ := eq_of_forall₂ hs
    refine ⟨?_, by rw [hp, h.2]⟩
    rw [Expr.parts, List.forall_mem_cons, List.forall_mem_append]
    refine ⟨trivial, h.1, fun x hx => ?_⟩
    obtain ⟨e, he, hx⟩ := Expr.mem_allParts.1 hx
    exact hargs e he x hx
  expr_index hp ha hb := by
    refine ⟨?_, by rw [hp, ha.2, hb.2]⟩
    rw [Expr.parts, List.forall_mem_cons, List.forall_mem_append]
    exact ⟨trivial, ha.1, hb.1⟩
  expr_member hp h := by
    refine ⟨?_, by rw [hp, h.2]⟩
    rw [Expr.parts, List.forall_mem_cons]
    exact ⟨trivial, h.1⟩
  expr_context ht hk hp h := by
    refine ⟨?_, by rw [ht.2, hp, h.2]⟩
    rw [Expr.parts, List.forall_mem_cons]
    exact ⟨⟨_, ht.1, hk, rfl⟩, h.1⟩
  stmt_expr hp h := ⟨h.1, by rw [hp, h.2]⟩
  stmt_declare hp h := by
    obtain ⟨he, rfl⟩ := eq_of_rel h
    refine ⟨fun x hx => ?_, by rw [hp]⟩
    obtain ⟨e, hmem, hx⟩ := List.mem_flatMap.1 hx
    exact he e hmem x hx
  stmt_block hp hs := by
    obtain ⟨hss, rfl⟩ := eq_of_forall₂ hs
    refine ⟨fun x hx => ?_, by rw [hp]⟩
    obtain ⟨s, hs, hx⟩ := Stmt.mem_allParts.1 hx
    exact hss s hs x hx
  stmt_function hp hs := by
    obtain ⟨hss, rfl⟩ := eq_of_forall₂ hs
    refine ⟨fun x hx => ?_, by rw [hp]⟩
    obtain ⟨s, hs, hx⟩ := Stmt.mem_allParts.1 hx
    exact hss s hs x hx
  stmt_ret hp h := by
    obtain ⟨he, rfl⟩ := eq_of_rel h
    refine ⟨fun x hx => ?_, by rw [hp]⟩
    obtain ⟨e, hmem, hx⟩ := List.mem_flatMap.1 hx
    exact he e hmem x hx
  stmt_ifThen hp hc hs := by
    refine ⟨?_, by rw [hp, hc.2, hs.2]⟩
    rw [Stmt.parts, List.forall_mem_append]
    exact ⟨hc.1, hs.1⟩
  stmt_ifElse hp hc hs hf := by
    refine ⟨?_, by rw [hp, hc.2, hs.2, hf.2]⟩
    rw [Stmt.parts, List.forall_mem_append, List.forall_mem_append]
    exact ⟨hc.1, hs.1, hf.1⟩
  stmt_whileLoop hp hc hs := by
    refine ⟨?_, by rw [hp, hc.2, hs.2]⟩
    rw [Stmt.parts, List.forall_mem_append]
    exact ⟨hc.1, hs.1⟩
  stmt_forRange hp ha hb hs := by
    refine ⟨?_, by rw [hp, ha.2, hb.2, hs.2]⟩
    rw [Stmt.parts, List.forall_mem_append, List.forall_mem_append]
    exact ⟨ha.1, hb.1, hs.1⟩

/-- A program is read from its tokens alone, and the end of input shows up in the places of errors
only. -/
theorem program_origin (ts : List Token) {stop stop' : Token} (h : stop'.lexeme = stop.lexeme) :
    ∃ p, (program stop ts).result = .ok p ∧ (program stop' ts).result = .ok p ∧
      (∀ x ∈ Stmt.allParts p, x.Stems ts) ∧
      Forall₂ (ParseError.Agrees ts stop stop') (program stop ts).errors
        (program stop' ts).errors := by
  have htokens : Forall₂ (origin ts stop stop' h).token ts ts :=
    List.forall₂_same.2 fun t ht => ⟨ht, rfl⟩
  obtain ⟨⟨p, hp⟩, _⟩ := program_total stop ts
  obtain ⟨hresult, herrors, _⟩ := ((origin ts stop stop' h).links_program htokens).resolve_left
    (finishes_program stop ts (Nat.lt_succ_self ts.length))
  change (origin ts stop stop' h).Results _ (program stop ts).result (program stop' ts).result
    at hresult
  rw [hp] at hresult
  generalize hp' : (program stop' ts).result = result' at hresult
  cases hresult with
  | ok hstmts =>
    obtain ⟨hparts, rfl⟩ := eq_of_forall₂ hstmts
    refine ⟨p, hp, rfl, fun x hx => ?_, herrors⟩
    obtain ⟨s, hs, hx⟩ := Stmt.mem_allParts.1 hx
    exact hparts s hs x hx

end Parse

/-- With or without errors, the nodes of a program stem from the tokens before the end of input. -/
theorem stems_of_parse (tokens : List Token) :
    ∀ x ∈ Stmt.allParts (parse tokens).1, x.Stems (tokens.takeWhile (·.kind ≠ .eof)) := by
  have hlexeme : (input tokens).1.lexeme = (input tokens).1.lexeme := rfl
  obtain ⟨p, hp, _, hparts, _⟩ := Parse.program_origin (input tokens).2 hlexeme
  rw [parse_of_result rfl hp]
  exact hparts

/-- The end of input is a barrier, and it need not be there. Nothing behind it is read; without one,
the program is the same, and every error has the same kind and text and, if it does not stand at the
end of input, the same place. -/
theorem parse_endOfInput (ts rest : List Token) (e : Token) (hts : ∀ t ∈ ts, t.kind ≠ .eof)
    (he : e.kind = .eof) (hempty : e.lexeme = "") :
    parse (ts ++ [e] ++ rest) = parse (ts ++ [e]) ∧
      (parse ts).1 = (parse (ts ++ [e])).1 ∧
      Forall₂ (ParseError.Agrees ts (endOfTokens ts) e) (parse ts).2 (parse (ts ++ [e])).2 := by
  have hstop : (endOfTokens ts).lexeme = "" := by
    unfold endOfTokens
    split <;> rfl
  have hlexeme : e.lexeme = (endOfTokens ts).lexeme := hempty.trans hstop.symm
  obtain ⟨p, hp, hp', _, herrors⟩ := Parse.program_origin ts hlexeme
  have hbarrier : parse (ts ++ [e] ++ rest) = (p, (Parse.program e ts).errors) := by
    rw [List.append_assoc]
    exact parse_of_result (input_append hts he rest) hp'
  have hended : parse (ts ++ [e]) = (p, (Parse.program e ts).errors) :=
    parse_of_result (input_append hts he []) hp'
  have hopen : parse ts = (p, (Parse.program (endOfTokens ts) ts).errors) :=
    parse_of_result (input_of_forall hts) hp
  rw [hbarrier, hended, hopen]
  exact ⟨rfl, rfl, herrors⟩

/-- `a b(c`, without an end of input. -/
def openCall : List Token :=
  [⟨.identifier, "a", none, ⟨0, 1⟩, ⟨1, 1⟩⟩, ⟨.identifier, "b", none, ⟨2, 1⟩, ⟨1, 3⟩⟩,
    ⟨.symbol .leftParen, "(", none, ⟨3, 1⟩, ⟨1, 4⟩⟩, ⟨.identifier, "c", none, ⟨4, 1⟩, ⟨1, 5⟩⟩]

/-- The first error stands at `b`, the others stand at the end of input: on line one if it is made
up, and on line two if it is there. -/
theorem parse_endOfInput_openCall :
    let e : Token := ⟨.eof, "", none, ⟨6, 0⟩, ⟨2, 1⟩⟩
    let behind : List Token := [⟨.symbol .rightParen, ")", none, ⟨6, 1⟩, ⟨2, 1⟩⟩]
    ((∀ t ∈ openCall, t.kind ≠ .eof) ∧ e.kind = .eof ∧ e.lexeme = "") ∧
      (parse openCall).2.map ParseError.position = [⟨1, 3⟩, ⟨1, 5⟩, ⟨1, 5⟩] ∧
      (parse (openCall ++ [e])).2.map ParseError.position = [⟨1, 3⟩, ⟨2, 1⟩, ⟨2, 1⟩] ∧
      parse (openCall ++ [e] ++ behind) = parse (openCall ++ [e]) ∧
      (parse openCall).1 = (parse (openCall ++ [e])).1 ∧
      Forall₂ (ParseError.Agrees openCall (endOfTokens openCall) e) (parse openCall).2
        (parse (openCall ++ [e])).2 := by
  intro e behind
  have hts : ∀ t ∈ openCall, t.kind ≠ .eof := by decide
  have hopen : (parse openCall).2.map ParseError.position = [⟨1, 3⟩, ⟨1, 5⟩, ⟨1, 5⟩] := by
    decide +kernel
  have hended : (parse (openCall ++ [e])).2.map ParseError.position =
      [⟨1, 3⟩, ⟨2, 1⟩, ⟨2, 1⟩] := by
    decide +kernel
  exact ⟨⟨hts, rfl, rfl⟩, hopen, hended, parse_endOfInput openCall behind e hts rfl rfl⟩

end Scriptlet
