import Scriptlet.Proofs.Parse.StatementSound
import Scriptlet.Proofs.Token.LongestMatch

/-! The names in a program that is read without an error: they are words, and no keywords. -/
namespace Scriptlet

mutual

/-- The identifiers of an expression, fields included. -/
@[simp] def Expr.names : Expr → List String
  | .literal .. => []
  | .name _ id => [id]
  | .binary _ _ a b | .assign _ a b | .index _ a b => a.names ++ b.names
  | .unary _ _ e | .context _ e _ => e.names
  | .call _ f es => f.names ++ Expr.allNames es
  | .member _ e field => field :: e.names

@[simp] def Expr.allNames : List Expr → List String
  | [] => []
  | e :: es => e.names ++ Expr.allNames es

end

@[simp] def Declaration.names (d : Declaration) : List String :=
  d.name :: d.typeName.toList ++ (d.initial.map Expr.names).getD []

@[simp] def Parameter.names (p : Parameter) : List String := [p.name, p.typeName]

@[simp] def Signature.names (f : Signature) : List String :=
  f.name :: f.parameters.flatMap Parameter.names ++ f.returnType.toList

mutual

/-- The identifiers of a statement, those of types included. -/
@[simp] def Stmt.names : Stmt → List String
  | .expr _ e => e.names
  | .declare _ d => d.names
  | .block _ ss => Stmt.allNames ss
  | .function _ f ss => f.names ++ Stmt.allNames ss
  | .ret _ v => (v.map Expr.names).getD []
  | .ifThen _ c s | .whileLoop _ c s => c.names ++ s.names
  | .ifElse _ c s f => c.names ++ s.names ++ f.names
  | .forRange _ x a b s => x :: a.names ++ b.names ++ s.names

@[simp] def Stmt.allNames : List Stmt → List String
  | [] => []
  | s :: ss => s.names ++ Stmt.allNames ss

end

@[simp] def Phrase.names : Phrase → List String
  | .expr _ e => e.names
  | .exprs es | .arguments es => Expr.allNames es
  | .parameter p => p.names
  | .parameterList ps | .parameters ps => ps.flatMap Parameter.names
  | .statement s | .declaration s => s.names
  | .body ss => Stmt.allNames ss

section Derivations

variable {P : String → Prop} {ts : List Token}

theorem TypeMark.names {mark : Symbol} {x? : Option String} (h : TypeMark mark ts x?)
    (hP : ∀ t ∈ ts, t.kind = .identifier → P t.lexeme) : ∀ x ∈ x?.toList, P x := by
  cases h <;> simp_all

/-- The names of a phrase are identifiers among its tokens. -/
theorem Derives.names {phrase : Phrase} (h : Derives phrase ts)
    (hP : ∀ t ∈ ts, t.kind = .identifier → P t.lexeme) : ∀ x ∈ phrase.names, P x := by
  induction h with
  | declare _ _ _ ht _ =>
    have htype := ht.names fun t hmem => hP t (by simp [hmem])
    simp_all [or_imp]
  | declareInitial _ _ _ ht _ _ _ _ =>
    have htype := ht.names fun t hmem => hP t (by simp [hmem])
    simp_all [or_imp]
  | function _ _ _ _ _ hr _ _ _ _ _ =>
    have hresult := hr.names fun t hmem => hP t (by simp [hmem])
    simp_all [or_imp]
  | _ => simp_all [or_imp]

end Derivations

/-- A word that is neither a truth value nor a keyword. -/
structure IsName (x : String) : Prop where
  word : ∃ c cs, x.toList = c :: cs ∧ IsWordStart c ∧ ∀ d ∈ cs, IsWordChar d
  ne_true : x ≠ "true"
  ne_false : x ≠ "false"
  ne_keyword (k : Keyword) : x ≠ k.word

theorem isName_of_lexical {rest : List Char} {x : String} (h : Lexical rest x.toList .identifier) :
    IsName x := by
  generalize hw : x.toList = w at h
  generalize hkind : TokenKind.identifier = kind at h
  cases h with
  | word hc hcs hk =>
    subst hkind
    cases hk with
    | identifier hb hk =>
      refine ⟨⟨_, _, hw, hc, hcs⟩, ?_, ?_, fun k hx => hk k (by rw [← hw, hx])⟩
      · exact fun hx => hb.1 (by rw [← hw, hx])
      · exact fun hx => hb.2 (by rw [← hw, hx])
  | _ => cases hkind

namespace Lexer

theorem isName_next (l : Lexer) (h : l.next.1.kind = .identifier) : IsName l.next.1.lexeme := by
  have hne : l.rest.dropWhile Scan.isBlank ≠ [] := by
    intro hnil
    simp [next, hnil, Scan.lexeme, Reading.plain] at h
  rcases Scan.scanned_lexeme hne with hlex | ⟨hlost, _⟩
  · have hkind : (Scan.lexeme (l.rest.dropWhile Scan.isBlank)).reading.kind = .identifier := h
    rw [hkind, ← String.toList_ofList (l := (Scan.lexeme _).text)] at hlex
    exact isName_of_lexical hlex
  · have hkind := hlost.kind_eq.symm.trans h
    cases hkind

theorem isName_tokenize (l : Lexer) :
    ∀ t ∈ l.tokenize.1, t.kind = .identifier → IsName t.lexeme := by
  fun_induction Lexer.tokenize l with
  | case1 l => simpa using l.isName_next
  | case2 l => simpa [endToken] using l.isName_next
  | case3 l _ _ r ih =>
    intro t ht
    split at ht
    · exact ih t ht
    · rcases List.mem_cons.1 ht with rfl | ht
      · exact l.isName_next
      · exact ih t ht

end Lexer

/-- The names of a program that is read from a text without an error are no keywords. -/
theorem isName_of_parse {source : String} (h : (parse (tokenize source).1).2 = []) :
    ∀ x ∈ Stmt.allNames (parse (tokenize source).1).1, IsName x := by
  obtain ⟨rest, hr⟩ := reads_of_parse h
  obtain ⟨hbody, _⟩ := Parse.program_derives (kind_ne_eof_input _) hr
  exact hbody.names fun t ht =>
    (Lexer.ofString source).isName_tokenize t ((List.takeWhile_sublist _).mem ht)

end Scriptlet
