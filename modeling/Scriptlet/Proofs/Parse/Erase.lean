import Scriptlet.Proofs.Parse.StatementProgress
import Scriptlet.Proofs.Tree.Erase

/-! Spans and positions of tokens do not steer reading: they only turn up in trees and errors. -/
namespace Scriptlet

open List (Forall₂)

/-- The token without its place. -/
def Token.erase (t : Token) : Token := { t with span := default, position := default }

@[simp] theorem Token.kind_erase (t : Token) : t.erase.kind = t.kind := rfl

@[simp] theorem Token.lexeme_erase (t : Token) : t.erase.lexeme = t.lexeme := rfl

@[simp] theorem Token.position_erase (t : Token) : t.erase.position = default := rfl

@[simp] theorem Token.leaf?_erase (t : Token) : t.erase.leaf? = t.leaf? := rfl

@[simp] theorem Token.stringValue_erase (t : Token) : t.erase.stringValue = t.stringValue := rfl

theorem takeWhile_erase (ts : List Token) : (ts.map Token.erase).takeWhile (·.kind ≠ .eof) =
    (ts.takeWhile (·.kind ≠ .eof)).map Token.erase := by
  rw [List.takeWhile_map]
  rfl

/-- The error without its place. -/
def ParseError.erase (e : ParseError) : ParseError :=
  { e with span := default, position := default }

def Halt.erase : Halt → Halt
  | .fault e => .fault e.erase
  | .exhausted => .exhausted

variable {α γ : Type}

/-- The reply with its result changed and all places forgotten. -/
def Reply.erase (f : α → γ) (r : Reply α) : Reply γ :=
  ⟨(r.result.map f).mapError Halt.erase, r.errors.map ParseError.erase, r.rest.map Token.erase⟩

namespace Parse

/-- Reading tokens without their places gives the reply without places; `f` takes results to
results. -/
def Erases (f : α → γ) (x : Parse α) (y : Parse γ) : Prop :=
  ∀ stop ts, y stop.erase (ts.map Token.erase) = (x stop ts).erase f

theorem forall₂_eq_iff_map {f : α → γ} {as : List α} {cs : List γ} :
    Forall₂ (fun a c => f a = c) as cs ↔ as.map f = cs := by
  have h := List.forall₂_map_left_iff (R := Eq) (f := f) (l := as) (u := cs)
  rw [List.forall₂_eq_eq_eq] at h
  exact h.symm

theorem map_eq_of_rel {f : α → γ} {a? : Option α} {c? : Option γ}
    (h : Option.Rel (fun a c => f a = c) a? c?) : a?.map f = c? := by
  cases h with
  | none => rfl
  | some h => exact congrArg some h

/-- The same tokens with their places and without them. -/
def erasure (stop : Token) : Parallel where
  stop := stop
  stop' := stop.erase
  token t t' := t.erase = t'
  pos _ p' := p' = default
  error e e' := e.erase = e'
  expr e e' := e.erase = e'
  stmt s s' := s.erase = s'
  stop_lexeme := rfl
  token_kind h := by rw [← h, Token.kind_erase]
  token_lexeme h := by rw [← h, Token.lexeme_erase]
  token_leaf? h := by rw [← h, Token.leaf?_erase]
  token_pos h := by rw [← h, Token.position_erase]
  error_token fault h := by
    rw [← h]
    rfl
  error_stop fault := rfl
  expr_pos h := by rw [← h, Expr.pos_erase]
  expr_name? h := by rw [← h, Expr.name?_erase]
  expr_literal h _ := by rw [Expr.erase, ← h, Token.position_erase]
  expr_name h _ := by rw [Expr.erase, ← h, Token.position_erase, Token.lexeme_erase]
  expr_binary hp ha hb := by rw [Expr.erase, hp, ha, hb]
  expr_assign hp _ ha hb := by rw [Expr.erase, hp, ha, hb]
  expr_unary hp h := by rw [Expr.erase, hp, h]
  expr_call hp h hs := by rw [Expr.erase, Expr.eraseAll_eq_map, forall₂_eq_iff_map.1 hs, hp, h]
  expr_index hp ha hb := by rw [Expr.erase, hp, ha, hb]
  expr_member hp h := by rw [Expr.erase, hp, h]
  expr_context ht _ hp h := by rw [Expr.erase, ← ht, Token.stringValue_erase, hp, h]
  stmt_expr hp h := by rw [Stmt.erase, hp, h]
  stmt_declare hp h := by rw [Stmt.erase, Declaration.erase, map_eq_of_rel h, hp]
  stmt_block hp hs := by rw [Stmt.erase, Stmt.eraseAll_eq_map, forall₂_eq_iff_map.1 hs, hp]
  stmt_function hp hs := by rw [Stmt.erase, Stmt.eraseAll_eq_map, forall₂_eq_iff_map.1 hs, hp]
  stmt_ret hp h := by rw [Stmt.erase, map_eq_of_rel h, hp]
  stmt_ifThen hp hc hs := by rw [Stmt.erase, hp, hc, hs]
  stmt_ifElse hp hc hs hf := by rw [Stmt.erase, hp, hc, hs, hf]
  stmt_whileLoop hp hc hs := by rw [Stmt.erase, hp, hc, hs]
  stmt_forRange hp ha hb hs := by rw [Stmt.erase, hp, ha, hb, hs]

private theorem erase_eq_of_replies {stop : Token} {f : α → γ} {R : α → γ → Prop} {r : Reply α}
    {r' : Reply γ} (hf : ∀ a c, R a c → f a = c) (h : (erasure stop).Replies R r r') :
    r.erase f = r' := by
  obtain ⟨result, errors, rest⟩ := r
  obtain ⟨result', errors', rest'⟩ := r'
  obtain ⟨hresult, herrors, hrest⟩ := h
  have herrors : errors.map ParseError.erase = errors' := forall₂_eq_iff_map.1 herrors
  have hrest : rest.map Token.erase = rest' := forall₂_eq_iff_map.1 hrest
  have hresult : (result.map f).mapError Halt.erase = result' := by
    cases hresult with
    | ok h => exact congrArg Except.ok (hf _ _ h)
    | fault h => exact congrArg (Except.error ∘ Halt.fault) h
  rw [Reply.erase, hresult, herrors, hrest]

theorem erases_program : Erases (List.map Stmt.erase) program program := by
  intro stop ts
  have hts : Forall₂ (erasure stop).token ts (ts.map Token.erase) := forall₂_eq_iff_map.2 rfl
  have hreplies := ((erasure stop).links_program hts).resolve_left
    (finishes_program stop ts (Nat.lt_succ_self ts.length))
  exact (erase_eq_of_replies (fun _ _ h => forall₂_eq_iff_map.1 h) hreplies).symm

end Parse

end Scriptlet
