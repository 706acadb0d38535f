import Scriptlet.Parse.Statement

/-! All readers of the grammar are put together from a few basic steps. What holds of these steps
and is kept by sequences therefore holds of the whole grammar, whatever the bounds on its loops. -/
namespace Scriptlet

/-- The fault is that no token of the kind stands there. That a block is not closed is not counted
here: it is found at the end of input only. -/
def ParseFault.Wants : ParseFault → TokenKind → Prop
  | .unexpectedToken x, k => x.kind = k ∧ x ≠ .closeBlock
  | .expectedTypeName, k => k = .identifier
  | .expectedContextString, k => k = .string
  | .expectedExpression, _ | .invalidAssignmentTarget, _ => False

theorem Expectation.kind_ne_eof (x : Expectation) : x.kind ≠ .eof := by cases x <;> decide

namespace ParseFault.Wants

variable {fault : ParseFault} {k : TokenKind}

theorem kind_ne_eof (h : fault.Wants k) : k ≠ .eof := by
  cases fault with
  | unexpectedToken x => exact h.1 ▸ x.kind_ne_eof
  | expectedTypeName => exact h ▸ by decide
  | expectedContextString => exact h ▸ by decide
  | expectedExpression => exact h.elim
  | invalidAssignmentTarget => exact h.elim

theorem ne_target (h : fault.Wants k) : fault ≠ .invalidAssignmentTarget := by
  rintro rfl
  exact h

theorem ne_closeBlock (h : fault.Wants k) : fault ≠ .unexpectedToken .closeBlock := by
  rintro rfl
  exact h.2 rfl

end ParseFault.Wants

/-- Readers may look at what stands behind a token of the kind before they take it. -/
def TokenKind.looksOn (k : TokenKind) : Bool :=
  k = .symbol .dot || k = .keyword .ifKw || k = .identifier

namespace Parse

/-- One of the tokens ends every look ahead. -/
def Guarded (ts : List Token) : Prop := ∃ t ∈ ts, ¬ t.kind.looksOn

theorem guarded_singleton {t : Token} (h : ¬ t.kind.looksOn) : Guarded [t] :=
  ⟨t, List.mem_singleton_self t, h⟩

theorem Guarded.append_left {ts : List Token} (h : Guarded ts) (us : List Token) :
    Guarded (us ++ ts) := by
  obtain ⟨t, ht, hk⟩ := h
  exact ⟨t, List.mem_append_right us ht, hk⟩

theorem Guarded.ne_nil {ts : List Token} (h : Guarded ts) : ts ≠ [] := by
  rintro rfl
  obtain ⟨t, ht, _⟩ := h
  cases ht

/-- The test does not see what stands behind guarded tokens, and takes an end of input for the end
of the list. -/
structure Near (test : List Token → Bool) : Prop where
  append : ∀ ts tail, Guarded ts → test (ts ++ tail) = test ts
  ended : ∀ ts (e : Token), e.kind = .eof → test (ts ++ [e]) = test ts

theorem near_any_head? {p : Token → Bool} (hp : ∀ e : Token, e.kind = .eof → p e = false) :
    Near fun ts => ts.head?.any p where
  append ts tail h := by
    cases ts with
    | nil => exact absurd rfl h.ne_nil
    | cons t ts => rfl
  ended ts e he := by
    cases ts with
    | nil => exact hp e he
    | cons t ts => rfl

theorem near_ends (closes : TokenKind → Bool) : Near (ends closes) where
  append ts tail h := by
    cases ts with
    | nil => exact absurd rfl h.ne_nil
    | cons t ts => rfl
  ended ts e he := by
    cases ts with
    | nil => simp [ends, atEnd, he]
    | cons t ts => rfl

theorem near_memberDot : Near memberDot where
  append ts tail h := by
    rcases ts with _ | ⟨t, _ | ⟨t', ts⟩⟩
    · exact absurd rfl h.ne_nil
    · obtain ⟨c, hc, hk⟩ := h
      rw [List.mem_singleton.1 hc] at hk
      have ht : t.kind ≠ .symbol .dot := fun ht => hk (by rw [ht]; rfl)
      simp [memberDot, ht]
    · rfl
  ended ts e he := by
    rcases ts with _ | ⟨t, _ | ⟨t', ts⟩⟩
    · simp [memberDot, he]
    · simp [memberDot, he]
    · rfl

theorem near_contextAhead : Near contextAhead where
  append ts tail h := by
    -- Among less than three tokens the guard is the first or the second one, and settles the test.
    rcases ts with _ | ⟨t, _ | ⟨t', _ | ⟨t'', ts⟩⟩⟩
    · exact absurd rfl h.ne_nil
    · obtain ⟨c, hc, hk⟩ := h
      rw [List.mem_singleton.1 hc] at hk
      have ht : t.kind ≠ .keyword .ifKw := fun ht => hk (by rw [ht]; rfl)
      rcases tail with _ | ⟨u, _ | ⟨u', tail⟩⟩ <;> simp [contextAhead, ht]
    · have ht : t.kind ≠ .keyword .ifKw ∨ t'.kind ≠ .identifier := by
        obtain ⟨c, hc, hk⟩ := h
        simp only [List.mem_cons, List.not_mem_nil, or_false] at hc
        obtain rfl | rfl := hc
        · exact .inl fun ht => hk (by rw [ht]; rfl)
        · exact .inr fun ht => hk (by rw [ht]; rfl)
      rcases tail with _ | ⟨u, tail⟩
      · rfl
      · obtain ht | ht := ht <;> simp [contextAhead, ht]
    · rfl
  ended ts e he := by
    rcases ts with _ | ⟨t, _ | ⟨t', _ | ⟨t'', ts⟩⟩⟩
    · rfl
    · rfl
    · simp [contextAhead, he]
    · rfl

/-- Readers that are put together from basic steps. -/
inductive Composed : {α : Type} → Parse α → Prop
  | pure {α : Type} (a : α) : Composed (Pure.pure a)
  | bind {α β : Type} {x : Parse α} {f : α → Parse β} (hx : Composed x)
      (hf : ∀ a, Composed (f a)) : Composed (x >>= f)
  | exhausted {α : Type} : Composed (Parse.exhausted : Parse α)
  | current : Composed current
  | looks {test : List Token → Bool} (h : Near test) : Composed (looks test)
  | take? {α : Type} {f : Token → Option α} (h : ∀ e : Token, e.kind = .eof → f e = none) :
      Composed (take? f)
  | require {k : TokenKind} {fault : ParseFault} (h : fault.Wants k) : Composed (require k fault)
  | skipNewlines : Composed skipNewlines
  | recover {α : Type} {x : Parse α} (hx : Composed x) : Composed (recover x)
  | opening : Composed opening
  | unaryOps : Composed unaryOps
  /-- The sign of an assignment is used behind what is read from there on. -/
  | assignTail {inner : Parse Expr} (hi : Composed inner) (lhs : Expr) :
      Composed (assignTail inner lhs)
  /-- That a block ends at its brace follows from where its statements end. -/
  | block {item : Parse Stmt} {n : Nat}
      (h : Composed (statements (· = .symbol .rightBrace) item n)) : Composed (block item n)

variable {α β : Type}

/-- A test decides between two readers. -/
theorem Composed.bind_bool {x : Parse Bool} {f : Bool → Parse β} (hx : Composed x)
    (ht : Composed (f true)) (hf : Composed (f false)) : Composed (x >>= f) := by
  refine hx.bind fun b => ?_
  cases b with
  | true => exact ht
  | false => exact hf

theorem Composed.bind_option {x : Parse (Option α)} {f : Option α → Parse β} (hx : Composed x)
    (hs : ∀ a, Composed (f (some a))) (hn : Composed (f none)) : Composed (x >>= f) := by
  refine hx.bind fun o => ?_
  cases o with
  | some a => exact hs a
  | none => exact hn

theorem composed_check {k : TokenKind} (hk : k ≠ .eof) : Composed (check k) :=
  .looks (near_any_head? fun e he => by simpa [he] using hk.symm)

theorem composed_accept? {k : TokenKind} (hk : k ≠ .eof) : Composed (accept? k) :=
  .take? fun e he => by simpa [he] using hk.symm

theorem composed_accept {k : TokenKind} (hk : k ≠ .eof) : Composed (accept k) :=
  (composed_accept? hk).bind fun _ => .pure _

theorem composed_advance : Composed advance :=
  (Composed.take? fun e he => by simp [he]).bind fun _ => .pure _

theorem composed_expect {x : Expectation} (hx : x ≠ .closeBlock) : Composed (expect x) := by
  have h : Composed (require x.kind (.unexpectedToken x)) := .require ⟨rfl, hx⟩
  exact h.bind_option .pure .current

/-- An expected token of which no use is made. -/
theorem composed_expect_then {x : Expectation} (hx : x ≠ .closeBlock) (a : α) :
    Composed (do let _ ← expect x; return a) :=
  (composed_expect hx).bind fun _ => .pure a

theorem composed_commaList {item : Parse α} (hi : Composed item) (n : Nat) :
    Composed (commaList item n) := by
  induction n with
  | zero => exact .exhausted
  | succ n ih =>
    refine hi.bind fun a => (composed_accept (by decide)).bind_bool ?_ (.pure [a])
    exact ih.bind fun as => .pure (a :: as)

section Expressions

variable {inner next : Parse Expr}

theorem composed_primary (hi : Composed inner) : Composed (primary inner) := by
  refine Composed.opening.bind fun o => ?_
  cases o with
  | leaf e => exact .pure e
  | paren => exact hi.bind fun e => composed_expect_then (by decide) e

theorem composed_arguments (hi : Composed inner) (n : Nat) : Composed (arguments inner n) := by
  refine (composed_check (by decide)).bind_bool ?_ ?_
  · exact (Composed.pure []).bind fun args => composed_expect_then (by decide) args
  · exact (composed_commaList hi n).bind fun args => composed_expect_then (by decide) args

theorem composed_memberName? : Composed memberName? := by
  refine (Composed.looks near_memberDot).bind_bool ?_ (.pure none)
  exact composed_advance.bind fun _ => (composed_expect (by decide)).bind fun _ => .pure _

theorem composed_chain (hi : Composed inner) (n : Nat) (e : Expr) : Composed (chain inner n e) := by
  induction n generalizing e with
  | zero => exact .exhausted
  | succ n ih =>
    refine (composed_accept (by decide)).bind_bool ?_ ?_
    · exact (composed_arguments hi n).bind fun args => ih _
    refine (composed_accept (by decide)).bind_bool ?_ ?_
    · exact hi.bind fun i => (composed_expect (by decide)).bind fun _ => ih _
    · exact composed_memberName?.bind_option (fun field => ih _) (.pure e)

theorem composed_contextual (e : Expr) : Composed (contextual e) := by
  refine (Composed.looks near_contextAhead).bind_bool ?_ (.pure e)
  refine (composed_expect (by decide)).bind fun _ => (composed_expect (by decide)).bind fun _ => ?_
  refine (composed_expect (by decide)).bind fun _ => (composed_expect (by decide)).bind fun _ => ?_
  have h : Composed (require .string .expectedContextString) := .require rfl
  exact h.bind_option (fun t => .pure _) (.pure e)

theorem composed_operand (hi : Composed inner) (n : Nat) : Composed (operand inner n) :=
  (composed_primary hi).bind fun e => (composed_chain hi n e).bind composed_contextual

theorem composed_unary (hx : Composed next) : Composed (unary next) :=
  Composed.unaryOps.bind fun _ => hx.bind fun _ => .pure _

theorem composed_binaryTail {ops : OpTable} (ho : ops .eof = none) (hx : Composed next) (n : Nat)
    (e : Expr) : Composed (binaryTail ops next n e) := by
  induction n generalizing e with
  | zero => exact .exhausted
  | succ n ih =>
    refine (Composed.take? fun e he => by rw [he, ho]; rfl).bind_option (fun op => ?_) (.pure e)
    exact hx.bind fun rhs => ih _

/-- What holds of the operands and is kept by every level holds of all levels. -/
theorem binary_induction {Q : Parse Expr → Prop} {n : Nat} (hx : Q next)
    (hs : ∀ ops lower, ops .eof = none → Q lower → Q (binaryLevel ops lower n)) :
    Q (binary next n) := by
  have ho : ∀ ops ∈ levels, ops .eof = none := by
    simp [levels, orOps, andOps, equalityOps, comparisonOps, termOps, factorOps]
  rw [binary]
  generalize levels = tables at ho
  induction tables with
  | nil => exact hx
  | cons ops tables ih =>
    obtain ⟨hops, htables⟩ := List.forall_mem_cons.1 ho
    exact hs ops _ hops (ih htables)

theorem composed_binary (hx : Composed next) (n : Nat) : Composed (binary next n) :=
  binary_induction hx fun _ _ ho hl => hl.bind fun e => composed_binaryTail ho hl n e

theorem composed_assignment (hi : Composed inner) (n : Nat) : Composed (assignment inner n) :=
  (composed_binary (composed_unary (composed_operand hi n)) n).bind fun lhs => .assignTail hi lhs

theorem composed_expressionWithin (n : Nat) : Composed (expressionWithin n) := by
  induction n with
  | zero => exact .exhausted
  | succ n ih => exact composed_assignment ih (n + 1)

end Expressions

section Statements

variable {expr : Parse Expr} {inner item : Parse Stmt}

theorem composed_typeName : Composed typeName := by
  have h : Composed (require .identifier .expectedTypeName) := .require rfl
  exact h.bind_option (fun _ => .pure _) (.pure "")

theorem composed_typeAfter (mark : Symbol) : Composed (typeAfter mark) := by
  refine (composed_accept (by simp)).bind_bool ?_ (.pure none)
  exact composed_typeName.bind fun x => .pure (some x)

theorem composed_parameter : Composed parameter :=
  (composed_expect (by decide)).bind fun _ => (composed_expect (by decide)).bind fun _ =>
    composed_typeName.bind fun _ => .pure _

theorem composed_parameters (n : Nat) : Composed (parameters n) :=
  (composed_check (by decide)).bind_bool (.pure []) (composed_commaList composed_parameter n)

theorem composed_statements (closes : TokenKind → Bool) (hi : Composed item) (n : Nat) :
    Composed (statements closes item n) := by
  induction n with
  | zero => exact .exhausted
  | succ n ih =>
    refine Composed.skipNewlines.bind fun _ => (Composed.looks (near_ends closes)).bind_bool ?_ ?_
    · exact .pure []
    · exact hi.recover.bind fun s? => ih.bind fun ss => .pure _

theorem composed_block (hi : Composed item) (n : Nat) : Composed (block item n) :=
  .block (composed_statements _ hi n)

theorem composed_some (he : Composed expr) : Composed (some <$> expr) :=
  he.bind fun e => .pure (some e)

theorem composed_letRest (he : Composed expr) (p : Position) : Composed (letRest expr p) := by
  refine (composed_accept (by decide)).bind fun mutable => (composed_expect (by decide)).bind ?_
  refine fun name => (composed_typeAfter _).bind fun type? => ?_
  refine (composed_accept (by decide)).bind_bool ?_ ?_
  · exact (composed_some he).bind fun initial => composed_expect_then (by decide) _
  · exact (Composed.pure none).bind fun initial => composed_expect_then (by decide) _

theorem composed_functionRest (hi : Composed item) (n : Nat) (p : Position) :
    Composed (functionRest item n p) := by
  refine (composed_expect (by decide)).bind fun name => ?_
  refine (composed_expect (by decide)).bind fun _ => ?_
  refine (composed_parameters n).bind fun params => (composed_expect (by decide)).bind fun _ => ?_
  exact (composed_typeAfter _).bind fun result => (composed_block hi n).bind fun body => .pure _

theorem composed_ifRest (he : Composed expr) (hi : Composed inner) (p : Position) :
    Composed (ifRest expr inner p) := by
  refine he.bind fun c => hi.bind fun s => (composed_accept (by decide)).bind_bool ?_ (.pure _)
  exact hi.bind fun f => .pure _

theorem composed_whileRest (he : Composed expr) (hi : Composed inner) (p : Position) :
    Composed (whileRest expr inner p) := he.bind fun _ => hi.bind fun _ => .pure _

theorem composed_forRest (he : Composed expr) (hi : Composed inner) (p : Position) :
    Composed (forRest expr inner p) := by
  refine (composed_expect (by decide)).bind fun x => (composed_expect (by decide)).bind fun _ => ?_
  refine he.bind fun a => (composed_expect (by decide)).bind fun _ => ?_
  refine (composed_expect (by decide)).bind fun _ => he.bind fun b => hi.bind fun s => .pure _

theorem composed_returnRest (he : Composed expr) (p : Position) :
    Composed (returnRest expr p) := by
  refine (composed_check (by decide)).bind_bool ?_ ?_
  · exact (Composed.pure none).bind fun value => composed_expect_then (by decide) _
  · exact (composed_some he).bind fun value => composed_expect_then (by decide) _

theorem composed_expressionStatement (he : Composed expr) : Composed (expressionStatement expr) :=
  Composed.current.bind fun _ => he.bind fun _ => composed_expect_then (by decide) _

theorem composed_statementStep (he : Composed expr) (hs : Composed inner) (hd : Composed item)
    (n : Nat) : Composed (statementStep expr inner item n) := by
  refine (composed_accept? (by decide)).bind_option (fun t => composed_ifRest he hs _) ?_
  refine (composed_accept? (by decide)).bind_option (fun t => composed_whileRest he hs _) ?_
  refine (composed_accept? (by decide)).bind_option (fun t => composed_forRest he hs _) ?_
  refine (composed_accept? (by decide)).bind_option (fun t => composed_returnRest he _) ?_
  refine (composed_check (by decide)).bind_bool ?_ (composed_expressionStatement he)
  exact Composed.current.bind fun t => (composed_block hd n).bind fun body => .pure _

theorem composed_declarationStep (he : Composed expr) (hs : Composed inner) (hd : Composed item)
    (n : Nat) : Composed (declarationStep expr inner item n) := by
  refine (composed_accept? (by decide)).bind_option (fun t => composed_functionRest hd n _) ?_
  refine (composed_accept? (by decide)).bind_option (fun t => composed_letRest he _) ?_
  exact composed_statementStep he hs hd n

/-- Statements and declarations at once, since each may hold the other. -/
theorem composed_within (n : Nat) :
    Composed (statementWithin n) ∧ Composed (declarationWithin n) := by
  induction n with
  | zero =>
    rw [statementWithin, declarationWithin]
    exact ⟨.exhausted, .exhausted⟩
  | succ n ih =>
    have he := composed_expressionWithin (n + 1)
    rw [statementWithin, declarationWithin]
    exact ⟨composed_statementStep he ih.1 ih.2 _, composed_declarationStep he ih.1 ih.2 _⟩

end Statements

end Parse

end Scriptlet
