import Mathlib.Data.List.Forall2
import Scriptlet.Parse.Statement
import Scriptlet.Proofs.Parse.Silent

/-! Two readings side by side. Readers look at nothing but kinds, texts and literals of tokens, and
they put trees together from their parts. So tokens that correspond to each other are read as trees
and errors that correspond, also if the second reading has larger bounds than the first. What
becomes of places is a case of this, and so is what all trees have in common, in a correspondence of
each tree with itself. -/
namespace Scriptlet.Parse

open List (Forall₂)

/-- A correspondence between what two readings meet and what they build, kept by every step that
builds something. -/
structure Parallel where
  /-- The end of input in the first reading, and in the second. -/
  stop : Token
  stop' : Token
  token : Token → Token → Prop
  pos : Position → Position → Prop
  error : ParseError → ParseError → Prop
  expr : Expr → Expr → Prop
  stmt : Stmt → Stmt → Prop
  -- The ends of input need not correspond as tokens do: only their texts get into trees.
  stop_lexeme : stop'.lexeme = stop.lexeme
  token_kind {t t' : Token} (h : token t t') : t'.kind = t.kind
  token_lexeme {t t' : Token} (h : token t t') : t'.lexeme = t.lexeme
  token_leaf? {t t' : Token} (h : token t t') : t'.leaf? = t.leaf?
  token_pos {t t' : Token} (h : token t t') : pos t.position t'.position
  error_token {t t' : Token} (fault : ParseFault) (h : token t t') :
    error (.atToken fault t) (.atToken fault t')
  error_stop (fault : ParseFault) : error (.atToken fault stop) (.atToken fault stop')
  expr_pos {e e' : Expr} (h : expr e e') : pos e.pos e'.pos
  expr_name? {e e' : Expr} (h : expr e e') : e'.name?.isSome = e.name?.isSome
  expr_literal {t t' : Token} {v : Value} (h : token t t') (hv : t.leaf? = some v) :
    expr (.literal t.position v) (.literal t'.position v)
  expr_name {t t' : Token} (h : token t t') (hk : t.kind = .identifier) :
    expr (.name t.position t.lexeme) (.name t'.position t'.lexeme)
  expr_binary {p p' : Position} {op : BinaryOp} {a a' b b' : Expr} (hp : pos p p')
    (ha : expr a a') (hb : expr b b') : expr (.binary p op a b) (.binary p' op a' b')
  expr_assign {p p' : Position} {a a' b b' : Expr} (hp : pos p p') (hn : a.name?.isSome)
    (ha : expr a a') (hb : expr b b') : expr (.assign p a b) (.assign p' a' b')
  expr_unary {p p' : Position} {op : UnaryOp} {e e' : Expr} (hp : pos p p') (h : expr e e') :
    expr (.unary p op e) (.unary p' op e')
  expr_call {p p' : Position} {e e' : Expr} {es es' : List Expr} (hp : pos p p') (h : expr e e')
    (hs : Forall₂ expr es es') : expr (.call p e es) (.call p' e' es')
  expr_index {p p' : Position} {a a' b b' : Expr} (hp : pos p p') (ha : expr a a')
    (hb : expr b b') : expr (.index p a b) (.index p' a' b')
  expr_member {p p' : Position} {e e' : Expr} {field : String} (hp : pos p p') (h : expr e e') :
    expr (.member p e field) (.member p' e' field)
  expr_context {t t' : Token} {p p' : Position} {e e' : Expr} (ht : token t t')
    (hk : t.kind = .string) (hp : pos p p') (h : expr e e') :
    expr (.context p e t.stringValue) (.context p' e' t'.stringValue)
  stmt_expr {p p' : Position} {e e' : Expr} (hp : pos p p') (h : expr e e') :
    stmt (.expr p e) (.expr p' e')
  stmt_declare {p p' : Position} {x : String} {type? : Option String} {e? e?' : Option Expr}
    {mutable : Bool} (hp : pos p p') (h : Option.Rel expr e? e?') :
    stmt (.declare p ⟨x, type?, e?, mutable⟩) (.declare p' ⟨x, type?, e?', mutable⟩)
  stmt_block {p p' : Position} {ss ss' : List Stmt} (hp : pos p p') (hs : Forall₂ stmt ss ss') :
    stmt (.block p ss) (.block p' ss')
  stmt_function {p p' : Position} {f : Signature} {ss ss' : List Stmt} (hp : pos p p')
    (hs : Forall₂ stmt ss ss') : stmt (.function p f ss) (.function p' f ss')
  stmt_ret {p p' : Position} {e? e?' : Option Expr} (hp : pos p p') (h : Option.Rel expr e? e?') :
    stmt (.ret p e?) (.ret p' e?')
  stmt_ifThen {p p' : Position} {c c' : Expr} {s s' : Stmt} (hp : pos p p') (hc : expr c c')
    (hs : stmt s s') : stmt (.ifThen p c s) (.ifThen p' c' s')
  stmt_ifElse {p p' : Position} {c c' : Expr} {s s' f f' : Stmt} (hp : pos p p')
    (hc : expr c c') (hs : stmt s s') (hf : stmt f f') :
    stmt (.ifElse p c s f) (.ifElse p' c' s' f')
  stmt_whileLoop {p p' : Position} {c c' : Expr} {s s' : Stmt} (hp : pos p p') (hc : expr c c')
    (hs : stmt s s') : stmt (.whileLoop p c s) (.whileLoop p' c' s')
  stmt_forRange {p p' : Position} {x : String} {a a' b b' : Expr} {s s' : Stmt} (hp : pos p p')
    (ha : expr a a') (hb : expr b b') (hs : stmt s s') :
    stmt (.forRange p x a b s) (.forRange p' x a' b' s')

namespace Parallel

variable {P : Parallel} {α β γ δ : Type} {R : α → β → Prop} {S : γ → δ → Prop}
  {ts ts' : List Token}

/-- Two results that correspond, or two faults. -/
inductive Results (P : Parallel) (R : α → β → Prop) : Except Halt α → Except Halt β → Prop where
  | ok {a : α} {b : β} (h : R a b) : Results P R (.ok a) (.ok b)
  | fault {e e' : ParseError} (h : P.error e e') :
      Results P R (.error (.fault e)) (.error (.fault e'))

structure Replies (P : Parallel) (R : α → β → Prop) (r : Reply α) (r' : Reply β) : Prop where
  result : P.Results R r.result r'.result
  errors : Forall₂ P.error r.errors r'.errors
  rest : Forall₂ P.token r.rest r'.rest

/-- On tokens that correspond the two readers give replies that correspond, unless the bound of the
first one is used up. -/
def Links (P : Parallel) (R : α → β → Prop) (x : Parse α) (y : Parse β) : Prop :=
  ∀ ⦃ts ts' : List Token⦄, Forall₂ P.token ts ts' →
    (x P.stop ts).result = .error .exhausted ∨ P.Replies R (x P.stop ts) (y P.stop' ts')

/-- Two tokens that readers give: they correspond, or they are the ends of input. -/
def Seen (P : Parallel) (t t' : Token) : Prop := P.token t t' ∨ t = P.stop ∧ t' = P.stop'

theorem Seen.lexeme_eq {t t' : Token} (h : P.Seen t t') : t'.lexeme = t.lexeme := by
  obtain ht | ⟨rfl, rfl⟩ := h
  · exact P.token_lexeme ht
  · exact P.stop_lexeme

theorem Seen.error {t t' : Token} (h : P.Seen t t') (fault : ParseFault) :
    P.error (.atToken fault t) (.atToken fault t') := by
  obtain ht | ⟨rfl, rfl⟩ := h
  · exact P.error_token fault ht
  · exact P.error_stop fault

theorem seen_headD (h : Forall₂ P.token ts ts') : P.Seen (ts.headD P.stop) (ts'.headD P.stop') := by
  cases h with
  | nil => exact .inr ⟨rfl, rfl⟩
  | cons ht _ => exact .inl ht

theorem any_head? (h : Forall₂ P.token ts ts') (p : TokenKind → Bool) :
    ts'.head?.any (fun t => p t.kind) = ts.head?.any fun t => p t.kind := by
  cases h with
  | nil => rfl
  | cons ht _ => exact congrArg p (P.token_kind ht)

section Steps

theorem links_exhausted {y : Parse β} : P.Links R exhausted y := fun _ _ _ => .inl rfl

theorem links_pure {a : α} {b : β} (h : R a b) : P.Links R (pure a) (pure b) :=
  fun _ _ hts => .inr ⟨.ok h, .nil, hts⟩

theorem Links.bind {x : Parse α} {y : Parse β} {f : α → Parse γ} {g : β → Parse δ}
    (hx : P.Links R x y) (hf : ∀ a b, R a b → P.Links S (f a) (g b)) :
    P.Links S (x >>= f) (y >>= g) := by
  intro ts ts' hts
  have hreply := hx hts
  rcases hr : x P.stop ts with ⟨result, errors, rest⟩
  rcases hr' : y P.stop' ts' with ⟨result', errors', rest'⟩
  rw [hr, hr'] at hreply
  obtain rfl | ⟨hresult, herrors, hrest⟩ := hreply
  · rw [bind_error hr]
    exact .inl rfl
  cases hresult with
  | fault he =>
    rw [bind_error hr, bind_error hr']
    exact .inr ⟨.fault he, herrors, hrest⟩
  | ok hab =>
    rw [bind_ok hr, bind_ok hr']
    obtain hnext | hnext := hf _ _ hab hrest
    · exact .inl hnext
    · exact .inr ⟨hnext.result, List.rel_append herrors hnext.errors, hnext.rest⟩

theorem links_looks {test : List Token → Bool}
    (h : ∀ {ts ts' : List Token}, Forall₂ P.token ts ts' → test ts' = test ts) :
    P.Links Eq (looks test) (looks test) := fun _ _ hts => .inr ⟨.ok (h hts).symm, .nil, hts⟩

theorem links_current : P.Links P.Seen current current :=
  fun _ _ hts => .inr ⟨.ok (seen_headD hts), .nil, hts⟩

theorem links_reportAt (fault : ParseFault) {t t' : Token} (h : P.Seen t t') :
    P.Links Eq (reportAt fault t) (reportAt fault t') :=
  fun _ _ hts => .inr ⟨.ok rfl, .cons (h.error fault) .nil, hts⟩

theorem links_report (fault : ParseFault) : P.Links Eq (report fault) (report fault) :=
  links_current.bind fun _ _ h => links_reportAt fault h

theorem links_fail (fault : ParseFault) : P.Links R (fail fault) (fail fault) :=
  fun _ _ hts => .inr ⟨.fault ((seen_headD hts).error fault), .nil, hts⟩

theorem links_take? {f : Token → Option α} {g : Token → Option β}
    (h : ∀ t t', P.token t t' → Option.Rel R (f t) (g t')) :
    P.Links (Option.Rel R) (take? f) (take? g) := by
  intro ts ts' hts
  cases hts with
  | nil => exact .inr ⟨.ok .none, .nil, .nil⟩
  | @cons t t' us us' ht hrest =>
    have hfg := h t t' ht
    simp only [take?]
    generalize f t = a? at hfg
    generalize g t' = b? at hfg
    cases hfg with
    | none => exact .inr ⟨.ok .none, .nil, .cons ht hrest⟩
    | some hab => exact .inr ⟨.ok (.some hab), .nil, hrest⟩

/-- A reader that may find something, and goes on in one of two ways. -/
theorem Links.bind_option {x : Parse (Option α)} {y : Parse (Option β)} {f : Option α → Parse γ}
    {g : Option β → Parse δ} (hx : P.Links (Option.Rel R) x y)
    (hs : ∀ a b, R a b → P.Links S (f (some a)) (g (some b))) (hn : P.Links S (f none) (g none)) :
    P.Links S (x >>= f) (y >>= g) := by
  refine hx.bind fun o o' ho => ?_
  cases ho with
  | none => exact hn
  | some hab => exact hs _ _ hab

theorem links_advance : P.Links Eq advance advance := by
  refine (links_take? (R := P.token) fun t t' ht => ?_).bind fun _ _ _ => links_pure rfl
  rw [P.token_kind ht]
  split
  · exact .none
  · exact .some ht

/-- Tokens that correspond and are both of the given kind. -/
def TokenOf (P : Parallel) (k : TokenKind) (t t' : Token) : Prop := P.token t t' ∧ t.kind = k

theorem links_accept? (k : TokenKind) :
    P.Links (Option.Rel (P.TokenOf k)) (accept? k) (accept? k) := by
  refine links_take? fun t t' ht => ?_
  rw [P.token_kind ht]
  by_cases hk : t.kind = k
  · rw [if_pos hk, if_pos hk]
    exact .some ⟨ht, hk⟩
  · rw [if_neg hk, if_neg hk]
    exact .none

theorem links_accept (k : TokenKind) : P.Links Eq (accept k) (accept k) :=
  (links_accept? k).bind_option (fun _ _ _ => links_pure rfl) (links_pure rfl)

theorem links_check (k : TokenKind) : P.Links Eq (check k) (check k) :=
  links_looks fun hts => any_head? hts (· = k)

theorem links_require (k : TokenKind) (fault : ParseFault) :
    P.Links (Option.Rel (P.TokenOf k)) (require k fault) (require k fault) :=
  (links_accept? k).bind_option (fun _ _ ht => links_pure (.some ht))
    ((links_report fault).bind fun _ _ _ => links_pure .none)

/-- A reader that asks a question and goes on in one of two ways. -/
theorem Links.bind_bool {x : Parse Bool} {f : Bool → Parse γ} {g : Bool → Parse δ}
    (hx : P.Links Eq x x) (ht : P.Links S (f true) (g true)) (hf : P.Links S (f false) (g false)) :
    P.Links S (x >>= f) (x >>= g) := by
  refine hx.bind fun b b' hb => ?_
  subst hb
  cases b with
  | true => exact ht
  | false => exact hf

theorem links_expect (x : Expectation) : P.Links P.Seen (expect x) (expect x) :=
  (links_require _ _).bind_option (fun _ _ ht => links_pure (.inl ht.1)) links_current

/-- An expected token of which no use is made. -/
theorem links_expect_then {x : Expectation} {a : α} {b : β} (h : R a b) :
    P.Links R (do let _ ← expect x; return a) (do let _ ← expect x; return b) :=
  (links_expect x).bind fun _ _ _ => links_pure h

theorem links_skipNewlines : P.Links Eq skipNewlines skipNewlines := by
  intro ts ts' hts
  refine .inr ⟨.ok rfl, .nil, ?_⟩
  simp only [skipNewlines]
  induction hts with
  | nil => exact .nil
  | @cons t t' us us' ht hrest ih =>
    simp only [List.dropWhile_cons, P.token_kind ht]
    split
    · exact ih
    · exact .cons ht hrest

private theorem synchronize_parallel (h : Forall₂ P.token ts ts') :
    Forall₂ P.token (synchronize ts) (synchronize ts') := by
  induction h with
  | nil => exact .nil
  | cons ht hrest ih =>
    simp only [synchronize, P.token_kind ht, any_head? hrest TokenKind.startsDeclaration]
    split
    · exact .cons ht hrest
    · split
      · exact hrest
      · exact ih

theorem Links.recover {x : Parse α} {y : Parse β} (h : P.Links R x y) :
    P.Links (Option.Rel R) (recover x) (recover y) := by
  intro ts ts' hts
  have hreply := h hts
  simp only [Parse.recover, catchFault]
  generalize x P.stop ts = r at hreply
  generalize y P.stop' ts' = r' at hreply
  rcases r with ⟨result, errors, rest⟩
  rcases r' with ⟨result', errors', rest'⟩
  obtain rfl | ⟨hresult, herrors, hrest⟩ := hreply
  · exact .inl rfl
  cases hresult with
  | ok hab => exact .inr ⟨.ok (.some hab), herrors, hrest⟩
  | fault he =>
    exact .inr ⟨.ok .none, List.rel_append herrors (.cons he .nil), synchronize_parallel hrest⟩

theorem links_commaList {x : Parse α} {y : Parse β} (hx : P.Links R x y) {n n' : Nat}
    (hn : n ≤ n') : P.Links (Forall₂ R) (commaList x n) (commaList y n') := by
  induction n generalizing n' with
  | zero => exact links_exhausted
  | succ n ih =>
    obtain ⟨m, rfl⟩ := Nat.exists_eq_add_of_le' hn
    refine hx.bind fun a b hab => (links_accept _).bind_bool ?_ ?_
    · exact (ih (Nat.le_add_left n m)).bind fun l l' hl => links_pure (.cons hab hl)
    · exact links_pure (.cons hab .nil)

end Steps

section Expressions

variable {inner inner' next next' : Parse Expr} {n n' : Nat}

/-- Openings of operands that correspond. -/
def Openings (P : Parallel) : Opening → Opening → Prop
  | .leaf e, .leaf e' => P.expr e e'
  | .paren, .paren => True
  | _, _ => False

private theorem opening?_parallel {t t' : Token} (ht : P.token t t') :
    Option.Rel P.Openings (opening? t) (opening? t') := by
  unfold opening?
  rw [P.token_leaf? ht, P.token_kind ht]
  cases hv : t.leaf? with
  | some v => exact .some (P.expr_literal ht hv)
  | none =>
    dsimp only
    by_cases hk : t.kind = .identifier
    · rw [if_pos hk, if_pos hk]
      exact .some (P.expr_name ht hk)
    · rw [if_neg hk, if_neg hk]
      split
      · exact .some trivial
      · exact .none

theorem links_opening : P.Links P.Openings opening opening :=
  (links_take? fun _ _ => opening?_parallel).bind_option (fun _ _ ho => links_pure ho)
    (links_fail _)

theorem links_primary (hi : P.Links P.expr inner inner') :
    P.Links P.expr (primary inner) (primary inner') := by
  refine links_opening.bind fun o o' ho => ?_
  cases o with
  | leaf e =>
    cases o' with
    | leaf e' => exact links_pure ho
    | paren => exact ho.elim
  | paren =>
    cases o' with
    | leaf e' => exact ho.elim
    | paren => exact hi.bind fun _ _ he => links_expect_then he

theorem links_arguments (hi : P.Links P.expr inner inner') (hn : n ≤ n') :
    P.Links (Forall₂ P.expr) (arguments inner n) (arguments inner' n') := by
  refine (links_check _).bind_bool ?_ ?_
  · exact (links_pure (R := Forall₂ P.expr) .nil).bind fun _ _ hs => links_expect_then hs
  · exact (links_commaList hi hn).bind fun _ _ hs => links_expect_then hs

private theorem memberDot_eq (h : Forall₂ P.token ts ts') : memberDot ts' = memberDot ts := by
  cases h with
  | nil => rfl
  | cons ht hrest =>
    simp only [memberDot, P.token_kind ht, any_head? hrest (· = .symbol .dot)]

private theorem contextAhead_eq (h : Forall₂ P.token ts ts') :
    contextAhead ts' = contextAhead ts := by
  rcases h with _ | ⟨h₀, _ | ⟨h₁, _ | ⟨h₂, _⟩⟩⟩
  · rfl
  · rfl
  · rfl
  · simp only [contextAhead, P.token_kind h₀, P.token_kind h₁, P.token_kind h₂]

theorem links_memberName? : P.Links Eq memberName? memberName? := by
  refine (links_looks memberDot_eq).bind_bool ?_ (links_pure rfl)
  refine links_advance.bind fun _ _ _ => (links_expect _).bind fun field field' hf => links_pure ?_
  rw [hf.lexeme_eq]

theorem links_chain (hi : P.Links P.expr inner inner') (hn : n ≤ n') {e e' : Expr}
    (he : P.expr e e') : P.Links P.expr (chain inner n e) (chain inner' n' e') := by
  induction n generalizing n' e e' with
  | zero => exact links_exhausted
  | succ n ih =>
    obtain ⟨m, rfl⟩ := Nat.exists_eq_add_of_le' hn
    have hm : n ≤ m + n := Nat.le_add_left n m
    have hp := P.expr_pos he
    refine (links_accept _).bind_bool ?_ ((links_accept _).bind_bool ?_ ?_)
    · exact (links_arguments hi hm).bind fun es es' hs => ih hm (P.expr_call hp he hs)
    · refine hi.bind fun i i' hx => (links_expect _).bind fun _ _ _ => ?_
      exact ih hm (P.expr_index hp he hx)
    · refine links_memberName?.bind fun field? field?' hf => ?_
      subst hf
      cases field? with
      | some field => exact ih hm (P.expr_member hp he)
      | none => exact links_pure he

theorem links_contextual {e e' : Expr} (he : P.expr e e') :
    P.Links P.expr (contextual e) (contextual e') := by
  refine (links_looks contextAhead_eq).bind_bool ?_ (links_pure he)
  refine (links_expect _).bind fun _ _ _ => (links_expect _).bind fun _ _ _ => ?_
  refine (links_expect _).bind fun _ _ _ => (links_expect _).bind fun _ _ _ => ?_
  refine (links_require _ _).bind_option (fun t t' ht => ?_) (links_pure he)
  exact links_pure (P.expr_context ht.1 ht.2 (P.expr_pos he) he)

theorem links_operand (hi : P.Links P.expr inner inner') (hn : n ≤ n') :
    P.Links P.expr (operand inner n) (operand inner' n') :=
  (links_primary hi).bind fun _ _ he => (links_chain hi hn he).bind fun _ _ => links_contextual

/-- Unary operators that stand at positions that correspond. -/
def Prefixes (P : Parallel) (op op' : Position × UnaryOp) : Prop := P.pos op.1 op'.1 ∧ op'.2 = op.2

private theorem splitUnary_parallel (h : Forall₂ P.token ts ts') :
    Forall₂ P.Prefixes (splitUnary ts).1 (splitUnary ts').1 ∧
      Forall₂ P.token (splitUnary ts).2 (splitUnary ts').2 := by
  induction h with
  | nil => exact ⟨.nil, .nil⟩
  | @cons t t' us us' ht hrest ih =>
    simp only [splitUnary, P.token_kind ht]
    cases UnaryOp.ofKind? t.kind with
    | none => exact ⟨.nil, .cons ht hrest⟩
    | some op => exact ⟨.cons ⟨P.token_pos ht, rfl⟩ ih.1, ih.2⟩

private theorem expr_foldr_unary {ops ops' : List (Position × UnaryOp)}
    (h : Forall₂ P.Prefixes ops ops')
    {e e' : Expr} (he : P.expr e e') :
    P.expr (ops.foldr (fun (p, op) e => .unary p op e) e)
      (ops'.foldr (fun (p, op) e => .unary p op e) e') := by
  induction h with
  | nil => exact he
  | @cons op op' ops ops' hop _ ih =>
    obtain ⟨p, o⟩ := op
    obtain ⟨p', o'⟩ := op'
    obtain ⟨hp, rfl⟩ := hop
    exact P.expr_unary hp ih

theorem links_unaryOps : P.Links (Forall₂ P.Prefixes) unaryOps unaryOps := by
  intro ts ts' hts
  obtain ⟨hops, hrest⟩ := splitUnary_parallel hts
  exact .inr ⟨.ok hops, .nil, hrest⟩

theorem links_unary (hx : P.Links P.expr next next') :
    P.Links P.expr (unary next) (unary next') :=
  links_unaryOps.bind fun _ _ hops => hx.bind fun _ _ he => links_pure (expr_foldr_unary hops he)

/-- A binary operator and its position. -/
def Operators (P : Parallel) (o o' : Position × BinaryOp) : Prop := P.pos o.1 o'.1 ∧ o'.2 = o.2

theorem links_binaryTail {ops : OpTable} (hx : P.Links P.expr next next') (hn : n ≤ n')
    {e e' : Expr} (he : P.expr e e') :
    P.Links P.expr (binaryTail ops next n e) (binaryTail ops next' n' e') := by
  induction n generalizing n' e e' with
  | zero => exact links_exhausted
  | succ n ih =>
    obtain ⟨m, rfl⟩ := Nat.exists_eq_add_of_le' hn
    refine (links_take? (R := P.Operators) fun t t' ht => ?_).bind_option (fun o o' ho => ?_)
      (links_pure he)
    · rw [P.token_kind ht]
      cases ops t.kind with
      | none => exact .none
      | some op => exact .some ⟨P.token_pos ht, rfl⟩
    · obtain ⟨p, op⟩ := o
      obtain ⟨p', op'⟩ := o'
      obtain ⟨hp, rfl⟩ := ho
      exact hx.bind fun _ _ hr => ih (Nat.le_add_left n m) (P.expr_binary hp he hr)

theorem links_binary (hx : P.Links P.expr next next') (hn : n ≤ n') :
    P.Links P.expr (binary next n) (binary next' n') := by
  rw [binary, binary]
  generalize levels = tables
  induction tables with
  | nil => exact hx
  | cons ops tables ih => exact ih.bind fun _ _ he => links_binaryTail ih hn he

theorem links_assignTail (hi : P.Links P.expr inner inner') {lhs lhs' : Expr}
    (hl : P.expr lhs lhs') : P.Links P.expr (assignTail inner lhs) (assignTail inner' lhs') := by
  refine (links_accept? _).bind_option (fun t t' ht => ?_) (links_pure hl)
  refine hi.bind fun rhs rhs' hr => ?_
  rw [P.expr_name? hl]
  by_cases hn : lhs.name?.isSome
  · rw [if_pos hn, if_pos hn]
    exact links_pure (P.expr_assign (P.token_pos ht.1) hn hl hr)
  · rw [if_neg hn, if_neg hn]
    exact (links_reportAt _ (.inl ht.1)).bind fun _ _ _ => links_pure hl

theorem links_assignment (hi : P.Links P.expr inner inner') (hn : n ≤ n') :
    P.Links P.expr (assignment inner n) (assignment inner' n') :=
  (links_binary (links_unary (links_operand hi hn)) hn).bind fun _ _ => links_assignTail hi

theorem links_expressionWithin (hn : n ≤ n') :
    P.Links P.expr (expressionWithin n) (expressionWithin n') := by
  induction n generalizing n' with
  | zero => exact links_exhausted
  | succ n ih =>
    obtain ⟨m, rfl⟩ := Nat.exists_eq_add_of_le' hn
    exact links_assignment (ih (Nat.le_add_left n m)) hn

end Expressions

/-- No expression is read where no token is left. -/
theorem expressionWithin_nil (n : Nat) (stop : Token) (e : Expr) :
    (expressionWithin n stop []).result ≠ .ok e := by
  cases n with
  | zero => nofun
  | succ n => nofun

section Statements

variable {expr expr' : Parse Expr} {inner inner' item item' : Parse Stmt} {p p' : Position}
  {n n' : Nat}

theorem links_typeName : P.Links Eq typeName typeName :=
  (links_require _ _).bind_option (fun _ _ ht => links_pure (P.token_lexeme ht.1).symm)
    (links_pure rfl)

theorem links_typeAfter (mark : Symbol) : P.Links Eq (typeAfter mark) (typeAfter mark) := by
  refine (links_accept _).bind_bool ?_ (links_pure rfl)
  exact links_typeName.bind fun _ _ hx => links_pure (congrArg some hx)

theorem links_parameter : P.Links Eq parameter parameter := by
  refine (links_expect _).bind fun name name' hn => (links_expect _).bind fun _ _ _ => ?_
  refine links_typeName.bind fun x x' hx => links_pure ?_
  rw [hn.lexeme_eq, hx]

theorem links_parameters (hn : n ≤ n') : P.Links Eq (parameters n) (parameters n') := by
  have hlist := links_commaList (links_parameter (P := P)) hn
  rw [List.forall₂_eq_eq_eq] at hlist
  exact (links_check _).bind_bool (links_pure rfl) hlist

private theorem ends_eq (closes : TokenKind → Bool) (h : Forall₂ P.token ts ts') :
    ends closes ts' = ends closes ts := by
  cases h with
  | nil => rfl
  | cons ht _ => simp only [ends, atEnd, List.head?_cons, Option.all_some, Option.any_some,
      P.token_kind ht]

theorem links_statements {closes : TokenKind → Bool} (hi : P.Links P.stmt item item')
    (hn : n ≤ n') :
    P.Links (Forall₂ P.stmt) (statements closes item n) (statements closes item' n') := by
  induction n generalizing n' with
  | zero => exact links_exhausted
  | succ n ih =>
    obtain ⟨m, rfl⟩ := Nat.exists_eq_add_of_le' hn
    refine links_skipNewlines.bind fun _ _ _ => (links_looks (ends_eq closes)).bind_bool ?_ ?_
    · exact links_pure .nil
    · refine hi.recover.bind fun s? s?' hs => ?_
      refine (ih (Nat.le_add_left n m)).bind fun ss ss' hss => links_pure ?_
      cases hs with
      | none => exact hss
      | some hs => exact .cons hs hss

theorem links_block (hi : P.Links P.stmt item item') (hn : n ≤ n') :
    P.Links (Forall₂ P.stmt) (block item n) (block item' n') :=
  (links_expect _).bind fun _ _ _ => (links_statements hi hn).bind fun _ _ hs =>
    links_expect_then hs

theorem links_some (he : P.Links P.expr expr expr') :
    P.Links (Option.Rel P.expr) (some <$> expr) (some <$> expr') :=
  he.bind fun _ _ he => links_pure (.some he)

theorem links_letRest (he : P.Links P.expr expr expr') (hp : P.pos p p') :
    P.Links P.stmt (letRest expr p) (letRest expr' p') := by
  refine (links_accept _).bind fun mutable mutable' hm => (links_expect _).bind fun x x' hx => ?_
  refine (links_typeAfter _).bind fun type? type?' ht => ?_
  subst hm ht
  rw [hx.lexeme_eq]
  refine (links_accept _).bind_bool ?_ ?_
  · exact (links_some he).bind fun _ _ he => links_expect_then (P.stmt_declare hp he)
  · exact (links_pure (R := Option.Rel P.expr) .none).bind fun _ _ he =>
      links_expect_then (P.stmt_declare hp he)

theorem links_functionRest (hi : P.Links P.stmt item item') (hn : n ≤ n') (hp : P.pos p p') :
    P.Links P.stmt (functionRest item n p) (functionRest item' n' p') := by
  refine (links_expect _).bind fun x x' hx => (links_expect _).bind fun _ _ _ => ?_
  refine (links_parameters hn).bind fun ps ps' hps => (links_expect _).bind fun _ _ _ => ?_
  refine (links_typeAfter _).bind fun type? type?' ht => ?_
  refine (links_block hi hn).bind fun ss ss' hs => ?_
  subst hps ht
  rw [hx.lexeme_eq]
  exact links_pure (P.stmt_function hp hs)

theorem links_ifRest (he : P.Links P.expr expr expr') (hi : P.Links P.stmt inner inner')
    (hp : P.pos p p') : P.Links P.stmt (ifRest expr inner p) (ifRest expr' inner' p') := by
  refine he.bind fun _ _ hc => hi.bind fun _ _ hs => (links_accept _).bind_bool ?_ ?_
  · exact hi.bind fun _ _ hf => links_pure (P.stmt_ifElse hp hc hs hf)
  · exact links_pure (P.stmt_ifThen hp hc hs)

theorem links_whileRest (he : P.Links P.expr expr expr') (hi : P.Links P.stmt inner inner')
    (hp : P.pos p p') : P.Links P.stmt (whileRest expr inner p) (whileRest expr' inner' p') :=
  he.bind fun _ _ hc => hi.bind fun _ _ hs => links_pure (P.stmt_whileLoop hp hc hs)

theorem links_forRest (he : P.Links P.expr expr expr') (hi : P.Links P.stmt inner inner')
    (hp : P.pos p p') : P.Links P.stmt (forRest expr inner p) (forRest expr' inner' p') := by
  refine (links_expect _).bind fun x x' hx => (links_expect _).bind fun _ _ _ => ?_
  refine he.bind fun _ _ ha => (links_expect _).bind fun _ _ _ => ?_
  refine (links_expect _).bind fun _ _ _ => he.bind fun _ _ hb => hi.bind fun _ _ hs => ?_
  rw [hx.lexeme_eq]
  exact links_pure (P.stmt_forRange hp ha hb hs)

theorem links_returnRest (he : P.Links P.expr expr expr') (hp : P.pos p p') :
    P.Links P.stmt (returnRest expr p) (returnRest expr' p') := by
  refine (links_check _).bind_bool ?_ ?_
  · exact (links_pure (R := Option.Rel P.expr) .none).bind fun _ _ he =>
      links_expect_then (P.stmt_ret hp he)
  · exact (links_some he).bind fun _ _ he => links_expect_then (P.stmt_ret hp he)

/-- The position of an expression statement is that of a token: where no token is left there is no
expression. -/
theorem links_expressionStatement (he : P.Links P.expr expr expr')
    (hnil : ∀ e, (expr P.stop []).result ≠ .ok e) :
    P.Links P.stmt (expressionStatement expr) (expressionStatement expr') := by
  intro ts ts' hts
  rw [expressionStatement, expressionStatement, bind_silent (x := current) rfl,
    bind_silent (x := current) rfl]
  cases id hts with
  | nil =>
    have hreply := he .nil
    have hnone := hnil
    rcases hr : expr P.stop [] with ⟨result, errors, rest⟩
    rcases hr' : expr' P.stop' [] with ⟨result', errors', rest'⟩
    rw [hr] at hnone
    rw [hr, hr'] at hreply
    obtain rfl | ⟨hresult, herrors, hrest⟩ := hreply
    · rw [bind_error hr]
      exact .inl rfl
    cases hresult with
    | ok _ => exact absurd rfl (hnone _)
    | fault h =>
      rw [bind_error hr, bind_error hr']
      exact .inr ⟨.fault h, herrors, hrest⟩
  | @cons t t' us us' ht _ =>
    have hrest : P.Links P.stmt
        (do let e ← expr; let _ ← expect .expressionEnd; return .expr t.position e)
        (do let e ← expr'; let _ ← expect .expressionEnd; return .expr t'.position e) :=
      he.bind fun _ _ he => links_expect_then (P.stmt_expr (P.token_pos ht) he)
    exact hrest hts

/-- A token of the kind that stands next is no end of input. -/
theorem links_check_current {k : TokenKind} {x : Parse γ} {y : Parse δ} {f : Token → Parse γ}
    {g : Token → Parse δ} (hf : ∀ t t', P.token t t' → P.Links S (f t) (g t'))
    (hx : P.Links S x y) :
    P.Links S (do if ← check k then f (← current) else x)
      (do if ← check k then g (← current) else y) := by
  intro ts ts' hts
  cases id hts with
  | nil => exact hx .nil
  | @cons t t' us us' ht _ =>
    have hcheck : Reads (check k) P.stop (t :: us) (t.kind = k) (t :: us) := rfl
    have hcheck' : Reads (check k) P.stop' (t' :: us') (t.kind = k) (t' :: us') := by
      rw [← P.token_kind ht]
      rfl
    rw [bind_silent hcheck, bind_silent hcheck']
    by_cases hk : t.kind = k
    · rw [if_pos (decide_eq_true hk), if_pos (decide_eq_true hk)]
      exact hf t t' ht hts
    · rw [if_neg (by simpa using hk), if_neg (by simpa using hk)]
      exact hx hts

theorem links_statementStep (he : P.Links P.expr expr expr')
    (hnil : ∀ e, (expr P.stop []).result ≠ .ok e) (hs : P.Links P.stmt inner inner')
    (hd : P.Links P.stmt item item') (hn : n ≤ n') :
    P.Links P.stmt (statementStep expr inner item n) (statementStep expr' inner' item' n') := by
  refine (links_accept? _).bind_option (fun t t' ht => links_ifRest he hs (P.token_pos ht.1)) ?_
  refine (links_accept? _).bind_option (fun t t' ht => links_whileRest he hs (P.token_pos ht.1)) ?_
  refine (links_accept? _).bind_option (fun t t' ht => links_forRest he hs (P.token_pos ht.1)) ?_
  refine (links_accept? _).bind_option (fun t t' ht => links_returnRest he (P.token_pos ht.1)) ?_
  refine links_check_current (fun t t' ht => ?_) (links_expressionStatement he hnil)
  exact (links_block hd hn).bind fun _ _ hss => links_pure (P.stmt_block (P.token_pos ht) hss)

theorem links_declarationStep (he : P.Links P.expr expr expr')
    (hnil : ∀ e, (expr P.stop []).result ≠ .ok e) (hs : P.Links P.stmt inner inner')
    (hd : P.Links P.stmt item item') (hn : n ≤ n') :
    P.Links P.stmt (declarationStep expr inner item n) (declarationStep expr' inner' item' n') := by
  refine (links_accept? _).bind_option
    (fun t t' ht => links_functionRest hd hn (P.token_pos ht.1)) ?_
  refine (links_accept? _).bind_option (fun t t' ht => links_letRest he (P.token_pos ht.1)) ?_
  exact links_statementStep he hnil hs hd hn

theorem links_within (hn : n ≤ n') :
    P.Links P.stmt (statementWithin n) (statementWithin n') ∧
      P.Links P.stmt (declarationWithin n) (declarationWithin n') := by
  induction n generalizing n' with
  | zero =>
    rw [statementWithin, declarationWithin]
    exact ⟨links_exhausted, links_exhausted⟩
  | succ n ih =>
    obtain ⟨m, rfl⟩ := Nat.exists_eq_add_of_le' hn
    obtain ⟨hs, hd⟩ := ih (Nat.le_add_left n m)
    have he : P.Links P.expr (expressionWithin (n + 1)) (expressionWithin (m + (n + 1))) :=
      links_expressionWithin hn
    have hnil := expressionWithin_nil (n + 1) P.stop
    rw [statementWithin, declarationWithin]
    exact ⟨links_statementStep he hnil hs hd hn, links_declarationStep he hnil hs hd hn⟩

/-- Tokens that correspond are read as programs that correspond, with errors that correspond. -/
theorem links_program (P : Parallel) : P.Links (Forall₂ P.stmt) program program := by
  intro ts ts' hts
  rw [program, program, hts.length_eq]
  exact links_statements (links_within (Nat.le_refl _)).2 (Nat.le_refl _) hts

end Statements

end Parallel

end Scriptlet.Parse
