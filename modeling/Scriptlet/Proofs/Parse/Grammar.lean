import Scriptlet.Parse.Expression

/-! The grammar of the language as a relation between lists of tokens and trees. Every rule also
says at which position its node stands. -/
namespace Scriptlet

/-- The levels of expressions, the loosest first. -/
inductive Level where
  | assignment | or | and | equality | comparison | term | factor | unary | conditional | chain
  | primary
deriving DecidableEq, Repr

namespace Level

/-- The next tighter level. Nothing is tighter than a primary expression. -/
def next : Level → Level
  | assignment => or
  | or => and
  | and => equality
  | equality => comparison
  | comparison => term
  | term => factor
  | factor => unary
  | unary => conditional
  | conditional => chain
  | chain | primary => primary

/-- Tighter levels have greater ranks. -/
def rank : Level → Nat
  | assignment => 0
  | or => 1
  | and => 2
  | equality => 3
  | comparison => 4
  | term => 5
  | factor => 6
  | unary => 7
  | conditional => 8
  | chain => 9
  | primary => 10

theorem rank_le_next (l : Level) : l.rank ≤ l.next.rank := by cases l <;> decide

theorem rank_next {l : Level} (h : l ≠ primary) : l.next.rank = l.rank + 1 := by
  cases l with
  | primary => exact absurd rfl h
  | _ => rfl

theorem rank_le_primary (l : Level) : l.rank ≤ primary.rank := by cases l <;> decide

theorem rank_inj {l l' : Level} (h : l.rank = l'.rank) : l = l' := by
  cases l <;> cases l' <;> simp_all [rank]

/-- The levels of binary operators. -/
def IsBinary (l : Level) : Prop := or.rank ≤ l.rank ∧ l.rank ≤ factor.rank

instance (l : Level) : Decidable l.IsBinary := inferInstanceAs (Decidable (_ ∧ _))

theorem IsBinary.ne_primary {l : Level} (h : l.IsBinary) : l ≠ primary := by
  rintro rfl
  exact absurd h.2 (by decide)

end Level

namespace BinaryOp

/-- The level at which an operator stands. -/
def level : BinaryOp → Level
  | or => .or
  | and => .and
  | eq | ne => .equality
  | lt | le | gt | ge => .comparison
  | add | sub => .term
  | mul | div | mod => .factor

/-- The kind of token that an operator is written with. -/
def kind : BinaryOp → TokenKind
  | or => .keyword .orKw
  | and => .keyword .andKw
  | eq => .symbol .equal
  | ne => .symbol .notEqual
  | lt => .symbol .less
  | le => .symbol .lessEqual
  | gt => .symbol .greater
  | ge => .symbol .greaterEqual
  | add => .symbol .plus
  | sub => .symbol .minus
  | mul => .symbol .star
  | div => .symbol .slash
  | mod => .symbol .percent

end BinaryOp

/-- The kind of token that a value is written with. -/
def Value.kind : Value → TokenKind
  | integer _ => .integer
  | float _ => .float
  | string _ => .string
  | bool _ => .boolean

/-- The kinds of tokens that a unary operator can be written with. -/
def UnaryOp.kinds : UnaryOp → List TokenKind
  | not => [.keyword .notKw, .symbol .bang]
  | negate => [.symbol .minus]
  | plus => [.symbol .plus]

/-- A type name behind a mark, or nothing. -/
inductive TypeMark (mark : Symbol) : List Token → Option String → Prop where
  | absent : TypeMark mark [] none
  | present {m t : Token} (hm : m.kind = .symbol mark) (ht : t.kind = .identifier) :
    TypeMark mark [m, t] (some t.lexeme)

/-- What a list of tokens can be read as. -/
inductive Phrase where
  /-- An expression of a level. -/
  | expr (l : Level) (e : Expr)
  /-- One or more expressions with commas between them. -/
  | exprs (es : List Expr)
  /-- Expressions with commas between them, or nothing. -/
  | arguments (es : List Expr)
  | parameter (p : Parameter)
  /-- One or more parameters with commas between them. -/
  | parameterList (ps : List Parameter)
  /-- Parameters with commas between them, or nothing. -/
  | parameters (ps : List Parameter)
  /-- A statement that declares nothing. -/
  | statement (s : Stmt)
  /-- A declaration or another statement. -/
  | declaration (s : Stmt)
  /-- Any number of declarations with newlines before and behind them. -/
  | body (ss : List Stmt)

/-- The tokens can be read as the phrase. -/
inductive Derives : Phrase → List Token → Prop where
  -- Expressions. Parentheses leave no trace in the tree.
  | literal {t : Token} {v : Value} (ht : t.leaf? = some v) :
    Derives (.expr .primary (.literal t.position v)) [t]
  | name {t : Token} (ht : t.kind = .identifier) :
    Derives (.expr .primary (.name t.position t.lexeme)) [t]
  | paren {lp rp : Token} {ts : List Token} {e : Expr} (hl : lp.kind = .symbol .leftParen)
      (he : Derives (.expr .assignment e) ts) (hr : rp.kind = .symbol .rightParen) :
    Derives (.expr .primary e) (lp :: ts ++ [rp])
  | call {lp rp : Token} {ts us : List Token} {f : Expr} {es : List Expr}
      (hf : Derives (.expr .chain f) ts) (hl : lp.kind = .symbol .leftParen)
      (ha : Derives (.arguments es) us) (hr : rp.kind = .symbol .rightParen) :
    Derives (.expr .chain (.call f.pos f es)) (ts ++ lp :: us ++ [rp])
  | index {lb rb : Token} {ts us : List Token} {a i : Expr} (ha : Derives (.expr .chain a) ts)
      (hl : lb.kind = .symbol .leftBracket) (hi : Derives (.expr .assignment i) us)
      (hr : rb.kind = .symbol .rightBracket) :
    Derives (.expr .chain (.index a.pos a i)) (ts ++ lb :: us ++ [rb])
  | member {dot t : Token} {ts : List Token} {e : Expr} (he : Derives (.expr .chain e) ts)
      (hd : dot.kind = .symbol .dot) (ht : t.kind = .identifier) :
    Derives (.expr .chain (.member e.pos e t.lexeme)) (ts ++ [dot, t])
  | context {kw x q₁ q₂ s : Token} {ts : List Token} {e : Expr} (he : Derives (.expr .chain e) ts)
      (hk : kw.kind = .keyword .ifKw) (hx : x.kind = .identifier) (h₁ : q₁.kind = .symbol .equal)
      (h₂ : q₂.kind = .symbol .equal) (hs : s.kind = .string) :
    Derives (.expr .conditional (.context e.pos e s.stringValue)) (ts ++ [kw, x, q₁, q₂, s])
  | unary {t : Token} {op : UnaryOp} {ts : List Token} {e : Expr} (ht : t.kind ∈ op.kinds)
      (he : Derives (.expr .unary e) ts) :
    Derives (.expr .unary (.unary t.position op e)) (t :: ts)
  | binary {t : Token} {op : BinaryOp} {l : Level} {ts us : List Token} {a b : Expr}
      (hl : op.level = l) (ha : Derives (.expr l a) ts) (ht : t.kind = op.kind)
      (hb : Derives (.expr l.next b) us) :
    Derives (.expr l (.binary t.position op a b)) (ts ++ t :: us)
  | assign {t : Token} {ts us : List Token} {p : Position} {id : String} {e : Expr}
      (hx : Derives (.expr .or (.name p id)) ts) (ht : t.kind = .symbol .assign)
      (he : Derives (.expr .assignment e) us) :
    Derives (.expr .assignment (.assign t.position (.name p id) e)) (ts ++ t :: us)
  | tighter {l : Level} {ts : List Token} {e : Expr} (hl : l ≠ .primary)
      (he : Derives (.expr l.next e) ts) :
    Derives (.expr l e) ts
  | exprsOne {ts : List Token} {e : Expr} (he : Derives (.expr .assignment e) ts) :
    Derives (.exprs [e]) ts
  | exprsCons {comma : Token} {ts us : List Token} {e : Expr} {es : List Expr}
      (he : Derives (.expr .assignment e) ts) (hc : comma.kind = .symbol .comma)
      (hs : Derives (.exprs es) us) :
    Derives (.exprs (e :: es)) (ts ++ comma :: us)
  | argumentsNone : Derives (.arguments []) []
  | argumentsSome {ts : List Token} {es : List Expr} (hs : Derives (.exprs es) ts) :
    Derives (.arguments es) ts
  -- Statements. They stand at their first token.
  | exprStmt {t semi : Token} {ts : List Token} {e : Expr}
      (he : Derives (.expr .assignment e) (t :: ts)) (hs : semi.kind = .symbol .semicolon) :
    Derives (.statement (.expr t.position e)) (t :: ts ++ [semi])
  | block {lb rb : Token} {ts : List Token} {ss : List Stmt} (hl : lb.kind = .symbol .leftBrace)
      (hb : Derives (.body ss) ts) (hr : rb.kind = .symbol .rightBrace) :
    Derives (.statement (.block lb.position ss)) (lb :: ts ++ [rb])
  | ret {kw semi : Token} (hk : kw.kind = .keyword .returnKw)
      (hs : semi.kind = .symbol .semicolon) :
    Derives (.statement (.ret kw.position none)) [kw, semi]
  | retValue {kw semi : Token} {ts : List Token} {e : Expr} (hk : kw.kind = .keyword .returnKw)
      (he : Derives (.expr .assignment e) ts) (hs : semi.kind = .symbol .semicolon) :
    Derives (.statement (.ret kw.position (some e))) (kw :: ts ++ [semi])
  | ifThen {kw : Token} {ts us : List Token} {c : Expr} {s : Stmt} (hk : kw.kind = .keyword .ifKw)
      (hc : Derives (.expr .assignment c) ts) (hs : Derives (.statement s) us) :
    Derives (.statement (.ifThen kw.position c s)) (kw :: ts ++ us)
  | ifElse {kw el : Token} {ts us vs : List Token} {c : Expr} {s f : Stmt}
      (hk : kw.kind = .keyword .ifKw) (hc : Derives (.expr .assignment c) ts)
      (hs : Derives (.statement s) us) (he : el.kind = .keyword .elseKw)
      (hf : Derives (.statement f) vs) :
    Derives (.statement (.ifElse kw.position c s f)) (kw :: ts ++ us ++ el :: vs)
  | whileLoop {kw : Token} {ts us : List Token} {c : Expr} {s : Stmt}
      (hk : kw.kind = .keyword .whileKw) (hc : Derives (.expr .assignment c) ts)
      (hs : Derives (.statement s) us) :
    Derives (.statement (.whileLoop kw.position c s)) (kw :: ts ++ us)
  | forRange {kw x i d₁ d₂ : Token} {ts us vs : List Token} {a b : Expr} {s : Stmt}
      (hk : kw.kind = .keyword .forKw) (hx : x.kind = .identifier) (hi : i.kind = .keyword .inKw)
      (ha : Derives (.expr .assignment a) ts) (h₁ : d₁.kind = .symbol .dot)
      (h₂ : d₂.kind = .symbol .dot) (hb : Derives (.expr .assignment b) us)
      (hs : Derives (.statement s) vs) :
    Derives (.statement (.forRange kw.position x.lexeme a b s))
      (kw :: x :: i :: ts ++ d₁ :: d₂ :: us ++ vs)
  | plain {ts : List Token} {s : Stmt} (hs : Derives (.statement s) ts) :
    Derives (.declaration s) ts
  | declare {kw x semi : Token} {ms ts : List Token} {mutable : Bool} {type? : Option String}
      (hk : kw.kind = .keyword .letKw)
      (hm : ms.map Token.kind = if mutable then [.keyword .mutKw] else [])
      (hx : x.kind = .identifier) (ht : TypeMark .colon ts type?)
      (hs : semi.kind = .symbol .semicolon) :
    Derives (.declaration (.declare kw.position ⟨x.lexeme, type?, none, mutable⟩))
      (kw :: ms ++ x :: ts ++ [semi])
  | declareInitial {kw x q semi : Token} {ms ts us : List Token} {mutable : Bool}
      {type? : Option String} {e : Expr} (hk : kw.kind = .keyword .letKw)
      (hm : ms.map Token.kind = if mutable then [.keyword .mutKw] else [])
      (hx : x.kind = .identifier) (ht : TypeMark .colon ts type?) (hq : q.kind = .symbol .assign)
      (he : Derives (.expr .assignment e) us) (hs : semi.kind = .symbol .semicolon) :
    Derives (.declaration (.declare kw.position ⟨x.lexeme, type?, some e, mutable⟩))
      (kw :: ms ++ x :: ts ++ q :: us ++ [semi])
  | parameter {x c t : Token} (hx : x.kind = .identifier) (hc : c.kind = .symbol .colon)
      (ht : t.kind = .identifier) : Derives (.parameter ⟨x.lexeme, t.lexeme⟩) [x, c, t]
  | parameterListOne {ts : List Token} {p : Parameter} (hp : Derives (.parameter p) ts) :
    Derives (.parameterList [p]) ts
  | parameterListCons {comma : Token} {ts us : List Token} {p : Parameter} {ps : List Parameter}
      (hp : Derives (.parameter p) ts) (hc : comma.kind = .symbol .comma)
      (hs : Derives (.parameterList ps) us) :
    Derives (.parameterList (p :: ps)) (ts ++ comma :: us)
  | parametersNone : Derives (.parameters []) []
  | parametersSome {ts : List Token} {ps : List Parameter} (hs : Derives (.parameterList ps) ts) :
    Derives (.parameters ps) ts
  | function {kw x lp rp lb rb : Token} {ps rs bs : List Token} {params : List Parameter}
      {result : Option String} {ss : List Stmt} (hk : kw.kind = .keyword .fnKw)
      (hx : x.kind = .identifier) (hlp : lp.kind = .symbol .leftParen)
      (hp : Derives (.parameters params) ps) (hrp : rp.kind = .symbol .rightParen)
      (hr : TypeMark .arrow rs result) (hlb : lb.kind = .symbol .leftBrace)
      (hb : Derives (.body ss) bs) (hrb : rb.kind = .symbol .rightBrace) :
    Derives (.declaration (.function kw.position ⟨x.lexeme, params, result⟩ ss))
      (kw :: x :: lp :: ps ++ rp :: rs ++ lb :: bs ++ [rb])
  -- Newlines stand before a declaration, or behind the last one.
  | bodyEnd {ns : List Token} (hn : ∀ n ∈ ns, n.kind = .newline) : Derives (.body []) ns
  | bodyCons {ns ts us : List Token} {s : Stmt} {ss : List Stmt} (hn : ∀ n ∈ ns, n.kind = .newline)
      (hs : Derives (.declaration s) ts) (hb : Derives (.body ss) us) :
    Derives (.body (s :: ss)) (ns ++ ts ++ us)

/-- An expression of a level can stand where a looser one is asked for. -/
theorem Derives.loosen {l l' : Level} {e : Expr} {ts : List Token}
    (h : Derives (.expr l' e) ts) (hl : l.rank ≤ l'.rank) : Derives (.expr l e) ts := by
  induction hk : l'.rank - l.rank generalizing l with
  | zero =>
    have hll : l = l' := Level.rank_inj (by omega)
    exact hll ▸ h
  | succ k ih =>
    have hne : l ≠ .primary := by
      rintro rfl
      have := l'.rank_le_primary
      omega
    have hnext := Level.rank_next hne
    exact .tighter hne (ih (by omega) (by omega))

namespace Level

/-- What an expression of a level can start with. -/
def Starts (l : Level) (t : Token) : Prop :=
  t.leaf?.isSome ∨ t.kind = .identifier ∨ t.kind = .symbol .leftParen ∨
    l.rank ≤ unary.rank ∧ ∃ op : UnaryOp, t.kind ∈ op.kinds

/-- There is a first token, and it fits the level. -/
def Opens (l : Level) (ts : List Token) : Prop := ∃ t us, ts = t :: us ∧ l.Starts t

theorem Opens.length_pos {l : Level} {ts : List Token} (h : l.Opens ts) : 0 < ts.length := by
  obtain ⟨t, us, rfl, _⟩ := h
  simp

theorem Opens.append {l : Level} {ts : List Token} (h : l.Opens ts) (us : List Token) :
    l.Opens (ts ++ us) := by
  obtain ⟨t, vs, rfl, ht⟩ := h
  exact ⟨t, vs ++ us, rfl, ht⟩

theorem Opens.of_next {l : Level} {ts : List Token} (h : l.next.Opens ts) : l.Opens ts := by
  obtain ⟨t, us, rfl, ht⟩ := h
  refine ⟨t, us, rfl, ?_⟩
  rcases ht with h | h | h | ⟨hr, h⟩
  · exact .inl h
  · exact .inr (.inl h)
  · exact .inr (.inr (.inl h))
  · exact .inr (.inr (.inr ⟨Nat.le_trans l.rank_le_next hr, h⟩))

end Level

/-- The tokens of an expression open as its level says. -/
def Phrase.Opens : Phrase → List Token → Prop
  | .expr l _, ts => l.Opens ts
  | .exprs _, ts => Level.assignment.Opens ts
  | _, _ => True

theorem Derives.opens {phrase : Phrase} {ts : List Token} (h : Derives phrase ts) :
    phrase.Opens ts := by
  induction h with
  | literal ht => exact ⟨_, [], rfl, .inl (by simp [ht])⟩
  | name ht => exact ⟨_, [], rfl, .inr (.inl ht)⟩
  | paren hl _ _ _ => exact ⟨_, _, rfl, .inr (.inr (.inl hl))⟩
  | call _ _ _ _ ih _ => exact (ih.append _).append _
  | index _ _ _ _ ih _ => exact (ih.append _).append _
  | member _ _ _ ih => exact ih.append _
  | context _ _ _ _ _ _ ih => exact Level.Opens.of_next (l := .conditional) (ih.append _)
  | unary ht _ _ => exact ⟨_, _, rfl, .inr (.inr (.inr ⟨Nat.le_refl _, _, ht⟩))⟩
  | binary _ _ _ _ ih _ => exact ih.append _
  | assign _ _ _ ih _ => exact Level.Opens.of_next (l := .assignment) (ih.append _)
  | tighter _ _ ih => exact Level.Opens.of_next ih
  | exprsOne _ ih => exact ih
  | exprsCons _ _ _ ih _ => exact ih.append _
  | _ => trivial

theorem BinaryOp.kind_ne_eof (op : BinaryOp) : op.kind ≠ .eof := by cases op <;> decide

theorem UnaryOp.kinds_ne_eof {op : UnaryOp} {k : TokenKind} (h : k ∈ op.kinds) : k ≠ .eof := by
  rintro rfl
  cases op <;> simp [UnaryOp.kinds] at h

theorem TypeMark.kind_ne_eof {mark : Symbol} {ts : List Token} {x? : Option String}
    (h : TypeMark mark ts x?) : ∀ t ∈ ts, t.kind ≠ .eof := by
  cases h <;> simp_all

theorem kind_ne_eof_of_mark {b : Bool} {k : TokenKind} {ms : List Token} (hk : k ≠ .eof)
    (h : ms.map Token.kind = if b then [k] else []) : ∀ t ∈ ms, t.kind ≠ .eof := by
  intro t ht
  have hmem : t.kind ∈ ms.map Token.kind := List.mem_map_of_mem ht
  rw [h] at hmem
  split at hmem
  · rw [List.mem_singleton.1 hmem]
    exact hk
  · simp at hmem

/-- The end of input is no part of a phrase. -/
theorem Derives.kind_ne_eof {phrase : Phrase} {ts : List Token} (h : Derives phrase ts) :
    ∀ t ∈ ts, t.kind ≠ .eof := by
  induction h with
  | literal ht =>
    intro t' h' hk
    simp only [List.mem_singleton] at h'
    subst h'
    simp [Token.leaf?, hk] at ht
  | unary ht _ _ =>
    have hk := UnaryOp.kinds_ne_eof ht
    simp_all
  | @binary _ op _ _ _ _ _ _ _ _ _ _ _ =>
    have hk := op.kind_ne_eof
    simp_all [or_imp]
  | declare _ hm _ ht _ =>
    have hms := kind_ne_eof_of_mark (by decide) hm
    have hts := ht.kind_ne_eof
    simp_all [or_imp]
  | declareInitial _ hm _ ht _ _ _ _ =>
    have hms := kind_ne_eof_of_mark (by decide) hm
    have hts := ht.kind_ne_eof
    simp_all [or_imp]
  | function _ _ _ _ _ hr _ _ _ _ _ =>
    have hrs := hr.kind_ne_eof
    simp_all [or_imp]
  | _ => simp_all [or_imp]

end Scriptlet
