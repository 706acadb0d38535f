import Mathlib.Logic.Basic
import Scriptlet.Proofs.Parse.ExpressionComplete
import Scriptlet.Proofs.Parse.StatementProgress

/-! Every derivation of a program is found by the reader, if the bodies of its loops and the
branches of its conditionals stand in braces. -/
namespace Scriptlet

namespace Stmt

def isBlock : Stmt → Bool
  | .block .. => true
  | _ => false

/-- Whether the statement is a block or a conditional. -/
def isBranch : Stmt → Bool
  | .block .. | .ifThen .. | .ifElse .. => true
  | _ => false

end Stmt

mutual

/-- Whether bodies and branches are blocks all through the statement. Behind an `else` there may be
another conditional too. -/
def Stmt.bodied : Stmt → Bool
  | .expr .. | .declare .. | .ret .. => true
  | .block _ ss | .function _ _ ss => Stmt.allBodied ss
  | .ifThen _ _ s | .whileLoop _ _ s | .forRange _ _ _ _ s => s.isBlock && s.bodied
  | .ifElse _ _ s f => (s.isBlock && s.bodied) && (f.isBranch && f.bodied)

def Stmt.allBodied : List Stmt → Bool
  | [] => true
  | s :: ss => s.bodied && Stmt.allBodied ss

end

namespace TokenKind

/-- The kinds of tokens that an expression can start with. -/
def exprOpeners : List TokenKind :=
  [.integer, .float, .string, .boolean, .identifier, .symbol .leftParen, .keyword .notKw,
    .symbol .bang, .symbol .minus, .symbol .plus]

/-- The kinds of tokens that a statement without a declaration can start with. -/
def stmtOpeners : List TokenKind :=
  [.keyword .ifKw, .keyword .whileKw, .keyword .forKw, .keyword .returnKw, .symbol .leftBrace] ++
    exprOpeners

/-- The kinds of tokens that a statement can start with. -/
def declOpeners : List TokenKind := [.keyword .fnKw, .keyword .letKw] ++ stmtOpeners

end TokenKind

open TokenKind

/-- There is a first token, and it is of one of the kinds. -/
def Begins (ks : List TokenKind) (ts : List Token) : Prop := ∃ t us, ts = t :: us ∧ t.kind ∈ ks

section Begins

variable {ks ks' : List TokenKind} {k : TokenKind} {t : Token} {ts rest : List Token}

theorem begins_cons (h : t.kind ∈ ks) : Begins ks (t :: ts) := ⟨t, ts, rfl, h⟩

theorem Begins.mono (h : Begins ks ts) (hk : ks ⊆ ks') : Begins ks' ts := by
  obtain ⟨t, us, rfl, ht⟩ := h
  exact begins_cons (hk ht)

theorem Begins.length_pos (h : Begins ks ts) : 0 < ts.length := by
  obtain ⟨t, us, rfl, _⟩ := h
  exact Nat.succ_pos _

theorem Begins.append (h : Begins ks ts) : Begins ks (ts ++ rest) := by
  obtain ⟨t, us, rfl, ht⟩ := h
  exact begins_cons ht

theorem Begins.notNext (h : Begins ks ts) (hk : k ∉ ks) : Parse.NotNext k (ts ++ rest) := by
  obtain ⟨t, us, rfl, ht⟩ := h
  exact Parse.notNext_cons.2 (ne_of_mem_of_not_mem ht hk)

/-- An expression ends before an opening brace. -/
theorem Begins.stops {l : Level} (h : Begins [.symbol .leftBrace] ts) : l.Stops (ts ++ rest) := by
  obtain ⟨t, us, rfl, ht⟩ := h
  exact Level.stops_cons (by simp [List.mem_singleton.1 ht])

end Begins

/-- Two dots are no member access, so an expression ends before them. -/
theorem Level.stops_range {l : Level} {d₁ d₂ : Token} {ts : List Token}
    (h₁ : d₁.kind = .symbol .dot) (h₂ : d₂.kind = .symbol .dot) : l.Stops (d₁ :: d₂ :: ts) := by
  rintro l' _ ⟨t, ht, _, hd, _⟩
  cases ht
  have hm : Parse.memberDot (d₁ :: d₂ :: ts) = true := hd h₁
  simp [Parse.memberDot, h₂] at hm

namespace Derives

variable {ts rest : List Token} {s : Stmt}

theorem begins_expr {e : Expr} (h : Derives (.expr .assignment e) ts) : Begins exprOpeners ts := by
  obtain ⟨t, us, rfl, ht⟩ := h.opens
  refine begins_cons ?_
  rcases ht with hleaf | hname | hparen | ⟨_, op, hop⟩
  · rcases Token.kind_of_leaf? hleaf with hk | hk | hk | hk <;> simp [hk, exprOpeners]
  · simp [hname, exprOpeners]
  · simp [hparen, exprOpeners]
  · have hsub : op.kinds ⊆ exprOpeners := by cases op <;> decide
    exact hsub hop

theorem begins_stmt (h : Derives (.statement s) ts) : Begins stmtOpeners ts := by
  cases h with
  | exprStmt he hs => exact (he.begins_expr.mono (List.subset_append_right _ _)).append
  | block hk _ _ => exact begins_cons (hk ▸ by decide)
  | ret hk _ => exact begins_cons (hk ▸ by decide)
  | retValue hk _ _ => exact begins_cons (hk ▸ by decide)
  | ifThen hk _ _ => exact begins_cons (hk ▸ by decide)
  | ifElse hk _ _ _ _ => exact begins_cons (hk ▸ by decide)
  | whileLoop hk _ _ => exact begins_cons (hk ▸ by decide)
  | forRange hk _ _ _ _ _ _ _ => exact begins_cons (hk ▸ by decide)

theorem begins_decl (h : Derives (.declaration s) ts) : Begins declOpeners ts := by
  cases h with
  | plain hs => exact hs.begins_stmt.mono (List.subset_append_right _ _)
  | declare hk _ _ _ _ => exact begins_cons (hk ▸ by decide)
  | declareInitial hk _ _ _ _ _ _ => exact begins_cons (hk ▸ by decide)
  | function hk _ _ _ _ _ _ _ _ => exact begins_cons (hk ▸ by decide)

theorem begins_block (h : Derives (.statement s) ts) (hs : s.isBlock) :
    Begins [.symbol .leftBrace] ts := by
  cases h with
  | block hl _ _ => exact begins_cons (List.mem_singleton.2 hl)
  | _ => simp [Stmt.isBlock] at hs

/-- What stands behind a list of statements comes first only if the list has no tokens. -/
theorem notNext_body {k : TokenKind} {ss : List Stmt} (h : Derives (.body ss) ts)
    (hn : k ≠ .newline) (hk : k ∉ declOpeners) (hr : Parse.NotNext k rest) :
    Parse.NotNext k (ts ++ rest) := by
  have hnewline : ∀ {ns us : List Token}, (∀ n ∈ ns, n.kind = .newline) →
      Parse.NotNext k us → Parse.NotNext k (ns ++ us) := by
    intro ns us hns hus
    cases ns with
    | nil => exact hus
    | cons n ns => exact Parse.notNext_cons.2 ((hns n (.head _)).symm ▸ hn.symm)
  cases h with
  | bodyEnd hns => exact hnewline hns hr
  | bodyCons hns hd _ =>
    rw [List.append_assoc, List.append_assoc]
    exact hnewline hns (hd.begins_decl.notNext hk)

end Derives

namespace Parse

variable {stop t kw semi : Token} {ts us vs ms rest : List Token} {s f : Stmt} {ss : List Stmt}
  {e c a b : Expr} {n : Nat} {x : Token}

/-- A mark that may be left out. -/
theorem accept_complete {k : TokenKind} {b : Bool}
    (h : ms.map Token.kind = if b then [k] else []) (hr : NotNext k rest) :
    Reads (accept k) stop (ms ++ rest) b rest := by
  rw [accept, reads_accept?_bind]
  cases b with
  | true =>
    obtain ⟨t, rfl, ht⟩ := List.map_eq_singleton_iff.1 h
    exact .inl ⟨t, rest, rfl, ht, reads_return⟩
  | false =>
    obtain rfl := List.map_eq_nil_iff.1 h
    exact .inr ⟨hr, reads_return⟩

theorem typeName_complete (ht : t.kind = .identifier) :
    Reads typeName stop (t :: rest) t.lexeme rest :=
  reads_require_bind.2 ⟨t, rest, rfl, ht, reads_return⟩

theorem typeAfter_complete {mark : Symbol} {x? : Option String} (h : TypeMark mark ts x?)
    (hr : NotNext (.symbol mark) rest) : Reads (typeAfter mark) stop (ts ++ rest) x? rest := by
  rw [typeAfter, reads_accept_bind]
  cases h with
  | absent => exact .inr ⟨hr, reads_return⟩
  | @present m t hm ht =>
    have hx : Reads typeName stop (t :: rest) t.lexeme rest := typeName_complete ht
    exact .inl ⟨m, t :: rest, rfl, hm, reads_bind.2 ⟨t.lexeme, rest, hx, reads_return⟩⟩

theorem parameter_complete {p : Parameter} (h : Derives (.parameter p) ts) :
    Reads parameter stop (ts ++ rest) p rest := by
  cases h with
  | @parameter x c t hx hc ht =>
    refine reads_expect_bind.2 ⟨x, c :: t :: rest, rfl, hx, ?_⟩
    refine reads_expect_bind.2 ⟨c, t :: rest, rfl, hc, ?_⟩
    exact reads_bind.2 ⟨t.lexeme, rest, typeName_complete ht, reads_return⟩

theorem begins_parameterList {ps : List Parameter} (h : Derives (.parameterList ps) ts) :
    Begins [.identifier] ts := by
  have hone : ∀ {p : Parameter} {us : List Token}, Derives (.parameter p) us →
      Begins [.identifier] us := by
    rintro p us ⟨⟩
    exact begins_cons (List.mem_singleton.2 ‹_›)
  cases h with
  | parameterListOne hp => exact hone hp
  | parameterListCons hp _ _ => exact (hone hp).append

theorem parameterList_complete {ps : List Parameter} (h : Derives (.parameterList ps) ts)
    (hn : ts.length ≤ n) (hc : NotNext (.symbol .comma) rest) :
    Reads (commaList parameter n) stop (ts ++ rest) ps rest := by
  induction n generalizing ts ps with
  | zero => exact absurd (begins_parameterList h).length_pos (by omega)
  | succ n ih =>
    cases h with
    | parameterListOne hp => exact commaList_one (parameter_complete hp) hc
    | @parameterListCons comma us vs p ps hp hk hps =>
      simp only [List.length_append, List.length_cons] at hn
      rw [List.append_assoc, List.cons_append]
      exact commaList_cons (parameter_complete hp) hk (ih hps (by omega))

theorem parameters_complete {ps : List Parameter} (h : Derives (.parameters ps) ts)
    (hn : ts.length ≤ n) (hr : x.kind = .symbol .rightParen) :
    Reads (parameters n) stop (ts ++ x :: rest) ps (x :: rest) := by
  rw [parameters, reads_check_bind]
  cases h with
  | parametersNone =>
    rw [List.nil_append, List.head?_cons, Option.any_some, if_pos (by simpa using hr)]
    exact reads_return
  | parametersSome hps =>
    have hne : NotNext (.symbol .rightParen) (ts ++ x :: rest) :=
      (begins_parameterList hps).notNext (by decide)
    rw [hne.any_eq_false, if_neg Bool.false_ne_true]
    exact parameterList_complete hps hn (by simp [hr])

theorem accept?_bind_cons {β : Type} {k : TokenKind} {g : Option Token → Parse β} :
    (accept? k >>= g) stop (t :: ts) =
      if t.kind = k then g (some t) stop ts else g none stop (t :: ts) := by
  by_cases h : t.kind = k
  · have hr : Reads (accept? k) stop (t :: ts) (some t) ts := by simp [Reads, accept?, take?, h]
    rw [if_pos h, bind_silent hr]
  · have hr : Reads (accept? k) stop (t :: ts) none (t :: ts) := by simp [Reads, accept?, take?, h]
    rw [if_neg h, bind_silent hr]

/-- The first token tells of what form a statement is. -/
theorem statement_cons : statement stop (t :: ts) =
    if t.kind = .keyword .ifKw then ifRest expression statement t.position stop ts
    else if t.kind = .keyword .whileKw then whileRest expression statement t.position stop ts
    else if t.kind = .keyword .forKw then forRest expression statement t.position stop ts
    else if t.kind = .keyword .returnKw then returnRest expression t.position stop ts
    else if t.kind = .symbol .leftBrace then
      (Stmt.block t.position <$> block declaration (ts.length + 2)) stop (t :: ts)
    else expressionStatement expression stop (t :: ts) := by
  have hc {g : Bool → Parse Stmt} : (check (.symbol .leftBrace) >>= g) stop (t :: ts) =
      g (t.kind = .symbol .leftBrace) stop (t :: ts) := rfl
  rw [(statement_eq (Nat.lt_succ_self _)).1]
  simp only [statementStep, accept?_bind_cons, hc, List.length_cons]
  by_cases hb : t.kind = .symbol .leftBrace
  · simp only [hb]
    rfl
  · simp only [hb]
    rfl

/-- Declarations have keywords of their own. -/
theorem declaration_cons : declaration stop (t :: ts) =
    if t.kind = .keyword .fnKw then functionRest declaration (ts.length + 2) t.position stop ts
    else if t.kind = .keyword .letKw then letRest expression t.position stop ts
    else statement stop (t :: ts) := by
  have hlt := Nat.lt_succ_self (t :: ts).length
  rw [(statement_eq hlt).1, (statement_eq hlt).2]
  simp only [declarationStep, accept?_bind_cons, List.length_cons]

section Lists

variable {closes : TokenKind → Bool}

theorem reads_statements_end {item : Parse Stmt}
    (h : ends closes (ts.dropWhile (·.kind = .newline))) :
    Reads (statements closes item (n + 1)) stop ts [] (ts.dropWhile (·.kind = .newline)) := by
  rw [statements, reads_skipNewlines_bind, reads_looks_bind, if_pos h]
  exact reads_return

theorem reads_statements_item {item : Parse Stmt}
    (h : ¬ ends closes (ts.dropWhile (·.kind = .newline)))
    (hs : Reads item stop (ts.dropWhile (·.kind = .newline)) s us)
    (hss : Reads (statements closes item n) stop us ss rest) :
    Reads (statements closes item (n + 1)) stop ts (s :: ss) rest := by
  rw [statements, reads_skipNewlines_bind, reads_looks_bind, if_neg h]
  refine reads_bind.2 ⟨some s, us, reads_recover.2 ⟨s, rfl, hs⟩, ?_⟩
  exact reads_bind.2 ⟨ss, rest, hss, reads_return⟩

/-- What ends a list of statements is a brace or the end of input. -/
theorem kind_of_ends (hc : ∀ k, closes k → k = .symbol .rightBrace) (h : ends closes (t :: ts)) :
    t.kind = .eof ∨ t.kind = .symbol .rightBrace := by
  have hend : t.kind = .eof ∨ closes t.kind := by simpa [ends, atEnd] using h
  exact hend.imp_right (hc _)

/-- The statements are read up to a token that closes the list, or to the end of input. -/
def ReadsBody (ss : List Stmt) (ts : List Token) : Prop :=
  ∀ (closes : TokenKind → Bool) (stop : Token) (rest : List Token) (n : Nat),
    (∀ k, closes k → k = .symbol .rightBrace) → ends closes rest → ts.length < n →
      Reads (statements closes declaration n) stop (ts ++ rest) ss rest

theorem block_complete {lb rb : Token} (hl : lb.kind = .symbol .leftBrace) (hb : ReadsBody ss ts)
    (hr : rb.kind = .symbol .rightBrace) (hn : ts.length < n) :
    Reads (block declaration n) stop (lb :: (ts ++ rb :: rest)) ss rest := by
  have hbody : Reads (statements (· = .symbol .rightBrace) declaration n) stop (ts ++ rb :: rest)
      ss (rb :: rest) :=
    hb _ stop _ n (fun _ => of_decide_eq_true) (by simp [ends, hr]) hn
  refine reads_expect_bind.2 ⟨lb, _, rfl, hl, reads_bind.2 ⟨ss, _, hbody, ?_⟩⟩
  exact reads_expect_bind.2 ⟨rb, rest, rfl, hr, reads_return⟩

theorem readsBody_end (hn : ∀ n ∈ ts, n.kind = .newline) : ReadsBody [] ts := by
  intro closes stop rest n hc hr hlen
  obtain ⟨m, rfl⟩ : ∃ m, n = m + 1 := ⟨n - 1, by omega⟩
  have hrest : rest.dropWhile (·.kind = .newline) = rest := by
    cases rest with
    | nil => rfl
    | cons t us =>
      obtain ht | ht := kind_of_ends hc hr
      · exact List.dropWhile_cons_of_neg (by simp [ht])
      · exact List.dropWhile_cons_of_neg (by simp [ht])
  have hskip : (ts ++ rest).dropWhile (·.kind = .newline) = rest := by
    rw [List.dropWhile_append_of_pos (by simpa using hn), hrest]
  have hread : Reads (statements closes declaration (m + 1)) stop (ts ++ rest) []
      ((ts ++ rest).dropWhile (·.kind = .newline)) := reads_statements_end (by rwa [hskip])
  rwa [hskip] at hread

theorem readsBody_cons {ns : List Token} (hn : ∀ n ∈ ns, n.kind = .newline)
    (hd : Begins declOpeners ts)
    (hs : ∀ stop rest, NotNext (.keyword .elseKw) rest → Reads declaration stop (ts ++ rest) s rest)
    (hb : Derives (.body ss) us) (hss : ReadsBody ss us) :
    ReadsBody (s :: ss) (ns ++ ts ++ us) := by
  intro closes stop rest n hc hr hlen
  obtain ⟨m, rfl⟩ : ∃ m, n = m + 1 := ⟨n - 1, by omega⟩
  -- No `else` can follow, since none starts a statement and none closes the list.
  have helse : NotNext (.keyword .elseKw) (us ++ rest) := by
    refine hb.notNext_body (by decide) (by decide) ?_
    cases rest with
    | nil => exact notNext_nil
    | cons t rest =>
      refine notNext_cons.2 fun hk => ?_
      obtain ht | ht := kind_of_ends hc hr
      · simp [hk] at ht
      · simp [hk] at ht
  have hread := hs stop (us ++ rest) helse
  have hpos := hd.length_pos
  simp only [List.length_append] at hlen
  obtain ⟨t, vs, rfl, ht⟩ := hd
  have hskip : (ns ++ t :: vs ++ us ++ rest).dropWhile (·.kind = .newline) =
      t :: (vs ++ (us ++ rest)) := by
    have hk : t.kind ≠ .newline := ne_of_mem_of_not_mem ht (by decide)
    rw [List.append_assoc, List.append_assoc, List.dropWhile_append_of_pos (by simpa using hn)]
    exact List.dropWhile_cons_of_neg (by simpa using hk)
  have hopen : ¬ ends closes (t :: (vs ++ (us ++ rest))) := fun hends => by
    obtain hk | hk := kind_of_ends hc hends
    · exact absurd (hk ▸ ht) (by decide)
    · exact absurd (hk ▸ ht) (by decide)
  rw [← hskip] at hopen
  refine reads_statements_item hopen ?_ (hss closes stop rest m hc hr (by omega))
  rw [hskip]
  exact hread

end Lists

/-! Statements of each form, from the readings of their parts. -/

theorem exprStmt_complete (he : Derives (.expr .assignment e) (t :: ts))
    (hs : semi.kind = .symbol .semicolon) :
    Reads statement stop (t :: (ts ++ semi :: rest)) (.expr t.position e) rest := by
  have hread : Reads expression stop (t :: ts ++ semi :: rest) e (semi :: rest) :=
    expression_complete he (Level.stops_cons (by simp [hs]))
  have hk : t.kind ∈ exprOpeners := by
    obtain ⟨_, _, ⟨⟩, ht⟩ := he.begins_expr
    exact ht
  have hne (k : TokenKind) (h : k ∉ exprOpeners) : t.kind ≠ k := ne_of_mem_of_not_mem hk h
  rw [Reads, statement_cons, if_neg (hne _ (by decide)), if_neg (hne _ (by decide)),
    if_neg (hne _ (by decide)), if_neg (hne _ (by decide)), if_neg (hne _ (by decide))]
  refine reads_current_bind.2 (reads_bind.2 ⟨e, _, hread, ?_⟩)
  exact reads_expect_bind.2 ⟨semi, rest, rfl, hs, reads_return⟩

theorem blockStmt_complete {lb rb : Token} (hl : lb.kind = .symbol .leftBrace)
    (hb : ReadsBody ss ts) (hr : rb.kind = .symbol .rightBrace) :
    Reads statement stop (lb :: (ts ++ rb :: rest)) (.block lb.position ss) rest := by
  rw [Reads, statement_cons, if_neg (by simp [hl]), if_neg (by simp [hl]), if_neg (by simp [hl]),
    if_neg (by simp [hl]), if_pos hl]
  refine reads_map.2 ⟨ss, block_complete hl hb hr ?_, rfl⟩
  simp only [List.length_append, List.length_cons]
  omega

theorem ret_complete (hk : kw.kind = .keyword .returnKw) (hs : semi.kind = .symbol .semicolon) :
    Reads statement stop (kw :: semi :: rest) (.ret kw.position none) rest := by
  rw [Reads, statement_cons, if_neg (by simp [hk]), if_neg (by simp [hk]), if_neg (by simp [hk]),
    if_pos hk]
  refine reads_check_bind.2 ?_
  simp only [List.head?_cons, Option.any_some, hs, decide_true, if_true]
  refine reads_bind.2 ⟨none, _, reads_return, ?_⟩
  exact reads_expect_bind.2 ⟨semi, rest, rfl, hs, reads_return⟩

theorem retValue_complete (hk : kw.kind = .keyword .returnKw)
    (he : Derives (.expr .assignment e) ts) (hs : semi.kind = .symbol .semicolon) :
    Reads statement stop (kw :: (ts ++ semi :: rest)) (.ret kw.position (some e)) rest := by
  have hread : Reads expression stop (ts ++ semi :: rest) e (semi :: rest) :=
    expression_complete he (Level.stops_cons (by simp [hs]))
  have hne : NotNext (.symbol .semicolon) (ts ++ semi :: rest) :=
    he.begins_expr.notNext (by decide)
  rw [Reads, statement_cons, if_neg (by simp [hk]), if_neg (by simp [hk]), if_neg (by simp [hk]),
    if_pos hk]
  refine reads_check_bind.2 ?_
  rw [hne.any_eq_false]
  refine reads_bind.2 ⟨some e, _, reads_map.2 ⟨e, hread, rfl⟩, ?_⟩
  exact reads_expect_bind.2 ⟨semi, rest, rfl, hs, reads_return⟩

theorem ifThen_complete (hk : kw.kind = .keyword .ifKw) (hc : Derives (.expr .assignment c) ts)
    (hb : Begins [.symbol .leftBrace] us) (hs : Reads statement stop (us ++ rest) s rest)
    (he : NotNext (.keyword .elseKw) rest) :
    Reads statement stop (kw :: (ts ++ (us ++ rest))) (.ifThen kw.position c s) rest := by
  have hcond : Reads expression stop (ts ++ (us ++ rest)) c (us ++ rest) :=
    expression_complete hc hb.stops
  rw [Reads, statement_cons, if_pos hk]
  refine reads_bind.2 ⟨c, _, hcond, reads_bind.2 ⟨s, rest, hs, ?_⟩⟩
  exact reads_accept_bind.2 (.inr ⟨he, reads_return⟩)

theorem ifElse_complete {el : Token} (hk : kw.kind = .keyword .ifKw)
    (hc : Derives (.expr .assignment c) ts) (hb : Begins [.symbol .leftBrace] us)
    (hs : Reads statement stop (us ++ el :: (vs ++ rest)) s (el :: (vs ++ rest)))
    (he : el.kind = .keyword .elseKw) (hf : Reads statement stop (vs ++ rest) f rest) :
    Reads statement stop (kw :: (ts ++ (us ++ el :: (vs ++ rest)))) (.ifElse kw.position c s f)
      rest := by
  have hcond : Reads expression stop (ts ++ (us ++ el :: (vs ++ rest))) c
      (us ++ el :: (vs ++ rest)) := expression_complete hc hb.stops
  rw [Reads, statement_cons, if_pos hk]
  refine reads_bind.2 ⟨c, _, hcond, reads_bind.2 ⟨s, _, hs, ?_⟩⟩
  refine reads_accept_bind.2 (.inl ⟨el, vs ++ rest, rfl, he, ?_⟩)
  exact reads_bind.2 ⟨f, rest, hf, reads_return⟩

theorem whileLoop_complete (hk : kw.kind = .keyword .whileKw)
    (hc : Derives (.expr .assignment c) ts) (hb : Begins [.symbol .leftBrace] us)
    (hs : Reads statement stop (us ++ rest) s rest) :
    Reads statement stop (kw :: (ts ++ (us ++ rest))) (.whileLoop kw.position c s) rest := by
  have hcond : Reads expression stop (ts ++ (us ++ rest)) c (us ++ rest) :=
    expression_complete hc hb.stops
  rw [Reads, statement_cons, if_neg (by simp [hk]), if_pos hk]
  exact reads_bind.2 ⟨c, _, hcond, reads_bind.2 ⟨s, rest, hs, reads_return⟩⟩

theorem forRange_complete {i d₁ d₂ : Token} (hk : kw.kind = .keyword .forKw)
    (hx : x.kind = .identifier) (hi : i.kind = .keyword .inKw)
    (ha : Derives (.expr .assignment a) ts) (h₁ : d₁.kind = .symbol .dot)
    (h₂ : d₂.kind = .symbol .dot) (hb : Derives (.expr .assignment b) us)
    (hv : Begins [.symbol .leftBrace] vs) (hs : Reads statement stop (vs ++ rest) s rest) :
    Reads statement stop (kw :: x :: i :: (ts ++ d₁ :: d₂ :: (us ++ (vs ++ rest))))
      (.forRange kw.position x.lexeme a b s) rest := by
  have hfrom : Reads expression stop (ts ++ d₁ :: d₂ :: (us ++ (vs ++ rest))) a
      (d₁ :: d₂ :: (us ++ (vs ++ rest))) := expression_complete ha (Level.stops_range h₁ h₂)
  have hto : Reads expression stop (us ++ (vs ++ rest)) b (vs ++ rest) :=
    expression_complete hb hv.stops
  rw [Reads, statement_cons, if_neg (by simp [hk]), if_neg (by simp [hk]), if_pos hk]
  refine reads_expect_bind.2 ⟨x, _, rfl, hx, reads_expect_bind.2 ⟨i, _, rfl, hi, ?_⟩⟩
  refine reads_bind.2 ⟨a, _, hfrom, reads_expect_bind.2 ⟨d₁, _, rfl, h₁, ?_⟩⟩
  refine reads_expect_bind.2 ⟨d₂, _, rfl, h₂, reads_bind.2 ⟨b, _, hto, ?_⟩⟩
  exact reads_bind.2 ⟨s, rest, hs, reads_return⟩

theorem declare_complete {mutable : Bool} {type? : Option String} (hk : kw.kind = .keyword .letKw)
    (hm : ms.map Token.kind = if mutable then [.keyword .mutKw] else [])
    (hx : x.kind = .identifier) (ht : TypeMark .colon ts type?)
    (hs : semi.kind = .symbol .semicolon) :
    Reads declaration stop (kw :: (ms ++ x :: (ts ++ semi :: rest)))
      (.declare kw.position ⟨x.lexeme, type?, none, mutable⟩) rest := by
  have hmut : Reads (accept (.keyword .mutKw)) stop (ms ++ x :: (ts ++ semi :: rest)) mutable
      (x :: (ts ++ semi :: rest)) := accept_complete hm (by simp [hx])
  have htype : Reads (typeAfter .colon) stop (ts ++ semi :: rest) type? (semi :: rest) :=
    typeAfter_complete ht (by simp [hs])
  rw [Reads, declaration_cons, if_neg (by simp [hk]), if_pos hk]
  refine reads_bind.2 ⟨mutable, _, hmut, reads_expect_bind.2 ⟨x, _, rfl, hx, ?_⟩⟩
  refine reads_bind.2 ⟨type?, _, htype, reads_accept_bind.2 (.inr ⟨by simp [hs], ?_⟩)⟩
  refine reads_bind.2 ⟨none, _, reads_return, ?_⟩
  exact reads_expect_bind.2 ⟨semi, rest, rfl, hs, reads_return⟩

theorem declareInitial_complete {q : Token} {mutable : Bool} {type? : Option String}
    (hk : kw.kind = .keyword .letKw)
    (hm : ms.map Token.kind = if mutable then [.keyword .mutKw] else [])
    (hx : x.kind = .identifier) (ht : TypeMark .colon ts type?) (hq : q.kind = .symbol .assign)
    (he : Derives (.expr .assignment e) us) (hs : semi.kind = .symbol .semicolon) :
    Reads declaration stop (kw :: (ms ++ x :: (ts ++ q :: (us ++ semi :: rest))))
      (.declare kw.position ⟨x.lexeme, type?, some e, mutable⟩) rest := by
  have hmut : Reads (accept (.keyword .mutKw)) stop
      (ms ++ x :: (ts ++ q :: (us ++ semi :: rest))) mutable
      (x :: (ts ++ q :: (us ++ semi :: rest))) := accept_complete hm (by simp [hx])
  have htype : Reads (typeAfter .colon) stop (ts ++ q :: (us ++ semi :: rest)) type?
      (q :: (us ++ semi :: rest)) := typeAfter_complete ht (by simp [hq])
  have hread : Reads expression stop (us ++ semi :: rest) e (semi :: rest) :=
    expression_complete he (Level.stops_cons (by simp [hs]))
  rw [Reads, declaration_cons, if_neg (by simp [hk]), if_pos hk]
  refine reads_bind.2 ⟨mutable, _, hmut, reads_expect_bind.2 ⟨x, _, rfl, hx, ?_⟩⟩
  refine reads_bind.2 ⟨type?, _, htype, reads_accept_bind.2 (.inl ⟨q, _, rfl, hq, ?_⟩)⟩
  refine reads_bind.2 ⟨some e, _, reads_map.2 ⟨e, hread, rfl⟩, ?_⟩
  exact reads_expect_bind.2 ⟨semi, rest, rfl, hs, reads_return⟩

theorem function_complete {lp rp lb rb : Token} {ps rs bs : List Token} {params : List Parameter}
    {result : Option String} (hk : kw.kind = .keyword .fnKw) (hx : x.kind = .identifier)
    (hlp : lp.kind = .symbol .leftParen) (hp : Derives (.parameters params) ps)
    (hrp : rp.kind = .symbol .rightParen) (hr : TypeMark .arrow rs result)
    (hlb : lb.kind = .symbol .leftBrace) (hb : ReadsBody ss bs)
    (hrb : rb.kind = .symbol .rightBrace) :
    Reads declaration stop (kw :: x :: lp :: (ps ++ rp :: (rs ++ lb :: (bs ++ rb :: rest))))
      (.function kw.position ⟨x.lexeme, params, result⟩ ss) rest := by
  have hparams {n : Nat} (hn : ps.length ≤ n) : Reads (parameters n) stop
      (ps ++ rp :: (rs ++ lb :: (bs ++ rb :: rest))) params
      (rp :: (rs ++ lb :: (bs ++ rb :: rest))) := parameters_complete hp hn hrp
  have hresult : Reads (typeAfter .arrow) stop (rs ++ lb :: (bs ++ rb :: rest)) result
      (lb :: (bs ++ rb :: rest)) := typeAfter_complete hr (by simp [hlb])
  rw [Reads, declaration_cons, if_pos hk]
  have hlen : ps.length + bs.length <
      (x :: lp :: (ps ++ rp :: (rs ++ lb :: (bs ++ rb :: rest)))).length := by
    simp only [List.length_append, List.length_cons]
    omega
  refine reads_expect_bind.2 ⟨x, _, rfl, hx, reads_expect_bind.2 ⟨lp, _, rfl, hlp, ?_⟩⟩
  refine reads_bind.2 ⟨params, _, hparams (by omega), reads_expect_bind.2 ⟨rp, _, rfl, hrp, ?_⟩⟩
  refine reads_bind.2 ⟨result, _, hresult, ?_⟩
  exact reads_bind.2 ⟨ss, rest, block_complete hlb hb hrb (by omega), reads_return⟩

end Parse

/-- Where the phrase stands in front, the reader finds it. Only behind a block may an `else` follow
that is no part of it. -/
def Phrase.Found : Phrase → List Token → Prop
  | .statement s, ts => s.bodied → ∀ stop rest,
      (¬ s.isBlock → Parse.NotNext (.keyword .elseKw) rest) →
        Parse.Reads Parse.statement stop (ts ++ rest) s rest
  | .declaration s, ts => s.bodied → ∀ stop rest, Parse.NotNext (.keyword .elseKw) rest →
      Parse.Reads Parse.declaration stop (ts ++ rest) s rest
  | .body ss, ts => Stmt.allBodied ss → Parse.ReadsBody ss ts
  | _, _ => True

open Parse in
theorem Derives.found {phrase : Phrase} {ts : List Token} (h : Derives phrase ts) :
    phrase.Found ts := by
  -- A body or a branch is read with all that follows it behind it. That it is a block settles two
  -- things: the condition before it ends at its brace, and an `else` behind it is left alone.
  induction h with
  | exprStmt he hs =>
    intro _ stop rest _
    simpa using exprStmt_complete he hs
  | block hl _ hr ih =>
    intro hb stop rest _
    simpa using blockStmt_complete hl (ih hb) hr
  | ret hk hs =>
    intro _ stop rest _
    exact ret_complete hk hs
  | retValue hk he hs =>
    intro _ stop rest _
    simpa using retValue_complete hk he hs
  | ifThen hk hc hs _ ih =>
    intro hb stop rest helse
    rw [Stmt.bodied, Bool.and_eq_true] at hb
    have hread := ih hb.2 stop rest (absurd hb.1)
    simpa using ifThen_complete hk hc (hs.begins_block hb.1) hread (helse (by simp [Stmt.isBlock]))
  | @ifElse _ el _ _ vs _ _ _ hk hc hs he _ _ ihs ihf =>
    intro hb stop rest helse
    simp only [Stmt.bodied, Bool.and_eq_true] at hb
    have hs' := ihs hb.1.2 stop (el :: (vs ++ rest)) (absurd hb.1.1)
    have hf' := ihf hb.2.2 stop rest fun _ => helse (by simp [Stmt.isBlock])
    simpa using ifElse_complete hk hc (hs.begins_block hb.1.1) hs' he hf'
  | whileLoop hk hc hs _ ih =>
    intro hb stop rest _
    rw [Stmt.bodied, Bool.and_eq_true] at hb
    have hread := ih hb.2 stop rest (absurd hb.1)
    simpa using whileLoop_complete hk hc (hs.begins_block hb.1) hread
  | forRange hk hx hi ha h₁ h₂ hb hs _ _ ih =>
    intro hbody stop rest _
    rw [Stmt.bodied, Bool.and_eq_true] at hbody
    have hread := ih hbody.2 stop rest (absurd hbody.1)
    simpa using forRange_complete hk hx hi ha h₁ h₂ hb (hs.begins_block hbody.1) hread
  | plain hs ih =>
    intro hb stop rest helse
    have hread := ih hb stop rest fun _ => helse
    obtain ⟨t, us, rfl, ht⟩ := hs.begins_stmt
    have hne (k : TokenKind) (h : k ∉ stmtOpeners) : t.kind ≠ k := ne_of_mem_of_not_mem ht h
    rw [List.cons_append, Reads, declaration_cons, if_neg (hne _ (by decide)),
      if_neg (hne _ (by decide))]
    exact hread
  | declare hk hm hx ht hs =>
    intro _ stop rest _
    simpa using declare_complete hk hm hx ht hs
  | declareInitial hk hm hx ht hq he hs _ =>
    intro _ stop rest _
    simpa using declareInitial_complete hk hm hx ht hq he hs
  | function hk hx hlp hp hrp hr hlb _ hrb _ ih =>
    intro hb stop rest _
    simpa using function_complete hk hx hlp hp hrp hr hlb (ih hb) hrb
  | bodyEnd hn => exact fun _ => readsBody_end hn
  | bodyCons hn hs hb ih ihs =>
    intro hbody
    rw [Stmt.allBodied, Bool.and_eq_true] at hbody
    exact readsBody_cons hn hs.begins_decl (ih hbody.1) hb (ihs hbody.2)
  | _ => trivial

/-- A program whose bodies and branches stand in braces is read from its derivation. -/
theorem Parse.program_complete {p : Program} {stop : Token} {ts : List Token}
    (h : Derives (.body p) ts) (hp : Stmt.allBodied p) : Reads program stop ts p [] := by
  have hread := h.found hp (fun _ => false) stop [] (ts.length + 1) (by simp) rfl
    (Nat.lt_succ_self _)
  rw [List.append_nil] at hread
  exact (program_eq (Nat.lt_succ_self _)).trans hread

end Scriptlet
