import Scriptlet.Proofs.Parse.ExpressionSound
import Scriptlet.Proofs.Parse.Input

/-! Programs that are read without an error are derivations. -/
namespace Scriptlet

namespace Parse

variable {expr : Parse Expr} {inner item : Parse Stmt} {stop kw : Token} {ts rest : List Token}

theorem typeName_sound {x : String} (h : Reads typeName stop ts x rest) :
    ∃ t, ts = t :: rest ∧ t.kind = .identifier ∧ x = t.lexeme := by
  rw [typeName, reads_require_bind] at h
  obtain ⟨t, us, rfl, ht, h⟩ := h
  obtain ⟨rfl, rfl⟩ := reads_pure.1 h
  exact ⟨t, rfl, ht, rfl⟩

theorem typeAfter_sound {mark : Symbol} {x? : Option String}
    (h : Reads (typeAfter mark) stop ts x? rest) :
    ∃ used, ts = used ++ rest ∧ TypeMark mark used x? := by
  rw [typeAfter, reads_accept_bind] at h
  obtain ⟨m, us, rfl, hm, h⟩ | ⟨_, h⟩ := h
  · simp only [if_true, reads_bind] at h
    obtain ⟨x, mid, hx, h⟩ := h
    obtain ⟨rfl, rfl⟩ := reads_pure.1 h
    obtain ⟨t, rfl, ht, rfl⟩ := typeName_sound hx
    exact ⟨[m, t], rfl, .present hm ht⟩
  · obtain ⟨rfl, rfl⟩ := reads_pure.1 h
    exact ⟨[], rfl, .absent⟩

theorem parameter_sound : Sound parameter .parameter := by
  intro stop ts p rest h
  simp only [parameter, reads_bind, reads_expect] at h
  obtain ⟨x, _, ⟨rfl, hx⟩, c, _, ⟨rfl, hc⟩, y, _, hy, h⟩ := h
  obtain ⟨rfl, rfl⟩ := reads_pure.1 h
  obtain ⟨t, rfl, ht, rfl⟩ := typeName_sound hy
  exact ⟨[x, c, t], rfl, .parameter hx hc ht⟩

theorem parameters_sound (n : Nat) : Sound (parameters n) .parameters := by
  intro stop ts ps rest h
  rw [parameters, reads_check_bind] at h
  split at h
  · obtain ⟨rfl, rfl⟩ := reads_pure.1 h
    exact ⟨[], rfl, .parametersNone⟩
  · obtain ⟨used, rfl, hd⟩ :=
      commaList_sound parameter_sound .parameterListOne .parameterListCons n h
    exact ⟨used, rfl, .parametersSome hd⟩

private theorem skipped_newlines (ts : List Token) :
    ∃ ns, ts = ns ++ ts.dropWhile (·.kind = .newline) ∧ ∀ n ∈ ns, n.kind = .newline := by
  refine ⟨ts.takeWhile (·.kind = .newline), List.takeWhile_append_dropWhile.symm, ?_⟩
  intro n hn
  simpa using List.mem_takeWhile_imp hn

/-- Statements between newlines, up to a closing token or the end. -/
theorem statements_sound {closes : TokenKind → Bool} (hi : Sound item .declaration) (n : Nat) :
    Sound (statements closes item n) .body := by
  induction n with
  | zero => exact fun _ _ _ _ h => absurd h not_reads_exhausted
  | succ n ih =>
    intro stop ts ss rest h
    rw [statements, reads_skipNewlines_bind, reads_looks_bind] at h
    obtain ⟨ns, hts, hn⟩ := skipped_newlines ts
    generalize ts.dropWhile (·.kind = .newline) = us at h hts
    subst hts
    split at h
    · obtain ⟨rfl, rfl⟩ := reads_pure.1 h
      exact ⟨ns, rfl, .bodyEnd hn⟩
    · simp only [reads_bind, reads_recover] at h
      obtain ⟨_, mid, ⟨s, rfl, hs⟩, ss', mid', hss, h⟩ := h
      obtain ⟨rfl, rfl⟩ := reads_pure.1 h
      obtain ⟨vs, rfl, hd⟩ := hi hs
      obtain ⟨ws, rfl, hd'⟩ := ih hss
      exact ⟨ns ++ vs ++ ws, by simp, .bodyCons hn hd hd'⟩

/-- Statements in braces. -/
theorem block_sound (hi : Sound item .declaration) {n : Nat} {ss : List Stmt}
    (h : Reads (block item n) stop ts ss rest) : ∃ lb used rb, ts = lb :: used ++ rb :: rest ∧
      lb.kind = .symbol .leftBrace ∧ Derives (.body ss) used ∧ rb.kind = .symbol .rightBrace := by
  simp only [block, reads_bind, reads_expect] at h
  obtain ⟨lb, _, ⟨rfl, hl⟩, ss', mid, hs, rb, _, ⟨rfl, hr⟩, h⟩ := h
  obtain ⟨rfl, rfl⟩ := reads_pure.1 h
  obtain ⟨used, rfl, hd⟩ := statements_sound hi n hs
  exact ⟨lb, used, rb, rfl, hl, hd, hr⟩

/-- A mark that may be left out. -/
theorem accept_sound {k : TokenKind} {b : Bool} (h : Reads (accept k) stop ts b rest) :
    ∃ ms, ts = ms ++ rest ∧ ms.map Token.kind = if b then [k] else [] := by
  rw [accept, reads_accept?_bind] at h
  obtain ⟨t, us, rfl, ht, h⟩ | ⟨_, h⟩ := h
  · obtain ⟨rfl, rfl⟩ := reads_pure.1 h
    exact ⟨[t], rfl, by simp [ht]⟩
  · obtain ⟨rfl, rfl⟩ := reads_pure.1 h
    exact ⟨[], rfl, rfl⟩

theorem letRest_sound (hexpr : Sound expr (.expr .assignment)) (hk : kw.kind = .keyword .letKw) :
    SoundAfter [kw] (letRest expr kw.position) .declaration := by
  intro stop ts s rest h
  rw [letRest, reads_bind] at h
  obtain ⟨mutable, _, hm, h⟩ := h
  obtain ⟨ms, rfl, hms⟩ := accept_sound hm
  rw [reads_expect_bind] at h
  obtain ⟨x, _, rfl, hx, h⟩ := h
  rw [reads_bind] at h
  obtain ⟨type?, _, ht, h⟩ := h
  obtain ⟨us, rfl, hus⟩ := typeAfter_sound ht
  rw [reads_accept_bind] at h
  obtain ⟨q, _, rfl, hq, h⟩ | ⟨_, h⟩ := h
  · simp only [if_true, reads_bind, reads_map, reads_expect] at h
    obtain ⟨_, _, ⟨e, he, rfl⟩, semi, _, ⟨rfl, hs⟩, h⟩ := h
    obtain ⟨rfl, rfl⟩ := reads_pure.1 h
    obtain ⟨vs, rfl, hd⟩ := hexpr he
    exact ⟨ms ++ x :: us ++ q :: vs ++ [semi], by simp, .declareInitial hk hms hx hus hq hd hs⟩
  · simp only [Bool.false_eq_true, if_false, reads_bind, reads_pure, reads_expect] at h
    obtain ⟨_, _, ⟨rfl, rfl⟩, semi, _, ⟨rfl, hs⟩, rfl, rfl⟩ := h
    exact ⟨ms ++ x :: us ++ [semi], by simp, .declare hk hms hx hus hs⟩

theorem functionRest_sound (hi : Sound item .declaration) {n : Nat}
    (hk : kw.kind = .keyword .fnKw) :
    SoundAfter [kw] (functionRest item n kw.position) .declaration := by
  intro stop ts s rest h
  simp only [functionRest, reads_bind, reads_expect] at h
  obtain ⟨x, _, ⟨rfl, hx⟩, lp, _, ⟨rfl, hlp⟩, ps, _, hp, rp, _, ⟨rfl, hrp⟩, r, _, hr, h⟩ := h
  obtain ⟨ss, _, hb, h⟩ := h
  obtain ⟨rfl, rfl⟩ := reads_pure.1 h
  obtain ⟨us, rfl, hps⟩ := parameters_sound n hp
  obtain ⟨vs, rfl, hrs⟩ := typeAfter_sound hr
  obtain ⟨lb, ws, rb, rfl, hlb, hbs, hrb⟩ := block_sound hi hb
  exact ⟨x :: lp :: us ++ rp :: vs ++ lb :: ws ++ [rb], by simp,
    .function hk hx hlp hps hrp hrs hlb hbs hrb⟩

theorem ifRest_sound (hexpr : Sound expr (.expr .assignment)) (hi : Sound inner .statement)
    (hk : kw.kind = .keyword .ifKw) :
    SoundAfter [kw] (ifRest expr inner kw.position) .statement := by
  intro stop ts s rest h
  rw [ifRest, reads_bind] at h
  obtain ⟨c, _, hc, h⟩ := h
  rw [reads_bind] at h
  obtain ⟨s, _, hs, h⟩ := h
  obtain ⟨us, rfl, hdc⟩ := hexpr hc
  obtain ⟨vs, rfl, hds⟩ := hi hs
  rw [reads_accept_bind] at h
  obtain ⟨el, _, rfl, he, h⟩ | ⟨_, h⟩ := h
  · simp only [if_true, reads_bind] at h
    obtain ⟨f, _, hf, h⟩ := h
    obtain ⟨rfl, rfl⟩ := reads_pure.1 h
    obtain ⟨ws, rfl, hdf⟩ := hi hf
    exact ⟨us ++ vs ++ el :: ws, by simp, .ifElse hk hdc hds he hdf⟩
  · obtain ⟨rfl, rfl⟩ := reads_pure.1 h
    have hd := Derives.ifThen hk hdc hds
    exact ⟨us ++ vs, by simp, hd⟩

theorem whileRest_sound (hexpr : Sound expr (.expr .assignment)) (hi : Sound inner .statement)
    (hk : kw.kind = .keyword .whileKw) :
    SoundAfter [kw] (whileRest expr inner kw.position) .statement := by
  intro stop ts s rest h
  simp only [whileRest, reads_bind] at h
  obtain ⟨c, _, hc, b, _, hb, h⟩ := h
  obtain ⟨rfl, rfl⟩ := reads_pure.1 h
  obtain ⟨us, rfl, hdc⟩ := hexpr hc
  obtain ⟨vs, rfl, hdb⟩ := hi hb
  have hd := Derives.whileLoop hk hdc hdb
  exact ⟨us ++ vs, by simp, hd⟩

theorem forRest_sound (hexpr : Sound expr (.expr .assignment)) (hi : Sound inner .statement)
    (hk : kw.kind = .keyword .forKw) :
    SoundAfter [kw] (forRest expr inner kw.position) .statement := by
  intro stop ts s rest h
  simp only [forRest, reads_bind, reads_expect] at h
  obtain ⟨x, _, ⟨rfl, hx⟩, i, _, ⟨rfl, hin⟩, a, _, ha, d₁, _, ⟨rfl, h₁⟩, d₂, _, ⟨rfl, h₂⟩, b, _, hb,
    t, _, ht, h⟩ := h
  obtain ⟨rfl, rfl⟩ := reads_pure.1 h
  obtain ⟨us, rfl, hda⟩ := hexpr ha
  obtain ⟨vs, rfl, hdb⟩ := hexpr hb
  obtain ⟨ws, rfl, hdt⟩ := hi ht
  exact ⟨x :: i :: us ++ d₁ :: d₂ :: vs ++ ws, by simp, .forRange hk hx hin hda h₁ h₂ hdb hdt⟩

theorem returnRest_sound (hexpr : Sound expr (.expr .assignment))
    (hk : kw.kind = .keyword .returnKw) :
    SoundAfter [kw] (returnRest expr kw.position) .statement := by
  intro stop ts s rest h
  rw [returnRest, reads_check_bind] at h
  dsimp only at h
  split at h
  · simp only [reads_bind, reads_pure, reads_expect] at h
    obtain ⟨_, _, ⟨rfl, rfl⟩, semi, _, ⟨rfl, hs⟩, rfl, rfl⟩ := h
    exact ⟨[semi], rfl, .ret hk hs⟩
  · simp only [reads_bind, reads_map, reads_expect] at h
    obtain ⟨_, _, ⟨e, he, rfl⟩, semi, _, ⟨rfl, hs⟩, h⟩ := h
    obtain ⟨rfl, rfl⟩ := reads_pure.1 h
    obtain ⟨us, rfl, hd⟩ := hexpr he
    exact ⟨us ++ [semi], by simp, .retValue hk hd hs⟩

theorem expressionStatement_sound (hexpr : Sound expr (.expr .assignment)) :
    Sound (expressionStatement expr) .statement := by
  intro stop ts s rest h
  rw [expressionStatement, reads_current_bind] at h
  simp only [reads_bind, reads_expect] at h
  obtain ⟨e, _, he, semi, _, ⟨rfl, hs⟩, h⟩ := h
  obtain ⟨rfl, rfl⟩ := reads_pure.1 h
  obtain ⟨used, rfl, hd⟩ := hexpr he
  obtain ⟨t, us, rfl, _⟩ := hd.opens
  exact ⟨t :: us ++ [semi], by simp, .exprStmt hd hs⟩

/-- What begins with a keyword, or else with something else. -/
theorem sound_accept? {α : Type} {k : TokenKind} {f : Option Token → Parse α} {phrase : α → Phrase}
    (hsome : ∀ t, t.kind = k → SoundAfter [t] (f (some t)) phrase) (hnone : Sound (f none) phrase) :
    Sound (accept? k >>= f) phrase := by
  intro stop ts a rest h
  obtain ⟨t, us, rfl, ht, h⟩ | ⟨_, h⟩ := reads_accept?_bind.1 h
  · obtain ⟨used, rfl, hd⟩ := hsome t ht h
    exact ⟨t :: used, rfl, hd⟩
  · exact hnone h

theorem statementStep_sound (hexpr : Sound expr (.expr .assignment)) (hi : Sound inner .statement)
    (hd : Sound item .declaration) (n : Nat) :
    Sound (statementStep expr inner item n) .statement := by
  refine sound_accept? (fun t ht => ifRest_sound hexpr hi ht) ?_
  refine sound_accept? (fun t ht => whileRest_sound hexpr hi ht) ?_
  refine sound_accept? (fun t ht => forRest_sound hexpr hi ht) ?_
  refine sound_accept? (fun t ht => returnRest_sound hexpr ht) ?_
  intro stop ts s rest h
  rw [reads_check_bind] at h
  split at h
  · rw [reads_current_bind, reads_bind] at h
    obtain ⟨ss, _, hb, h⟩ := h
    obtain ⟨rfl, rfl⟩ := reads_pure.1 h
    obtain ⟨lb, used, rb, rfl, hl, hs, hr⟩ := block_sound hd hb
    exact ⟨lb :: used ++ [rb], by simp, .block hl hs hr⟩
  · exact expressionStatement_sound hexpr h

theorem declarationStep_sound (hexpr : Sound expr (.expr .assignment)) (hi : Sound inner .statement)
    (hd : Sound item .declaration) (n : Nat) :
    Sound (declarationStep expr inner item n) .declaration := by
  refine sound_accept? (fun t ht => functionRest_sound hd ht) ?_
  refine sound_accept? (fun t ht => letRest_sound hexpr ht) ?_
  intro stop ts s rest h
  obtain ⟨used, hu, hs⟩ := statementStep_sound hexpr hi hd n h
  exact ⟨used, hu, .plain hs⟩

/-- Statements and declarations at once, since each may hold the other. -/
theorem within_sound (n : Nat) :
    Sound (statementWithin n) .statement ∧ Sound (declarationWithin n) .declaration := by
  induction n with
  | zero =>
    rw [statementWithin, declarationWithin]
    exact ⟨fun _ _ _ _ h => absurd h not_reads_exhausted,
      fun _ _ _ _ h => absurd h not_reads_exhausted⟩
  | succ n ih =>
    have hexpr := expressionWithin_sound (n + 1)
    rw [statementWithin, declarationWithin]
    exact ⟨statementStep_sound hexpr ih.1 ih.2 _, declarationStep_sound hexpr ih.1 ih.2 _⟩

/-- A program that is silently read takes all tokens before the end of input. -/
theorem program_derives (hts : ∀ t ∈ ts, t.kind ≠ .eof) {p : Program}
    (h : Reads program stop ts p rest) : Derives (.body p) ts ∧ rest = [] := by
  obtain ⟨_, hpast, hend⟩ := program_total stop ts
  rw [h] at hpast hend
  have hrest : rest = [] := by
    cases rest with
    | nil => rfl
    | cons t us =>
      have ht : t.kind = .eof := by simpa [atEnd] using hend
      exact absurd ht (hts t (hpast.suffix.subset List.mem_cons_self))
  subst hrest
  rw [Reads, program] at h
  obtain ⟨used, rfl, hp⟩ := statements_sound (within_sound (ts.length + 1)).2 _ h
  exact ⟨by simpa using hp, rfl⟩

end Parse

/-- A program that is read without an error is a derivation of the tokens before the end of
input, with every node at the position that its rule gives. -/
theorem parse_derives (tokens : List Token) (h : (parse tokens).2 = []) :
    Derives (.body (parse tokens).1) (tokens.takeWhile (·.kind ≠ .eof)) := by
  obtain ⟨rest, hr⟩ := reads_of_parse h
  exact (Parse.program_derives (kind_ne_eof_input tokens) hr).1

/-- `for i in 0..n {`, `let x: int = -i;` on a line of its own and `}` -/
def loopTokens : List Token :=
  [⟨.keyword .forKw, "for", none, ⟨0, 3⟩, ⟨1, 1⟩⟩, ⟨.identifier, "i", none, ⟨4, 1⟩, ⟨1, 5⟩⟩,
    ⟨.keyword .inKw, "in", none, ⟨6, 2⟩, ⟨1, 7⟩⟩,
    ⟨.integer, "0", some (.integer 0), ⟨9, 1⟩, ⟨1, 10⟩⟩,
    ⟨.symbol .dot, ".", none, ⟨10, 1⟩, ⟨1, 11⟩⟩, ⟨.symbol .dot, ".", none, ⟨11, 1⟩, ⟨1, 12⟩⟩,
    ⟨.identifier, "n", none, ⟨12, 1⟩, ⟨1, 13⟩⟩,
    ⟨.symbol .leftBrace, "\x7b", none, ⟨14, 1⟩, ⟨1, 15⟩⟩,
    ⟨.newline, "\n", none, ⟨15, 1⟩, ⟨1, 16⟩⟩, ⟨.keyword .letKw, "let", none, ⟨16, 3⟩, ⟨2, 1⟩⟩,
    ⟨.identifier, "x", none, ⟨20, 1⟩, ⟨2, 5⟩⟩, ⟨.symbol .colon, ":", none, ⟨21, 1⟩, ⟨2, 6⟩⟩,
    ⟨.identifier, "int", none, ⟨23, 3⟩, ⟨2, 8⟩⟩,
    ⟨.symbol .assign, "=", none, ⟨27, 1⟩, ⟨2, 12⟩⟩,
    ⟨.symbol .minus, "-", none, ⟨29, 1⟩, ⟨2, 14⟩⟩, ⟨.identifier, "i", none, ⟨30, 1⟩, ⟨2, 15⟩⟩,
    ⟨.symbol .semicolon, ";", none, ⟨31, 1⟩, ⟨2, 16⟩⟩,
    ⟨.newline, "\n", none, ⟨32, 1⟩, ⟨2, 17⟩⟩,
    ⟨.symbol .rightBrace, "\x7d", none, ⟨33, 1⟩, ⟨3, 1⟩⟩, ⟨.eof, "", none, ⟨34, 0⟩, ⟨3, 2⟩⟩]

theorem parse_loopTokens :
    parse loopTokens =
        ([.forRange ⟨1, 1⟩ "i" (.literal ⟨1, 10⟩ (.integer 0)) (.name ⟨1, 13⟩ "n")
          (.block ⟨1, 15⟩
            [.declare ⟨2, 1⟩
              ⟨"x", some "int", some (.unary ⟨2, 14⟩ .negate (.name ⟨2, 15⟩ "i")), false⟩])], []) ∧
      Derives (.body (parse loopTokens).1) (loopTokens.takeWhile (·.kind ≠ .eof)) :=
  ⟨rfl, parse_derives loopTokens rfl⟩

end Scriptlet
