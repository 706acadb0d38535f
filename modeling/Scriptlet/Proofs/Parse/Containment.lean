import Scriptlet.Proofs.Parse.Boundary
import Scriptlet.Proofs.Parse.StatementComplete

/-! Faults inside a block and the text behind it. The tokens before a closing brace settle whether
the statements of the block stop before it, and then its faults stay inside the block. -/
namespace Scriptlet

namespace Parse

/-- There is no brace among the tokens. -/
def NoBrace (ts : List Token) : Prop :=
  ∀ t ∈ ts, t.kind ≠ .symbol .leftBrace ∧ t.kind ≠ .symbol .rightBrace

instance (ts : List Token) : Decidable (NoBrace ts) := inferInstanceAs (Decidable (∀ t ∈ ts, _))

variable {n : Nat} {stop c o : Token} {us ts rest : List Token} {body : List Stmt}
  {errors : List ParseError}

/-- The statements of a block end at a brace or at the end of input only. -/
private theorem eq_nil_of_ends (h : ends (· = .symbol .rightBrace) (us ++ rest))
    (he : ∀ t ∈ us, t.kind ≠ .eof) (hb : NoBrace us) : us = [] := by
  cases us with
  | nil => rfl
  | cons t us =>
    obtain ht | ht := kind_of_ends (fun _ => of_decide_eq_true) h
    · exact absurd ht (he t List.mem_cons_self)
    · exact absurd ht (hb t List.mem_cons_self).2

private theorem blockRest_close (hc : c.kind = .symbol .rightBrace) {item : Parse Stmt}
    (h : statements (· = .symbol .rightBrace) item n stop ts = ⟨.ok body, errors, c :: rest⟩) :
    blockRest item n stop ts = ⟨.ok body, errors, rest⟩ := by
  have hclose : Reads (do let _ ← expect .closeBlock; return body) stop (c :: rest) body rest :=
    reads_expect_bind.2 ⟨c, rest, rfl, hc, reads_return⟩
  rw [blockRest, bind_ok h, hclose, List.append_nil]

private theorem blockRest_open {item : Parse Stmt}
    (h : statements (· = .symbol .rightBrace) item n stop ts = ⟨.ok body, errors, []⟩) :
    blockRest item n stop ts =
      ⟨.ok body, errors ++ [.atToken (.unexpectedToken .closeBlock) stop], []⟩ := by
  rw [blockRest, bind_ok h]
  rfl

/-- The statements before a brace end before it, whatever stands behind it, or they take the brace
and, if there is no other one, all that stands behind it. -/
theorem blockRest_cases (hc : c.kind = .symbol .rightBrace) (hus : ∀ t ∈ us, t.kind ≠ .eof)
    (hb : NoBrace us) (hn : (us ++ [c]).length < n) :
    (∃ body errors, (∀ x ∈ errors, x.fault ≠ .unexpectedToken .closeBlock) ∧ ∀ stop tail,
      blockRest (declarationWithin n) n stop (us ++ c :: tail) = ⟨.ok body, errors, tail⟩) ∨
    ∀ stop tail, (us ++ c :: tail).length < n → (∀ t ∈ tail, t.kind ≠ .eof) → NoBrace tail →
      ∃ body errors, (∃ x ∈ errors, x.fault = .unexpectedToken .closeBlock) ∧
        blockRest (declarationWithin n) n stop (us ++ c :: tail) = ⟨.ok body, errors, []⟩ := by
  have hcomposed : Composed (statements (· = .symbol .rightBrace) (declarationWithin n) n) :=
    composed_statements _ (composed_within n).2 n
  have hguard : Guarded [c] := guarded_singleton (by simp [hc, TokenKind.looksOn])
  obtain ⟨⟨result, errors, mid⟩, hread, _⟩ | ⟨_, hread⟩ := hcomposed.sided hguard us
  · refine .inl ?_
    have hread (stop : Token) (tail : List Token) := hread stop tail
    simp only [Reply.before, List.nil_append] at hread
    obtain ⟨body, hbody⟩ : ∃ body, (statements (· = .symbol .rightBrace) (declarationWithin n) n c
        (us ++ [c])).result = .ok body := statementsWithin_ok hn
    have hends := ends_of_statements hbody
    have hcourse := (hcomposed.onCourse c (us ++ [c])).course
    rw [hread c []] at hbody hends hcourse
    have hbody : result = .ok body := hbody
    have hmid : mid <:+ us := ((List.suffix_append_inj_of_length_eq rfl).1 hcourse.past.suffix).1
    have hnil : mid = [] :=
      eq_nil_of_ends hends (fun t ht => hus t (hmid.mem ht)) fun t ht => hb t (hmid.mem ht)
    subst hbody hnil
    refine ⟨body, errors, fun x hx hopen => ?_, fun stop tail => ?_⟩
    · have hend := hcourse.atEnd_of_open hx hopen
      simp [atEnd, hc] at hend
    · exact blockRest_close hc (hread stop tail)
  · refine .inr fun stop tail hlen htail hbrace => ?_
    have hsuffix := hread stop tail
    rw [List.nil_append] at hsuffix
    obtain ⟨body, hbody⟩ : ∃ body, (statements (· = .symbol .rightBrace) (declarationWithin n) n
        stop (us ++ c :: tail)).result = .ok body := statementsWithin_ok hlen
    have hends := ends_of_statements hbody
    rcases hr : statements (· = .symbol .rightBrace) (declarationWithin n) n stop (us ++ c :: tail)
      with ⟨result, errors, rest⟩
    rw [hr] at hbody hends hsuffix
    have hbody : result = .ok body := hbody
    have hnil : rest = [] := by
      rw [← List.append_nil rest] at hends
      exact eq_nil_of_ends hends (fun t ht => htail t (hsuffix.mem ht)) fun t ht =>
        hbrace t (hsuffix.mem ht)
    subst hbody hnil
    refine ⟨body, _, ⟨.atToken (.unexpectedToken .closeBlock) stop, ?_, rfl⟩, blockRest_open hr⟩
    exact List.mem_append_right errors (List.mem_singleton_self _)

/-- A statement that begins with a brace is a block. -/
theorem declaration_block (ho : o.kind = .symbol .leftBrace) (hn : ts.length < n)
    (h : blockRest (declarationWithin n) n stop ts = ⟨.ok body, errors, rest⟩) :
    declaration stop (o :: ts) = ⟨.ok (.block o.position body), errors, rest⟩ := by
  have hlt : ts.length < ts.length + 2 := by omega
  have hrest : blockRest declaration (ts.length + 2) stop ts = ⟨.ok body, errors, rest⟩ := by
    rw [← h]
    simp only [blockRest, bind, statementsWithin_eq hn hlt]
  rw [declaration_cons, statement_cons]
  simp only [ho, reduceCtorEq, if_false, if_true]
  refine (bind_pure_eq _ (Stmt.block o.position) stop (o :: ts)).trans ?_
  rw [block_open ho, hrest]
  rfl

/-- A program that begins with a block goes on behind it. -/
theorem program_block (ho : o.kind = .symbol .leftBrace) (hn : ts.length < n)
    (h : blockRest (declarationWithin n) n stop ts = ⟨.ok body, errors, rest⟩) {p : Program}
    (hp : (program stop rest).result = .ok p) :
    program stop (o :: ts) =
      ⟨.ok (.block o.position body :: p), errors ++ (program stop rest).errors,
        (program stop rest).rest⟩ := by
  have hdrop : (o :: ts).dropWhile (·.kind = .newline) = o :: ts := by simp [ho]
  have hrecover : recover declaration stop (o :: ts) =
      ⟨.ok (some (.block o.position body)), errors, rest⟩ := by
    simp only [recover, catchFault, declaration_block ho hn h]
  have hnext : ¬ atEnd ((o :: ts).dropWhile (·.kind = .newline)) := by simp [hdrop, atEnd, ho]
  rw [program_of_next hnext, hdrop, bind_ok hrecover, bind_pure_eq, hp]
  rfl

end Parse

open Parse

variable {o c e : Token} {body : List Token}

/-- The tokens of a block without other braces, and an end of input behind more tokens. -/
theorem input_block {ts₂ : List Token} (ho : o.kind = .symbol .leftBrace)
    (hc : c.kind = .symbol .rightBrace) (he : e.kind = .eof) (hbody : ∀ t ∈ body, t.kind ≠ .eof)
    (h₂ : ∀ t ∈ ts₂, t.kind ≠ .eof) :
    input (o :: body ++ c :: ts₂ ++ [e]) = (e, o :: (body ++ c :: ts₂)) := by
  refine input_append ?_ he []
  simp only [List.cons_append, List.forall_mem_cons, List.forall_mem_append]
  exact ⟨by simp [ho], hbody, by simp [hc], h₂⟩

section

variable (ho : o.kind = .symbol .leftBrace) (hc : c.kind = .symbol .rightBrace) (he : e.kind = .eof)
  (hbody : ∀ t ∈ body, t.kind ≠ .eof) (hbrace : NoBrace body) (ts₂ : List Token)
  (h₂ : ∀ t ∈ ts₂, t.kind ≠ .eof)

include ho hc he hbody hbrace h₂

/-- A block without other braces has the same body and the same errors whatever stands behind it, or
it is open and takes all that stands behind it, if there is no brace in it. -/
theorem parse_block_cases :
    (∃ b errors, (∀ x ∈ errors, x.fault ≠ .unexpectedToken .closeBlock) ∧
      parse (o :: body ++ [c, e]) = ([.block o.position b], errors) ∧
      parse (o :: body ++ c :: ts₂ ++ [e]) =
        (.block o.position b :: (parse (ts₂ ++ [e])).1, errors ++ (parse (ts₂ ++ [e])).2)) ∨
    (∃ x ∈ (parse (o :: body ++ [c, e])).2, x.fault = .unexpectedToken .closeBlock) ∧
      (NoBrace ts₂ → ∃ b, (parse (o :: body ++ c :: ts₂ ++ [e])).1 = [.block o.position b]) := by
  have halone : input (o :: body ++ [c, e]) = (e, o :: (body ++ [c])) := by
    have h := input_block ho hc he hbody (List.forall_mem_nil _)
    simpa using h
  have hwhole := input_block ho hc he hbody h₂
  have hnil : program e [] = ⟨.ok [], [], []⟩ := rfl
  -- One bound serves for the block alone and for the block with tokens behind it.
  let n := (body ++ c :: ts₂).length + 1
  have hshort : (body ++ [c]).length < n := by simp [n]
  have hlong : (body ++ c :: ts₂).length < n := Nat.lt_succ_self _
  obtain ⟨b, errors, hclosed, hblock⟩ | hblock := blockRest_cases hc hbody hbrace hshort
  · obtain ⟨⟨p₂, hp₂⟩, _⟩ := program_total e ts₂
    have h₁ := program_block ho hshort (hblock e []) (p := []) rfl
    have h₂' := program_block ho hlong (hblock e ts₂) hp₂
    refine .inl ⟨b, errors, hclosed, ?_, ?_⟩
    · rw [parse_of_result halone (congrArg Reply.result h₁), h₁, hnil]
      simp
    · rw [parse_of_result hwhole (congrArg Reply.result h₂'), h₂',
        parse_of_result (input_append h₂ he []) hp₂]
  · refine .inr ⟨?_, fun hbrace₂ => ?_⟩
    · obtain ⟨b, errors, hopen, hblock⟩ :=
        hblock e [] hshort (List.forall_mem_nil _) (List.forall_mem_nil _)
      have h₁ := program_block ho hshort hblock (p := []) rfl
      rw [parse_of_result halone (congrArg Reply.result h₁), h₁, hnil]
      simpa using hopen
    · obtain ⟨b, errors, _, hblock⟩ := hblock e ts₂ hlong h₂ hbrace₂
      have h₂' := program_block ho hlong hblock (p := []) rfl
      exact ⟨b, by rw [parse_of_result hwhole (congrArg Reply.result h₂')]⟩

end

/-- A program without errors does not depend on the end of input behind it. -/
theorem parse_of_clean {ts : List Token} {p : Program} (hts : ∀ t ∈ ts, t.kind ≠ .eof)
    (he : e.kind = .eof) (h : parse ts = (p, [])) : parse (ts ++ [e]) = (p, []) := by
  obtain ⟨rest, hreads⟩ := reads_of_parse (congrArg Prod.snd h)
  rw [input_of_forall hts, h] at hreads
  have hprogram : program e ts = ⟨.ok p, [], []⟩ := by
    have happend := program_append hts hreads notNext_nil e
    rw [List.append_nil] at happend
    rw [happend, prepend, program_of_ends rfl]
    simp [Except.map]
  rw [parse_of_result (input_append hts he []) (congrArg Reply.result hprogram), hprogram]

/-- `x;` -/
def nextStatementTokens : List Token :=
  [⟨.identifier, "x", none, ⟨8, 1⟩, ⟨1, 9⟩⟩, ⟨.symbol .semicolon, ";", none, ⟨9, 1⟩, ⟨1, 10⟩⟩]

/-- The faults of a block stay inside it exactly if the block, on its own, is not found to be open.
Then all that stands behind it is read as it is on its own, with its errors. An open block takes all
that stands behind it, if no brace does. -/
theorem parse_block_contained (o c e : Token) (body : List Token)
    (ho : o.kind = .symbol .leftBrace) (hc : c.kind = .symbol .rightBrace) (he : e.kind = .eof)
    (hbody : ∀ t ∈ body, t.kind ≠ .eof) (hbrace : NoBrace body) :
    ((∀ ts₂ p₂, (∀ t ∈ ts₂, t.kind ≠ .eof) → parse ts₂ = (p₂, []) →
        ∃ b, (parse (o :: body ++ c :: ts₂ ++ [e])).1 = .block o.position b :: p₂) ↔
      ∀ x ∈ (parse (o :: body ++ [c, e])).2, x.fault ≠ .unexpectedToken .closeBlock) ∧
    ((∀ x ∈ (parse (o :: body ++ [c, e])).2, x.fault ≠ .unexpectedToken .closeBlock) →
      ∀ ts₂, (∀ t ∈ ts₂, t.kind ≠ .eof) → parse (o :: body ++ c :: ts₂ ++ [e]) =
        ((parse (o :: body ++ [c, e])).1 ++ (parse (ts₂ ++ [e])).1,
          (parse (o :: body ++ [c, e])).2 ++ (parse (ts₂ ++ [e])).2)) ∧
    ((∃ x ∈ (parse (o :: body ++ [c, e])).2, x.fault = .unexpectedToken .closeBlock) →
      ∀ ts₂, (∀ t ∈ ts₂, t.kind ≠ .eof) → NoBrace ts₂ →
        ∃ b, (parse (o :: body ++ c :: ts₂ ++ [e])).1 = [.block o.position b]) := by
  have hcases := parse_block_cases ho hc he hbody hbrace
  refine ⟨⟨fun h => ?_, fun h ts₂ p₂ h₂ hclean => ?_⟩, fun h ts₂ h₂ => ?_,
    fun ⟨x, hx, hopen⟩ ts₂ h₂ hbrace₂ => ?_⟩
  · -- One statement behind the block tells the two cases apart.
    have h₂ : ∀ t ∈ nextStatementTokens, t.kind ≠ .eof := by decide
    obtain ⟨b, errors, hclosed, halone, _⟩ | ⟨_, hopen⟩ := hcases nextStatementTokens h₂
    · rwa [halone]
    · obtain ⟨b, hb⟩ := hopen (by decide)
      obtain ⟨b', hb'⟩ := h nextStatementTokens
        [.expr ⟨1, 9⟩ (.name ⟨1, 9⟩ "x")] h₂ rfl
      cases hb.symm.trans hb'
  · obtain ⟨b, errors, _, _, hwhole⟩ | ⟨⟨x, hx, hopen⟩, _⟩ := hcases ts₂ h₂
    · exact ⟨b, by rw [hwhole, parse_of_clean h₂ he hclean]⟩
    · exact absurd hopen (h x hx)
  · obtain ⟨b, errors, _, halone, hwhole⟩ | ⟨⟨x, hx, hopen⟩, _⟩ := hcases ts₂ h₂
    · rw [hwhole, halone]
      rfl
    · exact absurd hopen (h x hx)
  · obtain ⟨b, errors, hclosed, halone, _⟩ | ⟨_, hwhole⟩ := hcases ts₂ h₂
    · rw [halone] at hx
      exact absurd hopen (hclosed x hx)
    · exact hwhole hbrace₂

/-- `b +` -/
def openSum : List Token :=
  [⟨.identifier, "b", none, ⟨2, 1⟩, ⟨1, 3⟩⟩, ⟨.symbol .plus, "+", none, ⟨4, 1⟩, ⟨1, 5⟩⟩]

/-- `b +;` -/
def endedSum : List Token := openSum ++ [⟨.symbol .semicolon, ";", none, ⟨5, 1⟩, ⟨1, 6⟩⟩]

/-- `{ body } x;` around a body of at most four columns, with the end of input behind it. -/
def aroundBody (body : List Token) : List Token :=
  ⟨.symbol .leftBrace, "\x7b", none, ⟨0, 1⟩, ⟨1, 1⟩⟩ :: body ++
    ⟨.symbol .rightBrace, "\x7d", none, ⟨6, 1⟩, ⟨1, 7⟩⟩ :: nextStatementTokens ++
    [⟨.eof, "", none, ⟨10, 0⟩, ⟨1, 11⟩⟩]

/-- Behind a semicolon, recovery goes on at the closing brace. -/
theorem parse_block_contained_endedSum :
    (∀ t ∈ endedSum, t.kind ≠ .eof) ∧ NoBrace endedSum ∧
      parse (aroundBody endedSum) =
        ([.block ⟨1, 1⟩ [], .expr ⟨1, 9⟩ (.name ⟨1, 9⟩ "x")],
          [⟨.expectedExpression, ⟨5, 1⟩, ⟨1, 6⟩, ";"⟩]) := by
  refine ⟨by decide, by decide, ?_⟩
  obtain ⟨_, hcontained, _⟩ := parse_block_contained
    ⟨.symbol .leftBrace, "\x7b", none, ⟨0, 1⟩, ⟨1, 1⟩⟩
    ⟨.symbol .rightBrace, "\x7d", none, ⟨6, 1⟩, ⟨1, 7⟩⟩ ⟨.eof, "", none, ⟨10, 0⟩, ⟨1, 11⟩⟩ endedSum
    rfl rfl rfl (by decide) (by decide)
  exact hcontained (List.forall_mem_singleton.2 (by decide)) nextStatementTokens (by decide)

/-- Without a semicolon, recovery drops the closing brace and the statement behind it. -/
theorem parse_openSum :
    (∀ t ∈ openSum, t.kind ≠ .eof) ∧ NoBrace openSum ∧
      parse nextStatementTokens = ([.expr ⟨1, 9⟩ (.name ⟨1, 9⟩ "x")], []) ∧
      parse (aroundBody openSum) =
        ([.block ⟨1, 1⟩ []], [⟨.expectedExpression, ⟨6, 1⟩, ⟨1, 7⟩, "\x7d"⟩,
          ⟨.unexpectedToken .closeBlock, ⟨10, 0⟩, ⟨1, 11⟩, ""⟩]) :=
  ⟨by decide, by decide, rfl, rfl⟩

end Scriptlet
