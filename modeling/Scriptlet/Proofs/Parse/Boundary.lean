import Scriptlet.Proofs.Parse.Input

/-! What stands behind a statement does not change how the statement is read, with one exception: an
`else` may belong to it. Hence reading a program is compositional. -/
namespace Scriptlet.Parse

variable {α β : Type} {n : Nat} {stop t : Token} {ts us rest : List Token} {x : Parse α}
  {E : List Token → List Token → Prop}

/-- What the reader does from tokens `ts` is the same if more tokens `more` stand behind their end,
provided that `E` holds of the tokens it leaves and of `more`. What it reads from is guarded
then. -/
def Persists (E : List Token → List Token → Prop) (x : Parse α) : Prop :=
  ∀ stop ts a rest, Reads x stop ts a rest → ∀ more, E rest more →
    Guarded ts ∧ ∀ stop', Reads x stop' (ts ++ more) a (rest ++ more)

/-- Reading stops before tokens that end every look ahead. -/
def Inside (rest _more : List Token) : Prop := Guarded rest

/-- If no token is left, no `else` comes next. -/
def AtEnd (rest more : List Token) : Prop := rest = [] → NotNext (.keyword .elseKw) more

theorem Composed.persists (h : Composed x) : Persists Inside x := by
  intro stop ts a rest hr more hg
  refine ⟨?_, fun stop' => h.append hr hg stop' more⟩
  have hp := h.past stop ts
  rw [hr] at hp
  obtain ⟨used, rfl, _⟩ := hp
  exact hg.append_left used

theorem Persists.bind {f : α → Parse β} (hx : Composed x) (hf : ∀ a, Persists E (f a)) :
    Persists E (x >>= f) := by
  intro stop ts b rest h more hE
  obtain ⟨a, mid, ha, hb⟩ := reads_bind.1 h
  obtain ⟨hmid, hb'⟩ := hf a stop mid b rest hb more hE
  obtain ⟨hts, ha'⟩ := hx.persists stop ts a mid ha more hmid
  exact ⟨hts, fun stop' => reads_bind.2 ⟨a, mid ++ more, ha' stop', hb' stop'⟩⟩

theorem Persists.map (hx : Persists E x) (g : α → β) : Persists E (do return g (← x)) := by
  intro stop ts b rest h more hE
  obtain ⟨a, _, ha, hb⟩ := reads_bind.1 h
  obtain ⟨rfl, rfl⟩ := reads_pure.1 hb
  obtain ⟨hts, ha'⟩ := hx stop ts a _ ha more hE
  exact ⟨hts, fun stop' => reads_bind.2 ⟨a, _, ha' stop', reads_return⟩⟩

/-- Behind an expected token that ends every look ahead, anything may stand. -/
theorem persists_expect_then {e : Expectation} (he : ¬ e.kind.looksOn) (a : α) :
    Persists E (do let _ ← expect e; return a) := by
  intro stop ts b rest h more _
  obtain ⟨t, us, rfl, ht, h⟩ := reads_expect_bind.1 h
  obtain ⟨rfl, rfl⟩ := reads_pure.1 h
  refine ⟨⟨t, List.mem_cons_self, ht ▸ he⟩, fun stop' => ?_⟩
  exact reads_expect_bind.2 ⟨t, _, rfl, ht, reads_return⟩

theorem head?_append_of_ne_nil (h : ts ≠ []) (more : List Token) :
    (ts ++ more).head? = ts.head? := by
  cases ts with
  | nil => exact absurd rfl h
  | cons t ts => rfl

theorem notNext_append {k : TokenKind} (h : ts ≠ []) {more : List Token} :
    NotNext k (ts ++ more) ↔ NotNext k ts := by
  rw [NotNext, NotNext, head?_append_of_ne_nil h]

theorem persists_accept?_bind {k : TokenKind} {f : Option Token → Parse β}
    (hs : ∀ t, Persists E (f (some t))) (hn : Persists E (f none)) :
    Persists E (accept? k >>= f) := by
  intro stop ts b rest h more hE
  obtain ⟨t, us, rfl, hk, h⟩ | ⟨hnot, h⟩ := reads_accept?_bind.1 h
  · obtain ⟨hus, h'⟩ := hs t stop us b rest h more hE
    refine ⟨hus.append_left [t], fun stop' => ?_⟩
    exact reads_accept?_bind.2 (.inl ⟨t, us ++ more, rfl, hk, h' stop'⟩)
  · obtain ⟨hts, h'⟩ := hn stop ts b rest h more hE
    refine ⟨hts, fun stop' => reads_accept?_bind.2 (.inr ⟨?_, h' stop'⟩)⟩
    exact (notNext_append hts.ne_nil).2 hnot

section Statements

variable {expr : Parse Expr} {inner item : Parse Stmt}

theorem persists_block (hi : Composed item) (n : Nat) : Persists E (block item n) :=
  .bind (composed_expect (by decide)) fun _ => .bind (composed_statements _ hi n) fun body =>
    persists_expect_then (by decide) body

theorem persists_letRest (he : Composed expr) (p : Position) : Persists E (letRest expr p) := by
  refine .bind (composed_accept (by decide)) fun mutable => ?_
  refine .bind (composed_expect (by decide)) fun name => ?_
  refine .bind (composed_typeAfter _) fun type? => ?_
  refine .bind (composed_accept (by decide)) fun b => ?_
  cases b with
  | true => exact .bind (composed_some he) fun initial => persists_expect_then (by decide) _
  | false => exact .bind (.pure none) fun initial => persists_expect_then (by decide) _

theorem persists_functionRest (hi : Composed item) (n : Nat) (p : Position) :
    Persists E (functionRest item n p) := by
  refine .bind (composed_expect (by decide)) fun name => .bind (composed_expect (by decide)) ?_
  refine fun _ => .bind (composed_parameters n) fun params => ?_
  refine .bind (composed_expect (by decide)) fun _ => .bind (composed_typeAfter _) fun result => ?_
  exact (persists_block hi n).map fun body => Stmt.function p ⟨name.lexeme, params, result⟩ body

theorem persists_returnRest (he : Composed expr) (p : Position) :
    Persists E (returnRest expr p) := by
  refine .bind (composed_check (by decide)) fun b => ?_
  cases b with
  | true => exact .bind (.pure none) fun value => persists_expect_then (by decide) _
  | false => exact .bind (composed_some he) fun value => persists_expect_then (by decide) _

theorem persists_whileRest (he : Composed expr) (hi : Persists AtEnd inner) (p : Position) :
    Persists AtEnd (whileRest expr inner p) :=
  .bind he fun c => hi.map fun b => Stmt.whileLoop p c b

theorem persists_forRest (he : Composed expr) (hi : Persists AtEnd inner) (p : Position) :
    Persists AtEnd (forRest expr inner p) := by
  refine .bind (composed_expect (by decide)) fun x => ?_
  refine .bind (composed_expect (by decide)) fun _ => ?_
  refine .bind he fun a => .bind (composed_expect (by decide)) fun _ => ?_
  exact .bind (composed_expect (by decide)) fun _ => .bind he fun b => hi.map fun s =>
    Stmt.forRange p x.lexeme a b s

/-- A branch, and an `else` with another one if it stands there. -/
theorem persists_branches (hi : Persists AtEnd inner) {g : Stmt → Parse Stmt} (k : Stmt → Stmt)
    (hg : ∀ s, Persists AtEnd (g s)) : Persists AtEnd
      (inner >>= fun s => accept (.keyword .elseKw) >>= fun b =>
        if b then g s else pure (k s)) := by
  intro stop ts b rest h more hE
  obtain ⟨s, mid, hs, h⟩ := reads_bind.1 h
  obtain ⟨t, us, rfl, ht, h⟩ | ⟨hnot, h⟩ := reads_accept_bind.1 h
  · rw [if_pos rfl] at h
    obtain ⟨hts, hs'⟩ := hi stop ts s _ hs more fun h => absurd h (List.cons_ne_nil t us)
    obtain ⟨_, h'⟩ := hg s stop us b rest h more hE
    refine ⟨hts, fun stop' => reads_bind.2 ⟨s, t :: us ++ more, hs' stop', ?_⟩⟩
    exact reads_accept_bind.2 (.inl ⟨t, us ++ more, rfl, ht, h' stop'⟩)
  · rw [if_neg Bool.false_ne_true] at h
    obtain ⟨rfl, rfl⟩ := reads_pure.1 h
    obtain ⟨hts, hs'⟩ := hi stop ts s _ hs more hE
    refine ⟨hts, fun stop' => reads_bind.2 ⟨s, _, hs' stop', ?_⟩⟩
    refine reads_accept_bind.2 (.inr ⟨?_, reads_return⟩)
    by_cases hr : rest = []
    · rw [hr]
      exact hE hr
    · exact (notNext_append hr).2 hnot

theorem persists_ifRest (he : Composed expr) (hi : Persists AtEnd inner) (p : Position) :
    Persists AtEnd (ifRest expr inner p) :=
  .bind he fun c => persists_branches hi (Stmt.ifThen p c) fun s =>
    hi.map fun f => Stmt.ifElse p c s f

theorem persists_statementStep (he : Composed expr) (hs : Persists AtEnd inner)
    (hd : Composed item) (n : Nat) : Persists AtEnd (statementStep expr inner item n) := by
  refine persists_accept?_bind (fun t => persists_ifRest he hs t.position) ?_
  refine persists_accept?_bind (fun t => persists_whileRest he hs t.position) ?_
  refine persists_accept?_bind (fun t => persists_forRest he hs t.position) ?_
  refine persists_accept?_bind (fun t => persists_returnRest he t.position) ?_
  refine .bind (composed_check (by decide)) fun b => ?_
  cases b with
  | false =>
    exact .bind .current fun t => .bind he fun e => persists_expect_then (by decide) _
  | true =>
    exact .bind .current fun t => (persists_block hd n).map fun body => Stmt.block t.position body

theorem persists_declarationStep (he : Composed expr) (hs : Persists AtEnd inner)
    (hd : Composed item) (n : Nat) : Persists AtEnd (declarationStep expr inner item n) := by
  refine persists_accept?_bind (fun t => persists_functionRest hd n t.position) ?_
  refine persists_accept?_bind (fun t => persists_letRest he t.position) ?_
  exact persists_statementStep he hs hd n

theorem persists_within (n : Nat) :
    Persists AtEnd (statementWithin n) ∧ Persists AtEnd (declarationWithin n) := by
  induction n with
  | zero =>
    have h : Persists AtEnd (exhausted : Parse Stmt) := fun _ _ _ _ h =>
      absurd h not_reads_exhausted
    exact ⟨h, h⟩
  | succ n ih =>
    have he := composed_expressionWithin (n + 1)
    obtain ⟨_, hd⟩ := composed_within n
    exact ⟨persists_statementStep he ih.1 hd (n + 1), persists_declarationStep he ih.1 hd (n + 1)⟩

/-- What stands behind a statement does not change it, unless it is an `else`. -/
theorem persists_declaration : Persists AtEnd declaration := by
  intro stop ts s rest h more hE
  -- One bound for both lists of tokens.
  have hlong : ts.length < (ts ++ more).length + 1 := by
    rw [List.length_append]
    omega
  rw [Reads, ← (within_eq hlong).2] at h
  obtain ⟨hts, h'⟩ := (persists_within _).2 stop ts s rest h more hE
  refine ⟨hts, fun stop' => ?_⟩
  rw [Reads, ← (within_eq (Nat.lt_succ_self _)).2]
  exact h' stop'

end Statements

section Programs

variable {p : Program}

private theorem dropWhile_append_of_ne_nil {q : Token → Bool} (h : ts.dropWhile q ≠ [])
    (more : List Token) : (ts ++ more).dropWhile q = ts.dropWhile q ++ more := by
  rw [List.dropWhile_append, if_neg]
  simpa using h

theorem program_of_ends (h : atEnd (ts.dropWhile (·.kind = .newline))) (stop : Token) :
    program stop ts = ⟨.ok [], [], ts.dropWhile (·.kind = .newline)⟩ := by
  rw [program_eq (Nat.lt_succ_self _), statements, bind_silent (x := skipNewlines) rfl,
    bind_silent (x := looks _) rfl, if_pos (by simp [ends, h])]
  rfl

/-- A program is a statement and a program. -/
theorem program_of_next (h : ¬ atEnd (ts.dropWhile (·.kind = .newline))) (stop : Token) :
    program stop ts = (recover declaration >>= fun s? => do return s?.toList ++ (← program)) stop
      (ts.dropWhile (·.kind = .newline)) := by
  have hlen := (past_dropWhile_newline ts).length_le
  rw [program_eq (Nat.lt_succ_self _), statements, bind_silent (x := skipNewlines) rfl,
    bind_silent (x := looks _) rfl, if_neg (by simpa [ends] using h)]
  generalize ts.dropWhile (·.kind = .newline) = us at h hlen
  obtain ⟨_, _, hlt⟩ := recover_progress stop us
  have hlt := hlt h
  rcases hr : recover declaration stop us with ⟨e | s?, errors, rest⟩
  · rw [bind_error hr, bind_error hr]
  · rw [hr] at hlt
    have hprogram : statements (fun _ => false) declaration ts.length stop rest =
        program stop rest := (program_eq (Nat.lt_of_lt_of_le hlt hlen)).symm
    rw [bind_ok hr, bind_ok hr, bind_pure_eq, bind_pure_eq, hprogram]

/-- Newlines at the front do not matter. -/
theorem program_congr (h : ts.dropWhile (·.kind = .newline) = us.dropWhile (·.kind = .newline))
    (stop : Token) : program stop ts = program stop us := by
  by_cases hend : atEnd (us.dropWhile (·.kind = .newline))
  · rw [program_of_ends (h ▸ hend), program_of_ends hend, h]
  · rw [program_of_next (h ▸ hend), program_of_next hend, h]

/-- The reply with more statements in front of its own. -/
def prepend (p : Program) (r : Reply Program) : Reply Program :=
  ⟨r.result.map (p ++ ·), r.errors, r.rest⟩

private theorem prepend_nil (r : Reply Program) : prepend [] r = r := by
  rcases r with ⟨e | p, errors, rest⟩ <;> rfl

private theorem bind_prepend {x : Parse Program} {r : Reply Program} {s : Stmt}
    (h : x stop ts = prepend p r) :
    (x >>= fun q => pure (s :: q)) stop ts = prepend (s :: p) r := by
  rw [bind_pure_eq, h]
  rcases r with ⟨e | q, errors, rest⟩ <;> rfl

private theorem atEnd_eq_nil (hts : ∀ t ∈ ts, t.kind ≠ .eof) (h : atEnd ts) : ts = [] := by
  cases ts with
  | nil => rfl
  | cons t ts => exact absurd (by simpa [atEnd] using h) (hts t List.mem_cons_self)

/-- Behind a program without faults, reading goes on as if it began there. -/
theorem program_append (hts : ∀ t ∈ ts, t.kind ≠ .eof) (h : Reads program stop ts p rest)
    {more : List Token} (hmore : NotNext (.keyword .elseKw) more) (stop' : Token) :
    program stop' (ts ++ more) = prepend p (program stop' more) := by
  induction hk : ts.length using Nat.strongRecOn generalizing ts p with
  | ind k ih =>
    have hpast := past_dropWhile_newline ts
    have hlen := hpast.length_le
    have hskip : ∀ t ∈ ts.dropWhile (·.kind = .newline), t.kind ≠ .eof := fun t ht =>
      hts t (hpast.suffix.subset ht)
    by_cases hend : atEnd (ts.dropWhile (·.kind = .newline))
    · have hnil := atEnd_eq_nil hskip hend
      rw [Reads, program_of_ends hend] at h
      have hdrop : (ts ++ more).dropWhile (·.kind = .newline) =
          more.dropWhile (·.kind = .newline) := by
        rw [List.dropWhile_append, hnil]
        rfl
      cases h
      rw [program_congr hdrop, prepend_nil]
    · rw [Reads, program_of_next hend] at h
      obtain ⟨s?, mid, hs?, h⟩ := reads_bind.1 h
      obtain ⟨s, rfl, hs⟩ := reads_recover.1 hs?
      obtain ⟨q, _, hq, h⟩ := reads_bind.1 h
      obtain ⟨rfl, rfl⟩ := reads_pure.1 h
      have hne : ts.dropWhile (·.kind = .newline) ≠ [] := fun h => hend (by rw [h]; rfl)
      have hdrop := dropWhile_append_of_ne_nil hne more
      obtain ⟨_, hmid, hlt⟩ := recover_progress stop (ts.dropWhile (·.kind = .newline))
      have hlt := hlt hend
      rw [hs?] at hmid hlt
      have hmid' : ∀ t ∈ mid, t.kind ≠ .eof := fun t ht => hskip t (hmid.suffix.subset ht)
      obtain ⟨_, hs'⟩ := persists_declaration stop _ s mid hs more fun _ => hmore
      have hend' : ¬ atEnd ((ts ++ more).dropWhile (·.kind = .newline)) := by
        rw [hdrop, atEnd, head?_append_of_ne_nil hne]
        exact hend
      rw [program_of_next hend', hdrop, bind_silent (reads_recover.2 ⟨s, rfl, hs' stop'⟩)]
      have hlt : mid.length < (ts.dropWhile (·.kind = .newline)).length := hlt
      exact bind_prepend (ih mid.length (by omega) hmid' hq rfl)

end Programs

end Scriptlet.Parse

namespace Scriptlet

open Parse (Reads NotNext)

/-- Reading is compositional. Behind tokens that are read without an error, other tokens are read as
they are on their own, with their errors, unless they begin with an `else`. -/
theorem parse_append (ts₁ ts₂ : List Token) (e : Token) (p₁ : Program)
    (h₁ : ∀ t ∈ ts₁, t.kind ≠ .eof) (h₂ : ∀ t ∈ ts₂, t.kind ≠ .eof) (he : e.kind = .eof)
    (hclean : parse (ts₁ ++ [e]) = (p₁, [])) (helse : NotNext (.keyword .elseKw) ts₂) :
    parse (ts₁ ++ ts₂ ++ [e]) = (p₁ ++ (parse (ts₂ ++ [e])).1, (parse (ts₂ ++ [e])).2) := by
  obtain ⟨rest, hreads⟩ := reads_of_parse (congrArg Prod.snd hclean)
  rw [input_append h₁ he, hclean] at hreads
  have happend := Parse.program_append h₁ hreads helse e
  obtain ⟨⟨p₂, hp₂⟩, _⟩ := Parse.program_total e ts₂
  have hresult : (Parse.program e (ts₁ ++ ts₂)).result = .ok (p₁ ++ p₂) := by
    rw [happend, Parse.prepend, hp₂]
    rfl
  have hboth : ∀ t ∈ ts₁ ++ ts₂, t.kind ≠ .eof := List.forall_mem_append.2 ⟨h₁, h₂⟩
  rw [parse_of_result (input_append hboth he []) hresult,
    parse_of_result (input_append h₂ he []) hp₂, happend]
  rfl

/-- `if a {}` -/
def emptyBranch : List Token :=
  [⟨.keyword .ifKw, "if", none, ⟨0, 2⟩, ⟨1, 1⟩⟩, ⟨.identifier, "a", none, ⟨3, 1⟩, ⟨1, 4⟩⟩,
    ⟨.symbol .leftBrace, "\x7b", none, ⟨5, 1⟩, ⟨1, 6⟩⟩,
    ⟨.symbol .rightBrace, "\x7d", none, ⟨6, 1⟩, ⟨1, 7⟩⟩]

/-- `(b if c; d` -/
def brokenTail : List Token :=
  [⟨.symbol .leftParen, "(", none, ⟨8, 1⟩, ⟨1, 9⟩⟩, ⟨.identifier, "b", none, ⟨9, 1⟩, ⟨1, 10⟩⟩,
    ⟨.keyword .ifKw, "if", none, ⟨11, 2⟩, ⟨1, 12⟩⟩,
    ⟨.identifier, "c", none, ⟨14, 1⟩, ⟨1, 15⟩⟩,
    ⟨.symbol .semicolon, ";", none, ⟨15, 1⟩, ⟨1, 16⟩⟩,
    ⟨.identifier, "d", none, ⟨17, 1⟩, ⟨1, 18⟩⟩]

/-- The end of input behind `if a {} (b if c; d`. -/
def tailEnd : Token := ⟨.eof, "", none, ⟨18, 0⟩, ⟨1, 19⟩⟩

theorem parse_append_brokenTail :
    ((∀ t ∈ emptyBranch, t.kind ≠ .eof) ∧ (∀ t ∈ brokenTail, t.kind ≠ .eof) ∧
        tailEnd.kind = .eof ∧
        parse (emptyBranch ++ [tailEnd]) =
          ([.ifThen ⟨1, 1⟩ (.name ⟨1, 4⟩ "a") (.block ⟨1, 6⟩ [])], []) ∧
        NotNext (.keyword .elseKw) brokenTail) ∧
      (parse (brokenTail ++ [tailEnd])).2.map ParseError.position =
        [⟨1, 12⟩, ⟨1, 12⟩, ⟨1, 16⟩, ⟨1, 19⟩] ∧
      parse (emptyBranch ++ brokenTail ++ [tailEnd]) =
        ([.ifThen ⟨1, 1⟩ (.name ⟨1, 4⟩ "a") (.block ⟨1, 6⟩ [])] ++
          (parse (brokenTail ++ [tailEnd])).1, (parse (brokenTail ++ [tailEnd])).2) := by
  have h₁ : ∀ t ∈ emptyBranch, t.kind ≠ .eof := by decide
  have h₂ : ∀ t ∈ brokenTail, t.kind ≠ .eof := by decide
  have hclean : parse (emptyBranch ++ [tailEnd]) =
      ([.ifThen ⟨1, 1⟩ (.name ⟨1, 4⟩ "a") (.block ⟨1, 6⟩ [])], []) := rfl
  have helse : NotNext (.keyword .elseKw) brokenTail := Parse.notNext_cons.2 (by decide)
  have herrors : (parse (brokenTail ++ [tailEnd])).2.map ParseError.position =
      [⟨1, 12⟩, ⟨1, 12⟩, ⟨1, 16⟩, ⟨1, 19⟩] := by
    decide +kernel
  exact ⟨⟨h₁, h₂, rfl, hclean, helse⟩, herrors,
    parse_append emptyBranch brokenTail tailEnd _ h₁ h₂ rfl hclean helse⟩

end Scriptlet
