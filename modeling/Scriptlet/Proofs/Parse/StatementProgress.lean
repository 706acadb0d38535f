import Scriptlet.Parse.Parser
import Scriptlet.Proofs.Parse.Progress

/-! Statements always get on as well: every one takes a token, and so does going on behind a faulty
one. Hence all statements are read in one pass up to the first end of input. -/
namespace Scriptlet

namespace Parse

variable {α β : Type} {m n : Nat} {x : Parse α}

theorem finishes_recover (hx : Finishes m x) : Finishes m (recover x) := by
  intro stop ts hts
  obtain ⟨_, _, h⟩ | ⟨_, _, h⟩ | ⟨hx', _⟩ := recover_cases x stop ts
  · rw [h]
    nofun
  · rw [h]
    nofun
  · exact absurd hx' (hx stop ts hts)

/-- Before the end of input, recovery takes a token whether there is a fault or not. -/
theorem recover_length_lt (hc : Composed x) (ht : Takes x) {stop : Token} {ts : List Token}
    (he : ¬ atEnd ts) {o : Option α} (ho : (recover x stop ts).result = .ok o) :
    (recover x stop ts).rest.length < ts.length := by
  obtain ⟨a, ha, h⟩ | ⟨e, _, h⟩ | ⟨_, h⟩ := recover_cases x stop ts
  · rw [h]
    exact ht stop ts a ha
  · rw [h]
    by_cases hrest : (x stop ts).rest = ts
    · rw [hrest]
      exact synchronize_length_lt he
    · exact Nat.lt_of_le_of_lt (past_synchronize _).length_le ((hc.past stop ts).length_lt hrest)
  · rw [h] at ho
    cases ho

theorem recover_ne_fault {stop : Token} {ts : List Token} {e : ParseError} :
    (recover x stop ts).result ≠ .error (.fault e) := by
  obtain ⟨_, _, h⟩ | ⟨_, _, h⟩ | ⟨_, h⟩ := recover_cases x stop ts
  · rw [h]
    nofun
  · rw [h]
    nofun
  · rw [h]
    nofun

theorem finishes_typeName : Finishes m typeName :=
  (finishes_require _).bind_option (.require rfl) (fun _ => finishes_pure _) (finishes_pure "")

theorem finishes_typeAfter (mark : Symbol) : Finishes m (typeAfter mark) := by
  refine finishes_accept.bind_bool (composed_accept (by simp)) ?_ (finishes_pure none)
  exact finishes_typeName.bind composed_typeName fun x => finishes_pure (some x)

theorem finishes_parameter : Finishes m parameter :=
  finishes_expect_bind (by decide) fun _ => finishes_expect_bind (by decide) fun _ =>
    finishes_typeName.bind composed_typeName fun _ => finishes_pure _

theorem finishes_parameters (hn : m ≤ n) : Finishes m (parameters n) :=
  (finishes_looks _).bind_bool (composed_check (by decide)) (finishes_pure [])
    (finishes_commaList finishes_parameter composed_parameter hn)

section Statements

variable {expr : Parse Expr} {inner item : Parse Stmt}

/-- Each turn of the loop takes a token. -/
theorem finishes_statements (closes : TokenKind → Bool) (hi : Finishes m item) (hc : Composed item)
    (ht : Takes item) (hn : m ≤ n) : Finishes m (statements closes item n) := by
  induction n generalizing m with
  | zero => exact (finishes_zero _).mono hn
  | succ n ih =>
    intro stop ts hts
    have hlen := (past_dropWhile_newline ts).length_le
    rw [statements, bind_silent (x := skipNewlines) rfl, bind_silent (x := looks _) rfl]
    generalize ts.dropWhile (·.kind = .newline) = us at hlen
    by_cases he : ends closes us
    · rw [if_pos he]
      intro h
      cases h
    · rw [if_neg he]
      have hend : ¬ atEnd us := fun h => he (by simp [ends, h])
      have hrest {k : Nat} (hk : k < m) : Finishes k (statements closes item n) :=
        ih (hi.mono (Nat.le_of_lt hk)) (by omega)
      obtain ⟨h, hh, hr⟩ | ⟨s?, hs, hr⟩ := bind_cases (recover item)
        (fun s? => do return s?.toList ++ (← statements closes item n)) stop us
      · rw [hr]
        rintro ⟨⟩
        exact finishes_recover hi stop us (by omega) hh
      · have hlt := recover_length_lt hc ht hend hs
        have hloop : Finishes us.length (do return s?.toList ++ (← statements closes item n)) :=
          (hrest (by omega)).bind (composed_statements closes hc n) fun _ => finishes_pure _
        rw [hr]
        exact hloop stop _ hlt

/-- The statements of a block and its closing brace. -/
def blockRest (item : Parse Stmt) (n : Nat) : Parse (List Stmt) := do
  let body ← statements (· = .symbol .rightBrace) item n
  let _ ← expect .closeBlock
  return body

theorem finishes_blockRest (hi : Finishes m item) (hc : Composed item) (ht : Takes item)
    (hn : m ≤ n) : Finishes m (blockRest item n) :=
  (finishes_statements _ hi hc ht hn).bind (composed_statements _ hc n) fun body =>
    finishes_expect_then body

theorem finishes_block (hi : Finishes m item) (hc : Composed item) (ht : Takes item) (hn : m ≤ n) :
    Finishes m (block item n) :=
  finishes_expect_bind (by decide) fun _ => finishes_blockRest hi hc ht hn

theorem finishes_some (he : Finishes m expr) (hc : Composed expr) : Finishes m (some <$> expr) :=
  he.bind hc fun e => finishes_pure (some e)

theorem finishes_letRest (he : Finishes m expr) (hc : Composed expr) (p : Position) :
    Finishes m (letRest expr p) := by
  refine finishes_accept.bind (composed_accept (by decide)) fun mutable => ?_
  refine finishes_expect_bind (by decide) fun name => ?_
  refine (finishes_typeAfter _).bind (composed_typeAfter _) fun type? => ?_
  refine finishes_accept.bind_bool (composed_accept (by decide)) ?_ ?_
  · exact (finishes_some he hc).bind (composed_some hc) fun initial => finishes_expect_then _
  · exact (finishes_pure none).bind (.pure none) fun initial => finishes_expect_then _

theorem finishes_functionRest (hi : Finishes m item) (hc : Composed item) (ht : Takes item)
    (hn : m ≤ n) (p : Position) : Finishes m (functionRest item n p) := by
  refine finishes_expect_bind (by decide) fun name => finishes_expect_bind (by decide) fun _ => ?_
  refine (finishes_parameters hn).bind (composed_parameters n) fun params => ?_
  refine finishes_expect_bind (by decide) fun _ => ?_
  refine (finishes_typeAfter _).bind (composed_typeAfter _) fun result => ?_
  exact (finishes_block hi hc ht hn).bind (composed_block hc n) fun body => finishes_pure _

theorem finishes_ifRest (he : Finishes m expr) (hce : Composed expr) (hi : Finishes m inner)
    (hci : Composed inner) (p : Position) : Finishes m (ifRest expr inner p) := by
  refine he.bind hce fun c => hi.bind hci fun s => ?_
  refine finishes_accept.bind_bool (composed_accept (by decide)) ?_ (finishes_pure _)
  exact hi.bind hci fun f => finishes_pure _

theorem finishes_whileRest (he : Finishes m expr) (hce : Composed expr) (hi : Finishes m inner)
    (hci : Composed inner) (p : Position) : Finishes m (whileRest expr inner p) :=
  he.bind hce fun _ => hi.bind hci fun _ => finishes_pure _

theorem finishes_forRest (he : Finishes m expr) (hce : Composed expr) (hi : Finishes m inner)
    (hci : Composed inner) (p : Position) : Finishes m (forRest expr inner p) := by
  refine finishes_expect_bind (by decide) fun x => finishes_expect_bind (by decide) fun _ => ?_
  refine he.bind hce fun a => finishes_expect_bind (by decide) fun _ => ?_
  refine finishes_expect_bind (by decide) fun _ => he.bind hce fun b => hi.bind hci fun s => ?_
  exact finishes_pure _

theorem finishes_returnRest (he : Finishes m expr) (hc : Composed expr) (p : Position) :
    Finishes m (returnRest expr p) := by
  refine (finishes_looks _).bind_bool (composed_check (by decide)) ?_ ?_
  · exact (finishes_pure none).bind (.pure none) fun value => finishes_expect_then _
  · exact (finishes_some he hc).bind (composed_some hc) fun value => finishes_expect_then _

theorem finishes_expressionStatement (he : Finishes m expr) (hc : Composed expr) :
    Finishes m (expressionStatement expr) :=
  finishes_current.bind .current fun _ => he.bind hc fun _ => finishes_expect_then _

theorem takes_expressionStatement (ht : Takes expr) : Takes (expressionStatement expr) :=
  Composed.current.bind_takes fun _ => ht.bind fun _ => composed_expect_then (by decide) _

/-- A block whose brace stands there takes it. -/
theorem block_open {stop t : Token} {us : List Token} (ht : t.kind = .symbol .leftBrace) :
    block item n stop (t :: us) = blockRest item n stop us :=
  bind_silent (reads_expect.2 ⟨rfl, ht⟩)

theorem forward_blockRest (hc : Composed item) : Forward (blockRest item n) :=
  (composed_statements _ hc n).forward.bind fun body =>
    (forward_expect _).bind fun _ => (Composed.pure body).forward

theorem takes_statementStep (hce : Composed expr) (hte : Takes expr) (hcs : Composed inner)
    (hcd : Composed item) : Takes (statementStep expr inner item n) := by
  refine takes_accept?_bind (fun t => composed_ifRest hce hcs _) ?_
  refine takes_accept?_bind (fun t => composed_whileRest hce hcs _) ?_
  refine takes_accept?_bind (fun t => composed_forRest hce hcs _) ?_
  refine takes_accept?_bind (fun t => composed_returnRest hce _) ?_
  refine takes_check_bind (fun stop t us ht => ?_) (takes_expressionStatement hte)
  rw [if_pos rfl, bind_silent (x := current) rfl, bind_pure_eq, block_open ht]
  exact forward_blockRest hcd stop us

theorem finishes_statementStep (he : Finishes (m + 1) expr) (hce : Composed expr)
    (hs : Finishes m inner) (hcs : Composed inner) (hd : Finishes m item) (hcd : Composed item)
    (htd : Takes item) (hn : m ≤ n) : Finishes (m + 1) (statementStep expr inner item n) := by
  have he' := he.mono (Nat.le_succ m)
  refine finishes_take?_bind (fun t => finishes_ifRest he' hce hs hcs _) ?_
  refine finishes_take?_bind (fun t => finishes_whileRest he' hce hs hcs _) ?_
  refine finishes_take?_bind (fun t => finishes_forRest he' hce hs hcs _) ?_
  refine finishes_take?_bind (fun t => finishes_returnRest he' hce _) ?_
  refine finishes_check_bind (fun stop t us ht hus => ?_) (finishes_expressionStatement he hce)
  have hblock := finishes_blockRest hd hcd htd hn stop us hus
  rw [if_pos rfl, bind_silent (x := current) rfl, bind_pure_eq, block_open ht]
  generalize (blockRest item n stop us).result = result at hblock
  rcases result with (e | _) | body
  · nofun
  · exact absurd rfl hblock
  · nofun

theorem takes_declarationStep (hce : Composed expr) (hte : Takes expr) (hcs : Composed inner)
    (hcd : Composed item) : Takes (declarationStep expr inner item n) := by
  refine takes_accept?_bind (fun t => composed_functionRest hcd n _) ?_
  refine takes_accept?_bind (fun t => composed_letRest hce _) ?_
  exact takes_statementStep hce hte hcs hcd

theorem finishes_declarationStep (he : Finishes (m + 1) expr) (hce : Composed expr)
    (hs : Finishes m inner) (hcs : Composed inner) (hd : Finishes m item) (hcd : Composed item)
    (htd : Takes item) (hn : m ≤ n) : Finishes (m + 1) (declarationStep expr inner item n) := by
  refine finishes_take?_bind (fun t => finishes_functionRest hd hcd htd hn _) ?_
  refine finishes_take?_bind (fun t => finishes_letRest (he.mono (Nat.le_succ m)) hce _) ?_
  exact finishes_statementStep he hce hs hcs hd hcd htd hn

theorem takes_within (n : Nat) : Takes (statementWithin n) ∧ Takes (declarationWithin n) := by
  cases n with
  | zero =>
    rw [statementWithin, declarationWithin]
    exact ⟨takes_exhausted, takes_exhausted⟩
  | succ n =>
    have hce := composed_expressionWithin (n + 1)
    have hte := takes_expressionWithin (n + 1)
    obtain ⟨hcs, hcd⟩ := composed_within n
    rw [statementWithin, declarationWithin]
    exact ⟨takes_statementStep hce hte hcs hcd, takes_declarationStep hce hte hcs hcd⟩

/-- A bound above the number of tokens left is not used up. -/
theorem finishes_within (n : Nat) :
    Finishes n (statementWithin n) ∧ Finishes n (declarationWithin n) := by
  induction n with
  | zero => exact ⟨finishes_zero _, finishes_zero _⟩
  | succ n ih =>
    have he := finishes_expressionWithin (n + 1)
    have hce := composed_expressionWithin (n + 1)
    obtain ⟨hs, hd⟩ := ih
    obtain ⟨hcs, hcd⟩ := composed_within n
    have htd := (takes_within n).2
    have hn := Nat.le_succ n
    rw [statementWithin, declarationWithin]
    exact ⟨finishes_statementStep he hce hs hcs hd hcd htd hn,
      finishes_declarationStep he hce hs hcs hd hcd htd hn⟩

end Statements

section Bounds

open Parallel

variable {stop : Token} {ts : List Token}

/-- A statement that declares nothing. -/
def statement : Parse Stmt := fun stop ts => statementWithin (ts.length + 1) stop ts

/-- Any bound above the number of tokens left gives the same. -/
theorem within_eq (hn : ts.length < n) : statementWithin n stop ts = statement stop ts ∧
    declarationWithin n stop ts = declaration stop ts := by
  obtain ⟨hs, hd⟩ := links_within (P := same stop) hn
  obtain ⟨hfs, hfd⟩ := finishes_within (ts.length + 1)
  have hlt := Nat.lt_succ_self ts.length
  exact ⟨(hfs.eq_of_links hlt hs).symm, (hfd.eq_of_links hlt hd).symm⟩

theorem links_statement (stop : Token) (n : Nat) :
    (same stop).Links Eq (statementWithin n) statement ∧
      (same stop).Links Eq (declarationWithin n) declaration := by
  have hle (ts : List Token) : n ≤ max n (ts.length + 1) := Nat.le_max_left n _
  have hlt (ts : List Token) : ts.length < max n (ts.length + 1) :=
    Nat.lt_of_succ_le (Nat.le_max_right n _)
  refine ⟨links_same_iff.2 fun ts => ?_, links_same_iff.2 fun ts => ?_⟩
  · rw [← (within_eq (hlt ts)).1]
    exact links_same_iff.1 (links_within (hle ts)).1 ts
  · rw [← (within_eq (hlt ts)).2]
    exact links_same_iff.1 (links_within (hle ts)).2 ts

/-- The equations of statements, with any bound above the number of tokens left. -/
theorem statement_eq (hn : ts.length < n) :
    statement stop ts = statementStep expression statement declaration n stop ts ∧
      declaration stop ts = declarationStep expression statement declaration n stop ts := by
  have he := links_expression stop (ts.length + 1)
  have hnil := expressionWithin_nil (ts.length + 1) stop
  obtain ⟨hs, hd⟩ := links_statement stop ts.length
  obtain ⟨hfs, hfd⟩ := finishes_within (ts.length + 1)
  have hlt := Nat.lt_succ_self ts.length
  rw [statementWithin] at hfs
  rw [declarationWithin] at hfd
  rw [statement, declaration, statementWithin, declarationWithin]
  exact ⟨hfs.eq_of_links hlt (links_statementStep he hnil hs hd hn),
    hfd.eq_of_links hlt (links_declarationStep he hnil hs hd hn)⟩

/-- The equations have no other solution. -/
theorem statement_unique {s d : Parse Stmt}
    (h : ∀ stop ts n, ts.length < n → s stop ts = statementStep expression s d n stop ts ∧
      d stop ts = declarationStep expression s d n stop ts) : s = statement ∧ d = declaration := by
  have hlinks (stop : Token) (n : Nat) : (same stop).Links Eq (statementWithin n) s ∧
      (same stop).Links Eq (declarationWithin n) d := by
    induction n with
    | zero =>
      rw [statementWithin, declarationWithin]
      exact ⟨links_exhausted, links_exhausted⟩
    | succ n ih =>
      have he := links_expression stop (n + 1)
      have hnil := expressionWithin_nil (n + 1) stop
      have hle (ts : List Token) : n + 1 ≤ max (n + 1) (ts.length + 1) := Nat.le_max_left _ _
      have hlt (ts : List Token) : ts.length < max (n + 1) (ts.length + 1) :=
        Nat.lt_of_succ_le (Nat.le_max_right _ _)
      rw [statementWithin, declarationWithin]
      refine ⟨links_same_iff.2 fun ts => ?_, links_same_iff.2 fun ts => ?_⟩
      · rw [(h stop ts _ (hlt ts)).1]
        exact links_same_iff.1 (links_statementStep he hnil ih.1 ih.2 (hle ts)) ts
      · rw [(h stop ts _ (hlt ts)).2]
        exact links_same_iff.1 (links_declarationStep he hnil ih.1 ih.2 (hle ts)) ts
  refine ⟨?_, ?_⟩
  · funext stop ts
    have hlt := Nat.lt_succ_self ts.length
    exact ((finishes_within _).1.eq_of_links hlt (hlinks stop _).1).symm
  · funext stop ts
    have hlt := Nat.lt_succ_self ts.length
    exact ((finishes_within _).2.eq_of_links hlt (hlinks stop _).2).symm

theorem takes_statement : Takes statement := fun stop ts => (takes_within _).1 stop ts

theorem takes_declaration : Takes declaration := fun stop ts => (takes_within _).2 stop ts

theorem finishes_statement : Finishes m statement := fun stop ts _ =>
  (finishes_within _).1 stop ts (Nat.lt_succ_self _)

theorem finishes_declaration : Finishes m declaration := fun stop ts _ =>
  (finishes_within _).2 stop ts (Nat.lt_succ_self _)

theorem recover_progress (stop : Token) (ts : List Token) :
    (recover declaration stop ts).result ≠ .error .exhausted ∧
      Past ts (recover declaration stop ts).rest ∧
      (¬ atEnd ts → (recover declaration stop ts).rest.length < ts.length) := by
  have hlt := Nat.lt_succ_self ts.length
  rw [recover_congr (within_eq hlt).2.symm]
  obtain ⟨_, hc⟩ := composed_within (ts.length + 1)
  obtain ⟨_, ht⟩ := takes_within (ts.length + 1)
  obtain ⟨_, hd⟩ := finishes_within (ts.length + 1)
  have hfinish := finishes_recover hd stop ts hlt
  refine ⟨hfinish, hc.recover.past stop ts, fun he => ?_⟩
  rcases h : (recover (declarationWithin (ts.length + 1)) stop ts).result with (e | _) | o
  · exact absurd h recover_ne_fault
  · exact absurd h hfinish
  · exact recover_length_lt hc ht he h

theorem finishes_statementsWithin (closes : TokenKind → Bool) (n : Nat) :
    Finishes n (statements closes (declarationWithin n) n) :=
  finishes_statements closes (finishes_within n).2 (composed_within n).2 (takes_within n).2
    (Nat.le_refl n)

theorem finishes_program : Finishes m program := fun stop ts _ =>
  finishes_statementsWithin _ _ stop ts (Nat.lt_succ_self _)

/-- Statements one after the other, with any bounds above the number of tokens left. -/
theorem statementsWithin_eq {closes : TokenKind → Bool} (hn : ts.length < n) (hm : ts.length < m) :
    statements closes (declarationWithin n) n stop ts =
      statements closes declaration m stop ts := by
  have hfinish := finishes_statementsWithin closes (ts.length + 1) stop ts (Nat.lt_succ_self _)
  have hwithin : (same stop).Links (List.Forall₂ Eq)
      (statements closes (declarationWithin (ts.length + 1)) (ts.length + 1))
      (statements closes (declarationWithin n) n) :=
    links_statements (links_within hn).2 hn
  have hloop : (same stop).Links (List.Forall₂ Eq)
      (statements closes (declarationWithin (ts.length + 1)) (ts.length + 1))
      (statements closes declaration m) :=
    links_statements (links_statement stop (ts.length + 1)).2 hm
  rw [List.forall₂_eq_eq_eq] at hwithin hloop
  rw [← (links_same_iff.1 hwithin ts).resolve_left hfinish]
  exact (links_same_iff.1 hloop ts).resolve_left hfinish

/-- The equation of programs, with any bound above the number of tokens left. -/
theorem program_eq (hn : ts.length < n) :
    program stop ts = statements (fun _ => false) declaration n stop ts :=
  statementsWithin_eq (Nat.lt_succ_self _) hn

theorem programWithin_eq (hn : ts.length < n) :
    statements (fun _ => false) (declarationWithin n) n stop ts = program stop ts :=
  (statementsWithin_eq hn hn).trans (program_eq hn).symm

end Bounds

/-- Before the end of input, the next statement takes a token even if it has a fault; newlines are
such tokens. -/
theorem nextStatement_progress (stop : Token) (ts : List Token) :
    (nextStatement stop ts).result ≠ .error .exhausted ∧ Past ts (nextStatement stop ts).rest ∧
      (¬ atEnd ts → (nextStatement stop ts).rest.length < ts.length) := by
  have hskip := past_dropWhile_newline ts
  rw [nextStatement, bind_silent (x := skipNewlines) rfl, bind_silent (x := looks _) rfl]
  generalize ts.dropWhile (·.kind = .newline) = us at hskip
  by_cases he : atEnd us
  · rw [if_pos he]
    have hresult : ((pure none : Parse (Option Stmt)) stop us).result = .ok none := rfl
    refine ⟨by simp [hresult], hskip, fun hts => hskip.length_lt ?_⟩
    rintro rfl
    exact hts he
  · rw [if_neg he]
    obtain ⟨hfinish, hpast, hlt⟩ := recover_progress stop us
    exact ⟨hfinish, hskip.trans hpast, fun _ => Nat.lt_of_lt_of_le (hlt he) hskip.length_le⟩

/-- Faults in statements are recorded and do not stop the loop. -/
theorem statements_ne_fault {closes : TokenKind → Bool} {item : Parse Stmt} {stop : Token}
    (ts : List Token) {e : ParseError} :
    (statements closes item n stop ts).result ≠ .error (.fault e) := by
  induction n generalizing ts with
  | zero =>
    intro h
    cases h
  | succ n ih =>
    rw [statements, bind_silent (x := skipNewlines) rfl, bind_silent (x := looks _) rfl]
    generalize ts.dropWhile (·.kind = .newline) = us
    by_cases he : ends closes us
    · rw [if_pos he]
      intro h
      cases h
    · rw [if_neg he]
      obtain ⟨h, hh, hr⟩ | ⟨s?, _, hr⟩ := bind_cases (recover item)
        (fun s? => do return s?.toList ++ (← statements closes item n)) stop us
      · rw [hr]
        rintro ⟨⟩
        exact recover_ne_fault hh
      · have hloop := ih (recover item stop us).rest
        rw [hr, bind_pure_eq]
        generalize (statements closes item n stop (recover item stop us).rest).result = result
          at hloop
        rcases result with (e' | _) | ss
        · rintro ⟨⟩
          exact hloop rfl
        · intro h
          cases h
        · intro h
          cases h

/-- Statements one after the other are always read, whatever their faults. -/
theorem statementsWithin_ok {closes : TokenKind → Bool} {stop : Token} {ts : List Token}
    (hn : ts.length < n) :
    ∃ ss, (statements closes (declarationWithin n) n stop ts).result = .ok ss := by
  rcases h : (statements closes (declarationWithin n) n stop ts).result with (e | _) | ss
  · exact absurd h (statements_ne_fault ts)
  · exact absurd h (finishes_statementsWithin closes n stop ts hn)
  · exact ⟨ss, rfl⟩

/-- A program is always read, and it is read up to the end of input. -/
theorem program_total (stop : Token) (ts : List Token) :
    (∃ ss, (program stop ts).result = .ok ss) ∧ Past ts (program stop ts).rest ∧
      atEnd (program stop ts).rest := by
  have hc := composed_statements (fun _ => false) (composed_within (ts.length + 1)).2
    (ts.length + 1)
  obtain ⟨ss, hss⟩ : ∃ ss, (program stop ts).result = .ok ss :=
    statementsWithin_ok (Nat.lt_succ_self ts.length)
  refine ⟨⟨ss, hss⟩, hc.past stop ts, ?_⟩
  have hends : ends (fun _ => false) (program stop ts).rest := ends_of_statements hss
  simpa [ends] using hends

end Parse

namespace Parser

variable {α : Type} {p : Parser} {tokens : List Token} {i : Nat}

/-- The parser reads the given tokens and stands at the index, which is not behind the first end of
input. -/
structure StandsAt (p : Parser) (tokens : List Token) (i : Nat) : Prop where
  tokens_eq : p.tokens = tokens
  index_eq : p.index = i
  le_end : i ≤ tokens.findIdx (·.kind = .eof)

theorem standsAt_ofTokens (tokens : List Token) : (ofTokens tokens).StandsAt tokens 0 :=
  ⟨rfl, rfl, Nat.zero_le _⟩

private theorem findIdx_append_of_forall {passed : List Token} (h : ∀ t ∈ passed, t.kind ≠ .eof)
    (rest : List Token) : (passed ++ rest).findIdx (·.kind = .eof) =
      passed.length + rest.findIdx (·.kind = .eof) := by
  have hpassed : passed.findIdx (·.kind = .eof) = passed.length := by
    rw [List.findIdx_eq_length]
    simpa using h
  rw [List.findIdx_append, hpassed, if_neg (Nat.lt_irrefl _), Nat.add_comm]

private theorem forall_mem_take (h : i ≤ tokens.findIdx (·.kind = .eof)) :
    ∀ t ∈ tokens.take i, t.kind ≠ .eof := by
  intro t ht
  obtain ⟨j, hj, rfl⟩ := List.mem_iff_getElem.1 ht
  rw [List.length_take] at hj
  rw [List.getElem_take]
  have hlt : j < tokens.findIdx (·.kind = .eof) := by omega
  simpa using List.not_of_lt_findIdx hlt

theorem StandsAt.findIdx_eq (h : p.StandsAt tokens i) :
    tokens.findIdx (·.kind = .eof) = i + p.rest.findIdx (·.kind = .eof) := by
  obtain ⟨rfl, rfl, hle⟩ := h
  have hlen : (p.tokens.take p.index).length = p.index := by
    rw [List.length_take]
    exact Nat.min_eq_left (Nat.le_trans hle List.findIdx_le_length)
  have hsplit := findIdx_append_of_forall (forall_mem_take hle) p.rest
  rw [hlen, rest, List.take_append_drop] at hsplit
  exact hsplit

theorem rest_step {read : Parse α} (hs : (read p.stop p.rest).rest <:+ p.rest) :
    (p.step read).2.rest = (read p.stop p.rest).rest :=
  (List.suffix_iff_eq_drop.1 (hs.trans (List.drop_suffix _ _))).symm

/-- Reading goes on from where it ended. -/
theorem StandsAt.step (h : p.StandsAt tokens i) {read : Parse α}
    (hs : Parse.Past p.rest (read p.stop p.rest).rest) :
    (p.step read).2.StandsAt tokens (i + (p.rest.length - (read p.stop p.rest).rest.length)) := by
  have hfind := h.findIdx_eq
  obtain ⟨rfl, rfl, hle⟩ := h
  obtain ⟨used, hrest, hused⟩ := hs
  have hused : p.rest.findIdx (·.kind = .eof) = used.length + _ :=
    (congrArg _ hrest).trans (findIdx_append_of_forall hused _)
  have hlen : p.rest.length = p.tokens.length - p.index := List.length_drop
  have hsplit : p.rest.length = used.length + (read p.stop p.rest).rest.length :=
    (congrArg _ hrest).trans List.length_append
  have hend : p.tokens.findIdx (·.kind = .eof) ≤ p.tokens.length := List.findIdx_le_length
  refine ⟨rfl, ?_, by omega⟩
  change p.tokens.length - (read p.stop p.rest).rest.length = _
  omega

/-- The end of input is the first one among the tokens, or the end of the list. -/
theorem StandsAt.atEnd_iff (h : p.StandsAt tokens i) :
    Parse.atEnd p.rest ↔ i = tokens.findIdx (·.kind = .eof) := by
  have hzero : Parse.atEnd p.rest ↔ p.rest.findIdx (·.kind = .eof) = 0 := by
    cases p.rest with
    | nil => simp [Parse.atEnd]
    | cons t us => by_cases ht : t.kind = .eof <;> simp [Parse.atEnd, List.findIdx_cons, ht]
  rw [hzero, h.findIdx_eq]
  omega

/-- Reading from the index ends with a result or a fault, there or further on; it ends further on if
`onward` holds. -/
def MovesOn (p : Parser) (tokens : List Token) (i : Nat) (read : Parse α) (onward : Prop) : Prop :=
  (p.step read).1 ≠ .error .exhausted ∧
    ∃ j, i ≤ j ∧ (p.step read).2.StandsAt tokens j ∧ (onward → i < j)

theorem StandsAt.movesOn (h : p.StandsAt tokens i) {read : Parse α} {onward : Prop}
    (hf : (read p.stop p.rest).result ≠ .error .exhausted)
    (hs : Parse.Past p.rest (read p.stop p.rest).rest)
    (ho : onward → (read p.stop p.rest).rest.length < p.rest.length) :
    p.MovesOn tokens i read onward := by
  refine ⟨hf, _, Nat.le_add_right i _, h.step hs, fun hon => ?_⟩
  exact Nat.lt_add_of_pos_right (Nat.sub_pos_of_lt (ho hon))

theorem StandsAt.movesOn_of_takes (h : p.StandsAt tokens i) {read : Parse α}
    (hf : Parse.Finishes (p.rest.length + 1) read) (ht : Parse.Takes read)
    (hs : Parse.Past p.rest (read p.stop p.rest).rest) :
    p.MovesOn tokens i read (∃ a, (p.step read).1 = .ok a) :=
  h.movesOn (hf p.stop p.rest (Nat.lt_succ_self _)) hs fun ⟨a, ha⟩ => ht p.stop p.rest a ha

theorem StandsAt.program_end (h : p.StandsAt tokens i) :
    (∃ ss, (p.step Parse.program).1 = .ok ss) ∧
      (p.step Parse.program).2.StandsAt tokens (tokens.findIdx (·.kind = .eof)) := by
  obtain ⟨hresult, hpast, hend⟩ := Parse.program_total p.stop p.rest
  have hstep := h.step hpast
  rw [← rest_step hpast.suffix] at hend
  rw [hstep.atEnd_iff.1 hend] at hstep
  exact ⟨hresult, hstep⟩

end Parser

open Parse in
/-- Whatever the tokens, parsing terminates and gets on. Its equations have one solution, however
large the bounds in them, and no reader runs out of a bound; no reader goes back; every result and
every recovery takes a token; and a program is read up to the first end of input. -/
theorem parse_progresses :
    (∀ e : Parse Expr, (∀ stop ts n, ts.length < n → e stop ts = assignment e n stop ts) ↔
      e = expression) ∧
    (∀ s d : Parse Stmt, (∀ stop ts n, ts.length < n →
        s stop ts = statementStep expression s d n stop ts ∧
        d stop ts = declarationStep expression s d n stop ts) ↔
      s = statement ∧ d = declaration) ∧
    (∀ stop ts n, ts.length < n →
      program stop ts = statements (fun _ => false) declaration n stop ts) ∧
    (∀ tokens i (p : Parser), p.StandsAt tokens i →
      p.MovesOn tokens i expression (∃ e, (p.step expression).1 = .ok e) ∧
      p.MovesOn tokens i statement (∃ s, (p.step statement).1 = .ok s) ∧
      p.MovesOn tokens i declaration (∃ s, (p.step declaration).1 = .ok s) ∧
      p.MovesOn tokens i (recover declaration) (i < tokens.findIdx (·.kind = .eof)) ∧
      p.MovesOn tokens i nextStatement (i < tokens.findIdx (·.kind = .eof)) ∧
      (∃ ss, (p.step program).1 = .ok ss) ∧
      (p.step program).2.StandsAt tokens (tokens.findIdx (·.kind = .eof))) ∧
    ∀ tokens, (Parser.ofTokens tokens).StandsAt tokens 0 ∧
      (Parser.ofTokens tokens).program.2.StandsAt tokens (tokens.findIdx (·.kind = .eof)) := by
  refine ⟨fun e => ⟨expression_unique, ?_⟩, fun s d => ⟨statement_unique, ?_⟩,
    fun _ _ _ => program_eq, fun tokens i p h => ?_, fun tokens => ?_⟩
  · rintro rfl stop ts n hn
    exact expression_eq hn
  · rintro ⟨rfl, rfl⟩ stop ts n hn
    exact statement_eq hn
  · have hend : i < tokens.findIdx (·.kind = .eof) → ¬ atEnd p.rest := fun hlt he =>
      absurd (h.atEnd_iff.1 he) (Nat.ne_of_lt hlt)
    obtain ⟨hs, hd⟩ := composed_within (p.rest.length + 1)
    obtain ⟨hrf, hrp, hrlt⟩ := recover_progress p.stop p.rest
    obtain ⟨hnf, hnp, hnlt⟩ := nextStatement_progress p.stop p.rest
    refine ⟨h.movesOn_of_takes finishes_expression takes_expression ?_,
      h.movesOn_of_takes finishes_statement takes_statement (hs.past _ _),
      h.movesOn_of_takes finishes_declaration takes_declaration (hd.past _ _),
      h.movesOn hrf hrp fun hlt => hrlt (hend hlt), h.movesOn hnf hnp fun hlt => hnlt (hend hlt),
      h.program_end⟩
    exact (composed_expressionWithin (p.rest.length + 1)).past _ _
  · exact ⟨Parser.standsAt_ofTokens tokens, (Parser.standsAt_ofTokens tokens).program_end.2⟩

/-- `else ; ! x`, with an end of input before the `x`. -/
def strayTokens : List Token :=
  [⟨.keyword .elseKw, "else", none, ⟨0, 4⟩, ⟨1, 1⟩⟩,
    ⟨.symbol .semicolon, ";", none, ⟨5, 1⟩, ⟨1, 6⟩⟩,
    ⟨.symbol .bang, "!", none, ⟨7, 1⟩, ⟨1, 8⟩⟩, ⟨.eof, "", none, ⟨8, 0⟩, ⟨1, 9⟩⟩,
    ⟨.identifier, "x", none, ⟨9, 1⟩, ⟨1, 10⟩⟩]

theorem parse_progresses_strayTokens :
    ((Parser.ofTokens strayTokens).StandsAt strayTokens 0 ∧
        0 < strayTokens.findIdx (·.kind = .eof) ∧ strayTokens.length < 6) ∧
      (∀ stop, Parse.program stop strayTokens =
        Parse.statements (fun _ => false) Parse.declaration 6 stop strayTokens) ∧
      (∃ j, 0 < j ∧
        ((Parser.ofTokens strayTokens).step (Parse.recover Parse.declaration)).2.StandsAt
          strayTokens j) ∧
      (Parser.ofTokens strayTokens).program.2.StandsAt strayTokens 3 ∧
      (parse strayTokens).2.map ParseError.lexeme = ["else", ""] := by
  obtain ⟨_, _, hbounds, hmoves, hends⟩ := parse_progresses
  obtain ⟨h, hend⟩ := hends strayTokens
  have hlt : 0 < strayTokens.findIdx (·.kind = .eof) := by decide
  have hlen : strayTokens.length < 6 := by decide
  obtain ⟨_, _, _, ⟨_, j, _, hj, hj'⟩, _⟩ := hmoves strayTokens 0 (Parser.ofTokens strayTokens) h
  exact ⟨⟨h, hlt, hlen⟩, fun stop => hbounds stop strayTokens 6 hlen, ⟨j, hj' hlt, hj⟩, hend,
    by decide +kernel⟩

end Scriptlet
