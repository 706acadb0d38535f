import Scriptlet.Proofs.Parse.Input
import Scriptlet.Proofs.Parse.StatementComplete
import Scriptlet.Proofs.Parse.Writer

/-! Writing programs, with newlines wherever they may stand, and reading them back. -/
namespace Scriptlet

/-- What a writer of programs puts down. -/
inductive Mark where
  | sign (s : Sign)
  /-- Any number of newlines. -/
  | newlines

namespace Mark

abbrev kind (k : TokenKind) : Mark := .sign (.kind k)

abbrev name (id : String) : Mark := .sign (.name id)

/-- The tokens spell the marks, one token for each sign. -/
def Spell : List Mark → List Token → Prop
  | [], ts => ts = []
  | .sign s :: ms, ts => ∃ t us, ts = t :: us ∧ s.Fits t ∧ Spell ms us
  | .newlines :: ms, ts => ∃ ns us, ts = ns ++ us ∧ (∀ n ∈ ns, n.kind = .newline) ∧ Spell ms us

variable {as bs ms : List Mark} {ts : List Token}

theorem spell_append :
    Spell (as ++ bs) ts ↔ ∃ us vs, ts = us ++ vs ∧ Spell as us ∧ Spell bs vs := by
  induction as generalizing ts with
  | nil => simp [Spell]
  | cons m as ih =>
    cases m with
    | sign s =>
      simp only [List.cons_append, Spell, ih]
      constructor
      · rintro ⟨t, _, rfl, ht, us, vs, rfl, hu, hv⟩
        exact ⟨t :: us, vs, rfl, ⟨t, us, rfl, ht, hu⟩, hv⟩
      · rintro ⟨_, vs, rfl, ⟨t, us, rfl, ht, hu⟩, hv⟩
        exact ⟨t, us ++ vs, rfl, ht, us, vs, rfl, hu, hv⟩
    | newlines =>
      simp only [List.cons_append, Spell, ih]
      constructor
      · rintro ⟨ns, _, rfl, hn, us, vs, rfl, hu, hv⟩
        exact ⟨ns ++ us, vs, (List.append_assoc _ _ _).symm, ⟨ns, us, rfl, hn, hu⟩, hv⟩
      · rintro ⟨_, vs, rfl, ⟨ns, us, rfl, hn, hu⟩, hv⟩
        exact ⟨ns, us ++ vs, List.append_assoc _ _ _, hn, us, vs, rfl, hu, hv⟩

theorem spell_signs {ss : List Sign} : Spell (ss.map .sign) ts ↔ Sign.Spell ss ts := by
  induction ss generalizing ts with
  | nil => exact List.forall₂_nil_left_iff.symm
  | cons s ss ih => simp only [List.map_cons, Spell, Sign.spell_cons, ih]

/-- Tokens for the marks, with `n` newlines for each place that allows them. -/
def tokens (n : Nat) : List Mark → List Token
  | [] => []
  | .sign s :: ms => s.token :: tokens n ms
  | .newlines :: ms => List.replicate n (Sign.kind .newline).token ++ tokens n ms

theorem spell_tokens (n : Nat) (ms : List Mark) : Spell ms (tokens n ms) := by
  induction ms with
  | nil => rfl
  | cons m ms ih =>
    cases m with
    | sign s => exact ⟨s.token, tokens n ms, rfl, s.fits_token, ih⟩
    | newlines =>
      refine ⟨_, tokens n ms, rfl, fun t ht => ?_, ih⟩
      rw [List.eq_of_mem_replicate ht, Sign.token]

end Mark

/-- The marks of an expression that is no part of another one. -/
def Expr.writeWhole (st : Style) (e : Expr) : List Mark :=
  (enclose st.whole e.level (e.writeIn st)).map .sign

/-- The marks of a type name that may be left out. -/
def writeType (mark : Symbol) : Option String → List Mark
  | none => []
  | some x => [.kind (.symbol mark), .name x]

namespace Parameter

def write (p : Parameter) : List Mark := [.name p.name, .kind (.symbol .colon), .name p.typeName]

/-- The marks of parameters with commas between them. -/
def writeAll : List Parameter → List Mark
  | [] => []
  | [p] => p.write
  | p :: ps => p.write ++ .kind (.symbol .comma) :: writeAll ps

end Parameter

/-- The marks of a function up to its body. -/
def Signature.write (f : Signature) : List Mark :=
  .kind (.keyword .fnKw) :: .name f.name :: .kind (.symbol .leftParen) ::
    Parameter.writeAll f.parameters ++ .kind (.symbol .rightParen) :: writeType .arrow f.returnType

def Declaration.write (st : Style) (d : Declaration) : List Mark :=
  .kind (.keyword .letKw) :: (if d.mutable then [.kind (.keyword .mutKw)] else []) ++
    .name d.name :: writeType .colon d.typeName ++
    (match d.initial with
    | none => []
    | some e => .kind (.symbol .assign) :: e.writeWhole st) ++ [.kind (.symbol .semicolon)]

mutual

/-- The marks of a statement. -/
def Stmt.write (st : Style) : Stmt → List Mark
  | .expr _ e => e.writeWhole st ++ [.kind (.symbol .semicolon)]
  | .declare _ d => d.write st
  | .block _ ss =>
    .kind (.symbol .leftBrace) :: Stmt.writeAll st ss ++ [.kind (.symbol .rightBrace)]
  | .function _ f ss =>
    f.write ++ .kind (.symbol .leftBrace) :: Stmt.writeAll st ss ++ [.kind (.symbol .rightBrace)]
  | .ret _ none => [.kind (.keyword .returnKw), .kind (.symbol .semicolon)]
  | .ret _ (some e) =>
    .kind (.keyword .returnKw) :: e.writeWhole st ++ [.kind (.symbol .semicolon)]
  | .ifThen _ c s => .kind (.keyword .ifKw) :: c.writeWhole st ++ s.write st
  | .ifElse _ c s f =>
    .kind (.keyword .ifKw) :: c.writeWhole st ++ s.write st ++ .kind (.keyword .elseKw) :: f.write st
  | .whileLoop _ c s => .kind (.keyword .whileKw) :: c.writeWhole st ++ s.write st
  | .forRange _ x a b s =>
    .kind (.keyword .forKw) :: .name x :: .kind (.keyword .inKw) :: a.writeWhole st ++
      .kind (.symbol .dot) :: .kind (.symbol .dot) :: b.writeWhole st ++ s.write st

/-- The marks of statements one after the other, with newlines before each of them and at the
end. -/
def Stmt.writeAll (st : Style) : List Stmt → List Mark
  | [] => [.newlines]
  | s :: ss => .newlines :: s.write st ++ Stmt.writeAll st ss

end

open Mark

theorem Expr.writeWhole_derives {st : Style} {e : Expr} {ts : List Token} (hn : e.assignsNames)
    (h : Spell (e.writeWhole st) ts) : Written .assignment e ts :=
  enclose_derives (Nat.zero_le _) (e.writeIn_derives st hn) (spell_signs.1 h)

theorem writeType_derives {mark : Symbol} {x? : Option String} {ts : List Token}
    (h : Spell (writeType mark x?) ts) : TypeMark mark ts x? := by
  cases x? with
  | none =>
    obtain rfl : ts = [] := h
    exact .absent
  | some x =>
    obtain ⟨m, _, rfl, hm, t, _, rfl, ⟨ht, rfl⟩, rfl⟩ := h
    exact .present hm ht

namespace Parameter

theorem write_derives {p : Parameter} {ts : List Token} (h : Spell p.write ts) :
    Derives (.parameter p) ts := by
  obtain ⟨x, _, rfl, ⟨hx, hname⟩, c, _, rfl, hc, t, _, rfl, ⟨ht, htype⟩, rfl⟩ := h
  have hd := Derives.parameter hx hc ht
  rwa [hname, htype] at hd

theorem writeAll_derives : ∀ (ps : List Parameter) (ts : List Token), Spell (writeAll ps) ts →
    Derives (.parameters ps) ts
  | [], ts, h => by
    obtain rfl : ts = [] := h
    exact .parametersNone
  | [p], ts, h => .parametersSome (.parameterListOne (write_derives h))
  | p :: q :: ps, ts, h => by
    obtain ⟨us, _, rfl, hu, c, vs, rfl, hc, hv⟩ := spell_append.1 h
    cases writeAll_derives (q :: ps) vs hv with
    | parametersSome hps => exact .parametersSome (.parameterListCons (write_derives hu) hc hps)

end Parameter

/-- The tokens derive the statement, up to positions. -/
def Stmt.Written (s : Stmt) (ts : List Token) : Prop :=
  ∃ s', Derives (.declaration s') ts ∧ s'.erase = s.erase

namespace Stmt

@[simp] theorem isBlock_erase (s : Stmt) : s.erase.isBlock = s.isBlock := by
  cases s <;> rw [erase] <;> rfl

@[simp] theorem isBranch_erase (s : Stmt) : s.erase.isBranch = s.isBranch := by
  cases s <;> rw [erase] <;> rfl

theorem isBranch_of_isBlock {s : Stmt} (h : s.isBlock) : s.isBranch := by
  cases s <;> simp_all [isBlock, isBranch]

/-- A block or a conditional is no declaration. -/
theorem Written.statement {s : Stmt} {ts : List Token} (h : s.Written ts) (hs : s.isBranch) :
    ∃ s', Derives (.statement s') ts ∧ s'.erase = s.erase := by
  obtain ⟨s', hd, he⟩ := h
  rw [← isBranch_erase, ← he, isBranch_erase] at hs
  cases hd with
  | plain hd => exact ⟨s', hd, he⟩
  | _ => simp [isBranch] at hs

end Stmt

theorem Declaration.write_derives {st : Style} {d : Declaration} {ts : List Token} (p : Position)
    (hn : d.initial.all Expr.assignsNames) (h : Spell (d.write st) ts) :
    (Stmt.declare p d).Written ts := by
  obtain ⟨name, type?, initial, mutable⟩ := d
  obtain ⟨_, _, rfl, hfront, semi, _, rfl, hsemi, rfl⟩ := spell_append.1 h
  obtain ⟨_, us, rfl, hhead, hinitial⟩ := spell_append.1 hfront
  obtain ⟨_, _, rfl, ⟨kw, ms, rfl, hk, hm⟩, x, vs, rfl, ⟨hx, rfl⟩, htype⟩ := spell_append.1 hhead
  have hms : ms.map Token.kind = if mutable then [.keyword .mutKw] else [] := by
    cases mutable with
    | false => rw [show ms = [] from hm]; rfl
    | true =>
      obtain ⟨m, _, rfl, hm, rfl⟩ := hm
      exact congrArg (fun k => [k]) hm
  have ht := writeType_derives htype
  cases initial with
  | none =>
    obtain rfl : us = [] := hinitial
    rw [List.append_nil]
    exact ⟨_, .declare hk hms hx ht hsemi, rfl⟩
  | some e =>
    obtain ⟨q, us, rfl, hq, he⟩ := hinitial
    obtain ⟨e', hd, hee⟩ := Expr.writeWhole_derives hn he
    have hd := Derives.declareInitial hk hms hx ht hq hd hsemi
    exact ⟨_, hd, by simp [Declaration.erase, hee]⟩

mutual

/-- What is written in a style derives the statement. -/
theorem Stmt.write_derives (st : Style) : ∀ (s : Stmt), s.bodied → s.assignsNames → ∀ ts,
    Spell (s.write st) ts → s.Written ts
  | .expr _ e, _, hn, ts, h => by
    obtain ⟨us, _, rfl, hu, semi, _, rfl, hs, rfl⟩ := spell_append.1 h
    obtain ⟨e', hd, he⟩ := Expr.writeWhole_derives hn hu
    -- The statement stands at the first token of its expression, so there has to be one.
    obtain ⟨t, us, rfl, _⟩ := hd.opens
    exact ⟨_, .plain (.exprStmt hd hs), by simp [he]⟩
  | .declare p d, _, hn, ts, h => d.write_derives p hn h
  | .block _ ss, hb, hn, ts, h => by
    obtain ⟨_, _, rfl, ⟨lb, us, rfl, hl, hu⟩, rb, _, rfl, hr, rfl⟩ := spell_append.1 h
    obtain ⟨ss', hd, hes⟩ := Stmt.writeAll_derives st ss hb hn us hu
    exact ⟨_, .plain (.block hl hd hr), by simp [hes]⟩
  | .function _ f ss, hb, hn, ts, h => by
    obtain ⟨_, _, rfl, hfront, rb, _, rfl, hrb, rfl⟩ := spell_append.1 h
    obtain ⟨_, _, rfl, hhead, lb, bs, rfl, hlb, hbody⟩ := spell_append.1 hfront
    obtain ⟨_, _, rfl, hopen, rp, rs, rfl, hrp, hresult⟩ := spell_append.1 hhead
    obtain ⟨kw, _, rfl, hk, x, _, rfl, ⟨hx, hname⟩, lp, ps, rfl, hlp, hparams⟩ := hopen
    obtain ⟨ss', hd, hes⟩ := Stmt.writeAll_derives st ss hb hn bs hbody
    have hps := Parameter.writeAll_derives f.parameters ps hparams
    have hd := Derives.function hk hx hlp hps hrp (writeType_derives hresult) hlb hd hrb
    exact ⟨_, hd, by simp [hes, hname]⟩
  | .ret _ none, _, _, ts, h => by
    obtain ⟨kw, _, rfl, hk, semi, _, rfl, hs, rfl⟩ := h
    exact ⟨_, .plain (.ret hk hs), rfl⟩
  | .ret _ (some e), _, hn, ts, h => by
    obtain ⟨_, _, rfl, ⟨kw, us, rfl, hk, hu⟩, semi, _, rfl, hs, rfl⟩ := spell_append.1 h
    obtain ⟨e', hd, he⟩ := Expr.writeWhole_derives hn hu
    exact ⟨_, .plain (.retValue hk hd hs), by simp [he]⟩
  | .ifThen _ c s, hb, hn, ts, h => by
    rw [Stmt.bodied, Bool.and_eq_true] at hb
    rw [Stmt.assignsNames, Bool.and_eq_true] at hn
    obtain ⟨_, vs, rfl, ⟨kw, us, rfl, hk, hu⟩, hv⟩ := spell_append.1 h
    obtain ⟨c', hc, hec⟩ := Expr.writeWhole_derives hn.1 hu
    have hs := s.write_derives st hb.2 hn.2 vs hv
    obtain ⟨s', hds, hes⟩ := hs.statement (Stmt.isBranch_of_isBlock hb.1)
    exact ⟨_, .plain (.ifThen hk hc hds), by simp [hec, hes]⟩
  | .ifElse _ c s f, hb, hn, ts, h => by
    simp only [Stmt.bodied, Bool.and_eq_true] at hb
    simp only [Stmt.assignsNames, Bool.and_eq_true] at hn
    obtain ⟨_, _, rfl, hfront, el, ws, rfl, hel, hw⟩ := spell_append.1 h
    obtain ⟨_, vs, rfl, ⟨kw, us, rfl, hk, hu⟩, hv⟩ := spell_append.1 hfront
    obtain ⟨c', hc, hec⟩ := Expr.writeWhole_derives hn.1.1 hu
    have hs := s.write_derives st hb.1.2 hn.1.2 vs hv
    have hf := f.write_derives st hb.2.2 hn.2 ws hw
    obtain ⟨s', hds, hes⟩ := hs.statement (Stmt.isBranch_of_isBlock hb.1.1)
    obtain ⟨f', hdf, hef⟩ := hf.statement hb.2.1
    exact ⟨_, .plain (.ifElse hk hc hds hel hdf), by simp [hec, hes, hef]⟩
  | .whileLoop _ c s, hb, hn, ts, h => by
    rw [Stmt.bodied, Bool.and_eq_true] at hb
    rw [Stmt.assignsNames, Bool.and_eq_true] at hn
    obtain ⟨_, vs, rfl, ⟨kw, us, rfl, hk, hu⟩, hv⟩ := spell_append.1 h
    obtain ⟨c', hc, hec⟩ := Expr.writeWhole_derives hn.1 hu
    have hs := s.write_derives st hb.2 hn.2 vs hv
    obtain ⟨s', hds, hes⟩ := hs.statement (Stmt.isBranch_of_isBlock hb.1)
    exact ⟨_, .plain (.whileLoop hk hc hds), by simp [hec, hes]⟩
  | .forRange _ _ a b s, hb, hn, ts, h => by
    rw [Stmt.bodied, Bool.and_eq_true] at hb
    simp only [Stmt.assignsNames, Bool.and_eq_true] at hn
    obtain ⟨_, ws, rfl, hfront, hw⟩ := spell_append.1 h
    obtain ⟨_, _, rfl, hhead, d₁, _, rfl, h₁, d₂, vs, rfl, h₂, hv⟩ := spell_append.1 hfront
    obtain ⟨kw, _, rfl, hk, x, _, rfl, ⟨hx, rfl⟩, i, us, rfl, hi, hu⟩ := hhead
    obtain ⟨a', ha, hea⟩ := Expr.writeWhole_derives hn.1.1 hu
    obtain ⟨b', hb', heb⟩ := Expr.writeWhole_derives hn.1.2 hv
    have hs := s.write_derives st hb.2 hn.2 ws hw
    obtain ⟨s', hds, hes⟩ := hs.statement (Stmt.isBranch_of_isBlock hb.1)
    exact ⟨_, .plain (.forRange hk hx hi ha h₁ h₂ hb' hds), by simp [hea, heb, hes]⟩

theorem Stmt.writeAll_derives (st : Style) : ∀ (ss : List Stmt), Stmt.allBodied ss →
    Stmt.allAssignNames ss → ∀ ts, Spell (Stmt.writeAll st ss) ts →
    ∃ ss', Derives (.body ss') ts ∧ Stmt.eraseAll ss' = Stmt.eraseAll ss
  | [], _, _, ts, h => by
    obtain ⟨ns, _, rfl, hn, rfl⟩ := h
    exact ⟨[], by simpa using Derives.bodyEnd hn, rfl⟩
  | s :: ss, hb, hn, ts, h => by
    rw [Stmt.allBodied, Bool.and_eq_true] at hb
    rw [Stmt.allAssignNames, Bool.and_eq_true] at hn
    obtain ⟨_, vs, rfl, ⟨ns, us, rfl, hns, hu⟩, hv⟩ := spell_append.1 h
    obtain ⟨s', hd, hes⟩ := s.write_derives st hb.1 hn.1 us hu
    obtain ⟨ss', hds, hess⟩ := Stmt.writeAll_derives st ss hb.2 hn.2 vs hv
    refine ⟨s' :: ss', .bodyCons hns hd hds, ?_⟩
    rw [Stmt.eraseAll, Stmt.eraseAll, hes, hess]

end

mutual

theorem Stmt.bodied_erase : ∀ s : Stmt, s.erase.bodied = s.bodied
  | .expr .. | .declare .. | .ret .. => by simp [Stmt.bodied]
  | .block _ ss | .function _ _ ss => by simp [Stmt.bodied, Stmt.allBodied_eraseAll ss]
  | .ifThen _ _ s | .whileLoop _ _ s | .forRange _ _ _ _ s => by
    simp [Stmt.bodied, s.bodied_erase]
  | .ifElse _ _ s f => by simp [Stmt.bodied, s.bodied_erase, f.bodied_erase]

theorem Stmt.allBodied_eraseAll : ∀ ss : List Stmt,
    Stmt.allBodied (Stmt.eraseAll ss) = Stmt.allBodied ss
  | [] => rfl
  | s :: ss => by
    rw [Stmt.eraseAll, Stmt.allBodied, Stmt.allBodied, s.bodied_erase, Stmt.allBodied_eraseAll ss]

end

/-- Every program whose bodies and branches are blocks and whose assignments have names as their
targets can be written, in every style. It is read back from what was written, without an error and
up to positions, however many newlines stand where they may. -/
theorem parse_write (st : Style) (p : Program) (hb : Stmt.allBodied p)
    (hn : Stmt.allAssignNames p) :
    (∃ ts, Spell (Stmt.writeAll st p) ts) ∧
    ∀ (ts : List Token) (eof : Token), Spell (Stmt.writeAll st p) ts → eof.kind = .eof →
      ∃ p', p'.map Stmt.erase = p.map Stmt.erase ∧ parse (ts ++ [eof]) = (p', []) := by
  refine ⟨⟨_, spell_tokens 0 _⟩, fun ts eof hts heof => ?_⟩
  obtain ⟨p', hd, he⟩ := Stmt.writeAll_derives st p hb hn ts hts
  have hb' : Stmt.allBodied p' := by
    rw [← Stmt.allBodied_eraseAll, he, Stmt.allBodied_eraseAll]
    exact hb
  have hread : Parse.Reads Parse.program (input (ts ++ [eof])).1 (input (ts ++ [eof])).2 p' [] := by
    rw [input_append hd.kind_ne_eof heof]
    exact Parse.program_complete hd hb'
  refine ⟨p', ?_, parse_of_reads hread⟩
  rw [← Stmt.eraseAll_eq_map, he, Stmt.eraseAll_eq_map]

/-- A conditional with an `else if`, a loop over a range with a computed end, two declarations and
a function that returns. -/
def scoreProgram : Program :=
  [.declare default ⟨"n", some "int", some (.literal default (.integer 3)), true⟩,
    .function default ⟨"rest", [⟨"a", "int"⟩, ⟨"b", "int"⟩], some "int"⟩
      [.ret default (some (.unary default .negate
        (.binary default .sub (.name default "a") (.name default "b"))))],
    .forRange default "i" (.literal default (.integer 0))
      (.binary default .mul (.name default "n")
        (.binary default .add (.name default "n") (.literal default (.integer 1))))
      (.block default
        [.ifElse default (.binary default .lt (.name default "i") (.name default "n"))
          (.block default [.expr default
            (.assign default (.name default "n")
              (.call default (.name default "rest") [.name default "n", .name default "i"]))])
          (.ifThen default (.name default "ready") (.block default []))]),
    .declare default ⟨"done", none, none, false⟩]

theorem parse_write_scoreProgram :
    let ts := Mark.tokens 2 (Stmt.writeAll .full scoreProgram)
    let eof := (Sign.kind .eof).token
    Stmt.allBodied scoreProgram ∧ Stmt.allAssignNames scoreProgram ∧
    Spell (Stmt.writeAll .full scoreProgram) ts ∧ ts.length = 95 ∧ eof.kind = .eof ∧
    ∃ p', p'.map Stmt.erase = scoreProgram.map Stmt.erase ∧ parse (ts ++ [eof]) = (p', []) := by
  intro ts eof
  have hb : Stmt.allBodied scoreProgram := rfl
  have hn : Stmt.allAssignNames scoreProgram := rfl
  have hts : Spell (Stmt.writeAll .full scoreProgram) ts := spell_tokens 2 _
  have hread := (parse_write .full scoreProgram hb hn).2 ts eof hts rfl
  exact ⟨hb, hn, hts, rfl, rfl, hread⟩

end Scriptlet
