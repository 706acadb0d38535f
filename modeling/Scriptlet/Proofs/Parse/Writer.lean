import Mathlib.Data.List.Forall2
import Scriptlet.Proofs.Tree.Erase
import Scriptlet.Proofs.Parse.ExpressionComplete

/-! Writing expressions with few parentheses or with many, and reading them back. -/
namespace Scriptlet

/-- What a writer puts down in place of a token. -/
inductive Sign where
  | value (v : Value)
  | name (id : String)
  | unary (op : UnaryOp)
  /-- Any token of a kind. -/
  | kind (k : TokenKind)

namespace Sign

/-- The token spells the sign. Spans, positions and spellings without meaning are left open. -/
def Fits : Sign → Token → Prop
  | value v, t => t.kind = v.kind ∧ t.literal = some v
  | name id, t => t.kind = .identifier ∧ t.lexeme = id
  | unary op, t => t.kind ∈ op.kinds
  | kind k, t => t.kind = k

/-- The tokens spell the signs, one by one. -/
def Spell (ss : List Sign) (ts : List Token) : Prop := List.Forall₂ Fits ss ts

theorem spell_append {as bs : List Sign} {ts : List Token} :
    Spell (as ++ bs) ts ↔ ∃ us vs, ts = us ++ vs ∧ Spell as us ∧ Spell bs vs := by
  constructor
  · intro h
    induction as generalizing ts with
    | nil => exact ⟨[], ts, rfl, .nil, h⟩
    | cons a as ih =>
      cases h with
      | cons ha h =>
        obtain ⟨us, vs, rfl, hu, hv⟩ := ih h
        exact ⟨_ :: us, vs, rfl, .cons ha hu, hv⟩
  · rintro ⟨us, vs, rfl, hu, hv⟩
    exact List.rel_append hu hv

theorem spell_cons {a : Sign} {as : List Sign} {ts : List Token} :
    Spell (a :: as) ts ↔ ∃ t us, ts = t :: us ∧ a.Fits t ∧ Spell as us := by
  rw [Spell, List.forall₂_cons_left_iff]
  constructor
  · rintro ⟨t, us, ht, h, rfl⟩
    exact ⟨t, us, rfl, ht, h⟩
  · rintro ⟨t, us, rfl, ht, h⟩
    exact ⟨t, us, ht, h, rfl⟩

theorem leaf?_of_fits {v : Value} {t : Token} (h : (value v).Fits t) : t.leaf? = some v := by
  obtain ⟨hk, hl⟩ := h
  cases v <;> simp [Token.leaf?, hk, hl, Value.kind]

theorem stringValue_of_fits {s : String} {t : Token} (h : (value (.string s)).Fits t) :
    t.stringValue = s := by
  simp [Token.stringValue, h.2]

end Sign

/-- The level of the outermost node. -/
def Expr.level : Expr → Level
  | .literal .. | .name .. => .primary
  | .call .. | .index .. | .member .. => .chain
  | .context .. => .conditional
  | .unary .. => .unary
  | .binary _ op _ _ => op.level
  | .assign .. => .assignment

/-- The signs of an expression of level `l'` where one of level `l` has to stand. -/
def enclose (l l' : Level) (ss : List Sign) : List Sign :=
  if l.rank ≤ l'.rank then ss
  else .kind (.symbol .leftParen) :: ss ++ [.kind (.symbol .rightParen)]

/-- How freely a writer puts expressions in parentheses. -/
structure Style where
  /-- Where the grammar asks for a level, what is looser than this one gets parentheses. -/
  hold : Level → Level
  le_hold : ∀ l, l.rank ≤ (hold l).rank
  /-- The same for expressions that are no part of another one. -/
  whole : Level

namespace Style

/-- Parentheses only where the level demands them. -/
def sparse : Style := ⟨id, fun _ => Nat.le_refl _, .assignment⟩

/-- Parentheses around every part that is no leaf. -/
def full : Style := ⟨fun _ => .primary, Level.rank_le_primary, .assignment⟩

end Style

mutual

/-- The signs of an expression in a style. -/
def Expr.writeIn (st : Style) : Expr → List Sign
  | .literal _ v => [.value v]
  | .name _ id => [.name id]
  | .binary _ op a b =>
    enclose (st.hold op.level) a.level (a.writeIn st) ++ .kind op.kind ::
      enclose (st.hold op.level.next) b.level (b.writeIn st)
  | .assign _ t e =>
    enclose (st.hold .or) t.level (t.writeIn st) ++ .kind (.symbol .assign) ::
      enclose (st.hold .assignment) e.level (e.writeIn st)
  | .unary _ op e => .unary op :: enclose (st.hold .unary) e.level (e.writeIn st)
  | .call _ f es =>
    enclose (st.hold .chain) f.level (f.writeIn st) ++ .kind (.symbol .leftParen) ::
      Expr.writeAllIn st es ++ [.kind (.symbol .rightParen)]
  | .index _ a i =>
    enclose (st.hold .chain) a.level (a.writeIn st) ++ .kind (.symbol .leftBracket) ::
      enclose (st.hold .assignment) i.level (i.writeIn st) ++ [.kind (.symbol .rightBracket)]
  | .member _ e field =>
    enclose (st.hold .chain) e.level (e.writeIn st) ++ [.kind (.symbol .dot), .name field]
  | .context _ e s =>
    enclose (st.hold .chain) e.level (e.writeIn st) ++
      [.kind (.keyword .ifKw), .kind .identifier, .kind (.symbol .equal), .kind (.symbol .equal),
        .value (.string s)]

/-- The signs of expressions with commas between them, in a style. -/
def Expr.writeAllIn (st : Style) : List Expr → List Sign
  | [] => []
  | [e] => enclose (st.hold .assignment) e.level (e.writeIn st)
  | e :: es =>
    enclose (st.hold .assignment) e.level (e.writeIn st) ++ .kind (.symbol .comma) ::
      Expr.writeAllIn st es

end

/-- The signs of an expression, with parentheses only where the level demands them. -/
def Expr.write (e : Expr) : List Sign := e.writeIn .sparse

/-- The tokens derive the expression, up to positions. -/
def Written (l : Level) (e : Expr) (ts : List Token) : Prop :=
  ∃ e', Derives (.expr l e') ts ∧ e'.erase = e.erase

open Sign in
theorem enclose_derives {l l' : Level} {e : Expr} {ss : List Sign} {ts : List Token}
    (hl' : l.rank ≤ l'.rank) (h : ∀ ts, Spell ss ts → Written e.level e ts)
    (hs : Spell (enclose l' e.level ss) ts) : Written l e ts := by
  unfold enclose at hs
  split at hs
  · rename_i hl
    obtain ⟨e', hd, he⟩ := h ts hs
    exact ⟨e', hd.loosen (Nat.le_trans hl' hl), he⟩
  · obtain ⟨lp, _, rfl, hl, hs⟩ := spell_cons.1 hs
    obtain ⟨us, _, rfl, hu, hs⟩ := spell_append.1 hs
    obtain ⟨rp, _, rfl, hr, ⟨⟩⟩ := spell_cons.1 hs
    obtain ⟨e', hd, he⟩ := h us hu
    have hp := Derives.paren hl (hd.loosen (l := .assignment) (Nat.zero_le _)) hr
    exact ⟨e', hp.loosen l.rank_le_primary, he⟩

private theorem Expr.eq_name_of_erase {e : Expr} {id : String} (h : e.erase = .name default id) :
    ∃ p, e = .name p id := by
  cases e <;> simp_all [Expr.erase]

private theorem Expr.eq_name_of_name? {e : Expr} (h : e.name?.isSome) : ∃ p id, e = .name p id := by
  cases e <;> simp_all [Expr.name?]

open Sign in
theorem written_name (p : Position) (id : String) (ts : List Token)
    (h : Spell [.name id] ts) : Written .primary (.name p id) ts := by
  obtain ⟨t, _, rfl, ⟨ht, rfl⟩, ⟨⟩⟩ := spell_cons.1 h
  exact ⟨_, .name ht, rfl⟩

open Sign in
mutual

/-- What is written in a style derives the expression. -/
theorem Expr.writeIn_derives (st : Style) : ∀ (e : Expr), e.assignsNames → ∀ ts,
    Spell (e.writeIn st) ts → Written e.level e ts
  | .literal _ v, _, ts, h => by
    obtain ⟨t, _, rfl, ht, ⟨⟩⟩ := spell_cons.1 h
    exact ⟨_, .literal (leaf?_of_fits ht), rfl⟩
  | .name p id, _, ts, h => written_name p id ts h
  | .binary _ op a b, hn, ts, h => by
    simp only [Expr.assignsNames, Bool.and_eq_true] at hn
    rw [Expr.writeIn, spell_append] at h
    obtain ⟨us, _, rfl, hu, h⟩ := h
    obtain ⟨t, vs, rfl, ht, hv⟩ := spell_cons.1 h
    obtain ⟨a', ha, hea⟩ := enclose_derives (st.le_hold _) (a.writeIn_derives st hn.1) hu
    obtain ⟨b', hb, heb⟩ := enclose_derives (st.le_hold _) (b.writeIn_derives st hn.2) hv
    exact ⟨_, .binary rfl ha ht hb, by simp [Expr.erase, hea, heb]⟩
  | .assign _ x e, hn, ts, h => by
    simp only [Expr.assignsNames, Bool.and_eq_true] at hn
    obtain ⟨p, id, rfl⟩ := Expr.eq_name_of_name? hn.1
    rw [Expr.writeIn, spell_append] at h
    obtain ⟨us, _, rfl, hu, h⟩ := h
    obtain ⟨t, vs, rfl, ht, hv⟩ := spell_cons.1 h
    obtain ⟨x', hx, hex⟩ := enclose_derives (st.le_hold _) (written_name p id) hu
    obtain ⟨e', he, hee⟩ := enclose_derives (st.le_hold _) (e.writeIn_derives st hn.2) hv
    obtain ⟨q, rfl⟩ := Expr.eq_name_of_erase hex
    exact ⟨_, .assign hx ht he, by simp [Expr.erase, hee]⟩
  | .unary _ op e, hn, ts, h => by
    obtain ⟨t, us, rfl, ht, hu⟩ := spell_cons.1 h
    obtain ⟨e', hd, he⟩ := enclose_derives (st.le_hold _) (e.writeIn_derives st hn) hu
    exact ⟨_, .unary ht hd, by simp [Expr.erase, he]⟩
  | .call _ f es, hn, ts, h => by
    simp only [Expr.assignsNames, Bool.and_eq_true] at hn
    rw [Expr.writeIn, spell_append] at h
    obtain ⟨_, _, rfl, h, hr⟩ := h
    obtain ⟨rp, _, rfl, hrp, ⟨⟩⟩ := spell_cons.1 hr
    obtain ⟨us, _, rfl, hu, h⟩ := spell_append.1 h
    obtain ⟨lp, vs, rfl, hl, hv⟩ := spell_cons.1 h
    obtain ⟨f', hf, hef⟩ := enclose_derives (st.le_hold _) (f.writeIn_derives st hn.1) hu
    obtain ⟨es', hes, hees⟩ := Expr.writeAllIn_derives st es hn.2 vs hv
    exact ⟨_, .call hf hl hes hrp, by simp [Expr.erase, hef, hees]⟩
  | .index _ a i, hn, ts, h => by
    simp only [Expr.assignsNames, Bool.and_eq_true] at hn
    rw [Expr.writeIn, spell_append] at h
    obtain ⟨_, _, rfl, h, hr⟩ := h
    obtain ⟨rb, _, rfl, hrb, ⟨⟩⟩ := spell_cons.1 hr
    obtain ⟨us, _, rfl, hu, h⟩ := spell_append.1 h
    obtain ⟨lb, vs, rfl, hl, hv⟩ := spell_cons.1 h
    obtain ⟨a', ha, hea⟩ := enclose_derives (st.le_hold _) (a.writeIn_derives st hn.1) hu
    obtain ⟨i', hi, hei⟩ := enclose_derives (st.le_hold _) (i.writeIn_derives st hn.2) hv
    exact ⟨_, .index ha hl hi hrb, by simp [Expr.erase, hea, hei]⟩
  | .member _ e field, hn, ts, h => by
    rw [Expr.writeIn, spell_append] at h
    obtain ⟨us, _, rfl, hu, h⟩ := h
    obtain ⟨dot, _, rfl, hd, h⟩ := spell_cons.1 h
    obtain ⟨t, _, rfl, ⟨ht, rfl⟩, ⟨⟩⟩ := spell_cons.1 h
    obtain ⟨e', he, hee⟩ := enclose_derives (st.le_hold _) (e.writeIn_derives st hn) hu
    exact ⟨_, .member he hd ht, by simp [Expr.erase, hee]⟩
  | .context _ e s, hn, ts, h => by
    rw [Expr.writeIn, spell_append] at h
    obtain ⟨us, _, rfl, hu, h⟩ := h
    obtain ⟨kw, _, rfl, hk, h⟩ := spell_cons.1 h
    obtain ⟨x, _, rfl, hx, h⟩ := spell_cons.1 h
    obtain ⟨q₁, _, rfl, h₁, h⟩ := spell_cons.1 h
    obtain ⟨q₂, _, rfl, h₂, h⟩ := spell_cons.1 h
    obtain ⟨t, _, rfl, ht, ⟨⟩⟩ := spell_cons.1 h
    obtain ⟨e', he, hee⟩ := enclose_derives (st.le_hold _) (e.writeIn_derives st hn) hu
    exact ⟨_, .context he hk hx h₁ h₂ ht.1, by simp [Expr.erase, hee, stringValue_of_fits ht]⟩

theorem Expr.writeAllIn_derives (st : Style) : ∀ (es : List Expr), Expr.allAssignNames es → ∀ ts,
    Spell (Expr.writeAllIn st es) ts →
    ∃ es', Derives (.arguments es') ts ∧ Expr.eraseAll es' = Expr.eraseAll es
  | [], _, ts, h => by
    obtain rfl : ts = [] := List.forall₂_nil_left_iff.1 h
    exact ⟨[], .argumentsNone, rfl⟩
  | [e], hn, ts, h => by
    simp only [Expr.allAssignNames, Bool.and_true] at hn
    obtain ⟨e', hd, he⟩ := enclose_derives (st.le_hold _) (e.writeIn_derives st hn) h
    exact ⟨[e'], .argumentsSome (.exprsOne hd), by simp [Expr.eraseAll, he]⟩
  | e :: e₂ :: es, hn, ts, h => by
    rw [Expr.allAssignNames, Bool.and_eq_true] at hn
    obtain ⟨us, _, rfl, hu, h⟩ := spell_append.1 h
    obtain ⟨comma, vs, rfl, hc, hv⟩ := spell_cons.1 h
    obtain ⟨e', hd, he⟩ := enclose_derives (st.le_hold _) (e.writeIn_derives st hn.1) hu
    obtain ⟨es', hds, hes⟩ := Expr.writeAllIn_derives st (e₂ :: es) hn.2 vs hv
    cases hds with
    | argumentsNone => simp [Expr.eraseAll] at hes
    | argumentsSome hds =>
      refine ⟨e' :: es', .argumentsSome (.exprsCons hd hc hds), ?_⟩
      rw [Expr.eraseAll, Expr.eraseAll, he, hes]

end

namespace Sign

/-- A token that spells the sign. -/
def token : Sign → Token
  | value v => ⟨v.kind, "", some v, ⟨0, 0⟩, default⟩
  | name id => ⟨.identifier, id, none, ⟨0, 0⟩, default⟩
  | unary op => ⟨op.kinds.headD .eof, "", none, ⟨0, 0⟩, default⟩
  | kind k => ⟨k, "", none, ⟨0, 0⟩, default⟩

theorem fits_token (s : Sign) : s.Fits s.token := by
  cases s with
  | unary op => cases op <;> exact .head _
  | _ => simp [Fits, token]

theorem exists_spell (ss : List Sign) : ∃ ts, Spell ss ts :=
  ⟨ss.map token, List.forall₂_map_right_iff.2 (List.forall₂_same.2 fun s _ => s.fits_token)⟩

end Sign

/-- Kinds of tokens that end every expression before them. -/
def TokenKind.closers : List TokenKind :=
  [.eof, .symbol .semicolon, .symbol .rightParen, .symbol .rightBracket, .symbol .comma,
    .symbol .leftBrace]

private theorem TokenKind.joins?_of_closer {k : TokenKind} (h : k ∈ closers) : k.joins? = none := by
  simp only [closers, List.mem_cons, List.not_mem_nil, or_false] at h
  rcases h with rfl | rfl | rfl | rfl | rfl | rfl <;> rfl

theorem Level.stops_closer {l : Level} {t : Token} {us : List Token}
    (h : t.kind ∈ TokenKind.closers) : l.Stops (t :: us) := by
  refine stops_cons fun l' hj => ?_
  rw [TokenKind.joins?_of_closer h] at hj
  cases hj

/-- Every expression can be written. It is read back from what was written, without an error and up
to the token that ends it, in every parser that stands before it. -/
theorem Parser.expression?_write (e : Expr) (he : e.assignsNames) :
    (∃ ts, Sign.Spell e.write ts) ∧
    ∀ (p : Parser) (ts us : List Token) (t : Token), Sign.Spell e.write ts →
      t.kind ∈ TokenKind.closers → p.rest = ts ++ t :: us →
      ∃ e', e'.erase = e.erase ∧
        p.expression? = (some e', { p with index := p.index + ts.length }) := by
  refine ⟨Sign.exists_spell _, fun p ts us t hts ht hp => ?_⟩
  obtain ⟨e', hd, hee⟩ := e.writeIn_derives .sparse he ts hts
  have hd : Derives (.expr .assignment e') ts := hd.loosen (Nat.zero_le _)
  exact ⟨e', hee, expression?_complete hd (Level.stops_closer ht) (List.cons_ne_nil t us) hp⟩

/-- `a = -(b + c) * d(1) if env == == "dev"` -/
def scaledTree : Expr :=
  .assign ⟨1, 3⟩ (.name ⟨1, 1⟩ "a")
    (.binary ⟨1, 14⟩ .mul
      (.unary ⟨1, 5⟩ .negate (.binary ⟨1, 9⟩ .add (.name ⟨1, 7⟩ "b") (.name ⟨1, 11⟩ "c")))
      (.context ⟨1, 16⟩ (.call ⟨1, 16⟩ (.name ⟨1, 16⟩ "d") [.literal ⟨1, 18⟩ (.integer 1)]) "dev"))

def scaledTokens : List Token :=
  [⟨.identifier, "a", none, ⟨0, 1⟩, ⟨1, 1⟩⟩, ⟨.symbol .assign, "=", none, ⟨2, 1⟩, ⟨1, 3⟩⟩,
    ⟨.symbol .minus, "-", none, ⟨4, 1⟩, ⟨1, 5⟩⟩, ⟨.symbol .leftParen, "(", none, ⟨5, 1⟩, ⟨1, 6⟩⟩,
    ⟨.identifier, "b", none, ⟨6, 1⟩, ⟨1, 7⟩⟩, ⟨.symbol .plus, "+", none, ⟨8, 1⟩, ⟨1, 9⟩⟩,
    ⟨.identifier, "c", none, ⟨10, 1⟩, ⟨1, 11⟩⟩,
    ⟨.symbol .rightParen, ")", none, ⟨11, 1⟩, ⟨1, 12⟩⟩,
    ⟨.symbol .star, "*", none, ⟨13, 1⟩, ⟨1, 14⟩⟩,
    ⟨.identifier, "d", none, ⟨15, 1⟩, ⟨1, 16⟩⟩,
    ⟨.symbol .leftParen, "(", none, ⟨16, 1⟩, ⟨1, 17⟩⟩,
    ⟨.integer, "1", some (.integer 1), ⟨17, 1⟩, ⟨1, 18⟩⟩,
    ⟨.symbol .rightParen, ")", none, ⟨18, 1⟩, ⟨1, 19⟩⟩,
    ⟨.keyword .ifKw, "if", none, ⟨20, 2⟩, ⟨1, 21⟩⟩,
    ⟨.identifier, "env", none, ⟨23, 3⟩, ⟨1, 24⟩⟩, ⟨.symbol .equal, "==", none, ⟨27, 2⟩, ⟨1, 28⟩⟩,
    ⟨.symbol .equal, "==", none, ⟨30, 2⟩, ⟨1, 31⟩⟩,
    ⟨.string, "\"dev\"", some (.string "dev"), ⟨33, 5⟩, ⟨1, 34⟩⟩]

theorem spell_scaledTree : Sign.Spell scaledTree.write scaledTokens := by
  simp [Sign.Spell, scaledTree, scaledTokens, Expr.write, Expr.writeIn, Expr.writeAllIn,
    Style.sparse, Expr.level, enclose, Level.rank, Level.next, BinaryOp.level, BinaryOp.kind,
    Sign.Fits, UnaryOp.kinds, Value.kind]

theorem expression?_scaledTree :
    let semi : Token := ⟨.symbol .semicolon, ";", none, ⟨38, 1⟩, ⟨1, 39⟩⟩
    let p := Parser.ofTokens (scaledTokens ++ [semi])
    scaledTree.assignsNames ∧ Sign.Spell scaledTree.write scaledTokens ∧
      semi.kind ∈ TokenKind.closers ∧
      ∃ e', e'.erase = scaledTree.erase ∧ p.expression? = (some e', { p with index := 18 }) := by
  intro semi p
  have hs : semi.kind ∈ TokenKind.closers := by decide
  exact ⟨rfl, spell_scaledTree, hs,
    (Parser.expression?_write scaledTree rfl).2 p _ [] semi spell_scaledTree hs rfl⟩

end Scriptlet
