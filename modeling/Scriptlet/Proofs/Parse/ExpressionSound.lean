import Scriptlet.Proofs.Parse.Silent
import Scriptlet.Proofs.Parse.Grammar

/-! Expressions that are read without an error are derivations: what a reader takes away from the
tokens can be read as its result by the grammar. -/
namespace Scriptlet

theorem UnaryOp.ofKind?_eq_some {k : TokenKind} {op : UnaryOp} :
    UnaryOp.ofKind? k = some op ↔ k ∈ op.kinds := by
  constructor
  · intro h
    unfold UnaryOp.ofKind? at h
    split at h <;> cases h <;> simp [UnaryOp.kinds]
  · intro h
    cases op <;> simp only [UnaryOp.kinds, List.mem_cons, List.not_mem_nil, or_false] at h
    · rcases h with rfl | rfl <;> rfl
    · rw [h]; rfl
    · rw [h]; rfl

namespace Parse

variable {α : Type} {inner next : Parse Expr} {stop : Token} {ts rest : List Token}

/-- The table holds exactly the operators of a level. -/
structure OpTable.At (ops : OpTable) (l : Level) : Prop where
  isBinary : l.IsBinary
  some_iff : ∀ k op, ops k = some op ↔ op.level = l ∧ op.kind = k

/-- The tables of the reader are those of the grammar, level by level. -/
theorem tables_at : OpTable.At orOps .or ∧ OpTable.At andOps .and ∧
    OpTable.At equalityOps .equality ∧ OpTable.At comparisonOps .comparison ∧
    OpTable.At termOps .term ∧ OpTable.At factorOps .factor := by
  refine ⟨?_, ?_, ?_, ?_, ?_, ?_⟩
  all_goals
    refine ⟨by decide, fun k op => ?_⟩
    constructor
    · intro h
      simp only [orOps, andOps, equalityOps, comparisonOps, termOps, factorOps] at h
      split at h <;> cases h <;> exact ⟨rfl, rfl⟩
    · rintro ⟨h, rfl⟩
      cases op <;> simp [BinaryOp.level] at h <;> rfl

/-- Whatever the reader silently takes away is a derivation of its result. -/
def Sound (p : Parse α) (phrase : α → Phrase) : Prop :=
  ∀ ⦃stop ts a rest⦄, Reads p stop ts a rest → ∃ used, ts = used ++ rest ∧ Derives (phrase a) used

/-- The same for a reader that goes on behind the tokens `front`. -/
def SoundAfter (front : List Token) (p : Parse α) (phrase : α → Phrase) : Prop :=
  ∀ ⦃stop ts a rest⦄, Reads p stop ts a rest →
    ∃ used, ts = used ++ rest ∧ Derives (phrase a) (front ++ used)

/-- The token that opens an operand stands there. -/
theorem reads_opening_bind {β : Type} {g : Opening → Parse β} {b : β} :
    Reads (opening >>= g) stop ts b rest ↔
      ∃ t us o, ts = t :: us ∧ opening? t = some o ∧ Reads (g o) stop us b rest := by
  have hopening {o : Opening} {us : List Token} :
      Reads opening stop ts o us ↔ ∃ t, ts = t :: us ∧ opening? t = some o := by
    rw [opening, reads_take?_bind]
    constructor
    · rintro (⟨t, us', o', rfl, ht, h⟩ | ⟨_, h⟩)
      · obtain ⟨rfl, rfl⟩ := reads_pure.1 h
        exact ⟨t, rfl, ht⟩
      · exact absurd h not_reads_fail
    · rintro ⟨t, rfl, ht⟩
      exact .inl ⟨t, us, o, rfl, ht, reads_return⟩
  rw [reads_bind]
  constructor
  · rintro ⟨o, us, ho, h⟩
    obtain ⟨t, rfl, ht⟩ := hopening.1 ho
    exact ⟨t, us, o, rfl, ht, h⟩
  · rintro ⟨t, us, o, rfl, ht, h⟩
    exact ⟨o, us, hopening.2 ⟨t, rfl, ht⟩, h⟩

/-- A leaf is a derivation, and all else that opens an operand is a parenthesis. -/
theorem opening?_sound {t : Token} {o : Opening} (h : opening? t = some o) :
    (∃ e, o = .leaf e ∧ Derives (.expr .primary e) [t]) ∨
      o = .paren ∧ t.kind = .symbol .leftParen := by
  unfold opening? at h
  split at h
  · rename_i v hv
    cases h
    exact .inl ⟨_, rfl, .literal hv⟩
  · split at h
    · rename_i hk
      cases h
      exact .inl ⟨_, rfl, .name hk⟩
    · split at h
      · rename_i hk
        cases h
        exact .inr ⟨rfl, hk⟩
      · cases h

theorem primary_sound (hi : Sound inner (.expr .assignment)) :
    Sound (primary inner) (.expr .primary) := by
  intro stop ts e rest h
  rw [primary, reads_opening_bind] at h
  obtain ⟨t, us, o, rfl, ho, h⟩ := h
  obtain ⟨e', rfl, hd⟩ | ⟨rfl, hk⟩ := opening?_sound ho
  · obtain ⟨rfl, rfl⟩ := reads_pure.1 h
    exact ⟨[t], rfl, hd⟩
  · obtain ⟨e', mid, he, h⟩ := reads_bind.1 h
    obtain ⟨rp, us, rfl, hr, h⟩ := reads_expect_bind.1 h
    obtain ⟨rfl, rfl⟩ := reads_pure.1 h
    obtain ⟨used, rfl, hd⟩ := hi he
    exact ⟨t :: used ++ [rp], by simp, .paren hk hd hr⟩

/-- Items with commas between them, for every way to write a list of items. -/
theorem commaList_sound {α : Type} {item : Parse α} {one : α → Phrase} {many : List α → Phrase}
    (hi : Sound item one) (hone : ∀ {ts a}, Derives (one a) ts → Derives (many [a]) ts)
    (hcons : ∀ {ts us c a as}, Derives (one a) ts → c.kind = .symbol .comma →
      Derives (many as) us → Derives (many (a :: as)) (ts ++ c :: us)) (n : Nat) :
    Sound (commaList item n) many := by
  induction n with
  | zero => exact fun _ _ _ _ h => absurd h not_reads_exhausted
  | succ n ih =>
    intro stop ts as rest h
    rw [commaList, reads_bind] at h
    obtain ⟨a, mid, ha, h⟩ := h
    obtain ⟨used, rfl, hd⟩ := hi ha
    obtain ⟨c, us, rfl, hc, h⟩ | ⟨_, h⟩ := reads_accept_bind.1 h
    · simp only [if_true, reads_bind] at h
      obtain ⟨as', mid', has, h⟩ := h
      obtain ⟨rfl, rfl⟩ := reads_pure.1 h
      obtain ⟨used', rfl, hd'⟩ := ih has
      exact ⟨used ++ c :: used', by simp, hcons hd hc hd'⟩
    · obtain ⟨rfl, rfl⟩ := reads_pure.1 h
      exact ⟨used, rfl, hone hd⟩

/-- The arguments of a call end at a closing parenthesis. -/
theorem arguments_sound {n : Nat} (hi : Sound inner (.expr .assignment)) {es : List Expr}
    (h : Reads (arguments inner n) stop ts es rest) : ∃ used rp, ts = used ++ rp :: rest ∧
      rp.kind = .symbol .rightParen ∧ Derives (.arguments es) used := by
  rw [arguments, reads_check_bind] at h
  split at h
  · rw [reads_bind] at h
    obtain ⟨es', mid, hs, h⟩ := h
    obtain ⟨rfl, rfl⟩ := reads_pure.1 hs
    obtain ⟨rp, us, rfl, hr, h⟩ := reads_expect_bind.1 h
    obtain ⟨rfl, rfl⟩ := reads_pure.1 h
    exact ⟨[], rp, rfl, hr, .argumentsNone⟩
  · rw [reads_bind] at h
    obtain ⟨es', mid, hs, h⟩ := h
    obtain ⟨rp, us, rfl, hr, h⟩ := reads_expect_bind.1 h
    obtain ⟨rfl, rfl⟩ := reads_pure.1 h
    obtain ⟨used, rfl, hd⟩ := commaList_sound hi .exprsOne .exprsCons n hs
    exact ⟨used, rp, rfl, hr, .argumentsSome hd⟩

/-- A member that is silently read is a dot and a name. -/
theorem reads_memberName?_bind {β : Type} {g : Option String → Parse β} {b : β} :
    Reads (memberName? >>= g) stop ts b rest ↔
      (∃ dot t us, ts = dot :: t :: us ∧ dot.kind = .symbol .dot ∧ t.kind = .identifier ∧
        Reads (g (some t.lexeme)) stop us b rest) ∨
      memberDot ts = false ∧ Reads (g none) stop ts b rest := by
  rw [reads_bind]
  constructor
  · rintro ⟨field?, mid, hf, h⟩
    rw [memberName?, reads_looks_bind] at hf
    cases hm : memberDot ts with
    | false =>
      rw [hm] at hf
      obtain ⟨rfl, rfl⟩ := reads_pure.1 hf
      exact .inr ⟨rfl, h⟩
    | true =>
      rw [hm, if_pos rfl] at hf
      cases ts with
      | nil => cases hm
      | cons dot ts =>
        obtain ⟨hdot, _⟩ : dot.kind = .symbol .dot ∧ _ := by simpa [memberDot] using hm
        rw [reads_advance_bind (by simp [hdot]), reads_expect_bind] at hf
        obtain ⟨t, us, rfl, ht, hf⟩ := hf
        obtain ⟨rfl, rfl⟩ := reads_pure.1 hf
        exact .inl ⟨dot, t, mid, rfl, hdot, ht, h⟩
  · rintro (⟨dot, t, us, rfl, hdot, ht, h⟩ | ⟨hm, h⟩)
    · have hm : memberDot (dot :: t :: us) := by simp [memberDot, hdot, ht]
      refine ⟨some t.lexeme, us, ?_, h⟩
      rw [memberName?, reads_looks_bind, if_pos hm, reads_advance_bind (by simp [hdot]),
        reads_expect_bind]
      exact ⟨t, us, rfl, ht, reads_return⟩
    · refine ⟨none, ts, ?_, h⟩
      rw [memberName?, reads_looks_bind, hm]
      exact reads_return

/-- One more call, index or member behind an expression makes a longer derivation. -/
theorem chain_sound (hi : Sound inner (.expr .assignment)) {n : Nat} {e : Expr}
    {front : List Token} (he : Derives (.expr .chain e) front) :
    SoundAfter front (chain inner n e) (.expr .chain) := by
  intro stop ts e' rest h
  induction n generalizing e front ts with
  | zero => exact absurd h not_reads_exhausted
  | succ n ih =>
    rw [chain, reads_accept_bind] at h
    obtain ⟨lp, us, rfl, hl, h⟩ | ⟨_, h⟩ := h
    · simp only [if_true, reads_bind] at h
      obtain ⟨es, mid, hs, h⟩ := h
      obtain ⟨as, rp, rfl, hr, ha⟩ := arguments_sound hi hs
      obtain ⟨used, rfl, hd⟩ := ih (.call he hl ha hr) h
      exact ⟨lp :: as ++ rp :: used, by simp, by simpa using hd⟩
    · simp only [Bool.false_eq_true, if_false] at h
      rw [reads_accept_bind] at h
      obtain ⟨lb, us, rfl, hl, h⟩ | ⟨_, h⟩ := h
      · simp only [if_true, reads_bind, reads_expect] at h
        obtain ⟨i, mid, hs, rb, mid', ⟨rfl, hr⟩, h⟩ := h
        obtain ⟨is, rfl, hd'⟩ := hi hs
        obtain ⟨used, rfl, hd⟩ := ih (.index he hl hd' hr) h
        exact ⟨lb :: is ++ rb :: used, by simp, by simpa using hd⟩
      · simp only [Bool.false_eq_true, if_false] at h
        rw [reads_memberName?_bind] at h
        obtain ⟨dot, t, us, rfl, hdot, ht, h⟩ | ⟨_, h⟩ := h
        · obtain ⟨used, rfl, hd⟩ := ih (.member he hdot ht) h
          exact ⟨dot :: t :: used, by simp, by simpa using hd⟩
        · obtain ⟨rfl, rfl⟩ := reads_pure.1 h
          exact ⟨[], rfl, by simpa using he⟩

theorem contextual_sound {e : Expr} {front : List Token} (he : Derives (.expr .chain e) front) :
    SoundAfter front (contextual e) (.expr .conditional) := by
  intro stop ts e' rest h
  rw [contextual, reads_looks_bind] at h
  split at h
  · simp only [reads_expect_bind, reads_require_bind] at h
    obtain ⟨kw, _, rfl, hk, x, _, rfl, hx, q₁, _, rfl, h₁, q₂, _, rfl, h₂, h⟩ := h
    obtain ⟨s, us, rfl, hs, h⟩ := h
    obtain ⟨rfl, rfl⟩ := reads_pure.1 h
    exact ⟨[kw, x, q₁, q₂, s], rfl, .context he hk hx h₁ h₂ hs⟩
  · obtain ⟨rfl, rfl⟩ := reads_pure.1 h
    exact ⟨[], rfl, by simpa using Derives.tighter (l := .conditional) (by decide) he⟩

theorem operand_sound (hi : Sound inner (.expr .assignment)) {n : Nat} :
    Sound (operand inner n) (.expr .conditional) := by
  intro stop ts e rest h
  simp only [operand, reads_bind] at h
  obtain ⟨p, mid, hp, c, mid', hc, h⟩ := h
  obtain ⟨us, rfl, hd⟩ := primary_sound hi hp
  obtain ⟨vs, rfl, hd'⟩ := chain_sound hi (.tighter (by decide) hd) hc
  obtain ⟨ws, rfl, hd''⟩ := contextual_sound hd' h
  exact ⟨us ++ vs ++ ws, by simp, hd''⟩

theorem reads_unary {e : Expr} : Reads (unary next) stop ts e rest ↔
    ∃ e', Reads next stop (splitUnary ts).2 e' rest ∧
      e = (splitUnary ts).1.foldr (fun (p, op) e => .unary p op e) e' := by
  constructor
  · intro h
    obtain ⟨ops, mid, hs, hn⟩ := reads_bind.1 h
    cases hs
    obtain ⟨e', _, he, hp⟩ := reads_bind.1 hn
    obtain ⟨rfl, rfl⟩ := reads_pure.1 hp
    exact ⟨e', he, rfl⟩
  · rintro ⟨e', he, rfl⟩
    exact reads_bind.2 ⟨_, _, rfl, reads_bind.2 ⟨e', rest, he, reads_return⟩⟩

theorem reads_unary_cons {t : Token} {op : UnaryOp} (ht : UnaryOp.ofKind? t.kind = some op)
    {e : Expr} : Reads (unary next) stop (t :: ts) e rest ↔
      ∃ e', Reads (unary next) stop ts e' rest ∧ e = .unary t.position op e' := by
  simp only [reads_unary, splitUnary, ht, List.foldr_cons]
  constructor
  · rintro ⟨e', he, rfl⟩
    exact ⟨_, ⟨e', he, rfl⟩, rfl⟩
  · rintro ⟨_, ⟨e', he, rfl⟩, rfl⟩
    exact ⟨e', he, rfl⟩

theorem reads_unary_of_none (ht : ∀ t ∈ ts.head?, UnaryOp.ofKind? t.kind = none) {e : Expr} :
    Reads (unary next) stop ts e rest ↔ Reads next stop ts e rest := by
  have hs : splitUnary ts = ([], ts) := by
    cases ts with
    | nil => rfl
    | cons t ts => simp [splitUnary, ht t rfl]
  simp [reads_unary, hs]

theorem unary_sound (hn : Sound next (.expr .conditional)) : Sound (unary next) (.expr .unary) := by
  intro stop ts e rest h
  induction ts generalizing e with
  | nil =>
    obtain ⟨used, hu, hd⟩ := hn ((reads_unary_of_none (by simp)).1 h)
    exact ⟨used, hu, .tighter (by decide) hd⟩
  | cons t ts ih =>
    cases ht : UnaryOp.ofKind? t.kind with
    | none =>
      obtain ⟨used, hu, hd⟩ := hn ((reads_unary_of_none (by simpa using ht)).1 h)
      exact ⟨used, hu, .tighter (by decide) hd⟩
    | some op =>
      obtain ⟨e', he, rfl⟩ := (reads_unary_cons ht).1 h
      obtain ⟨used, rfl, hd⟩ := ih he
      exact ⟨t :: used, rfl, .unary (UnaryOp.ofKind?_eq_some.1 ht) hd⟩

/-- Operators of a level behind a first operand make a longer derivation. -/
theorem binaryTail_sound {ops : OpTable} {l : Level} (hops : ops.At l)
    (hn : Sound next (.expr l.next)) {n : Nat} {a : Expr} {front : List Token}
    (ha : Derives (.expr l a) front) :
    SoundAfter front (binaryTail ops next n a) (.expr l) := by
  intro stop ts e rest h
  induction n generalizing a front ts with
  | zero => exact absurd h not_reads_exhausted
  | succ n ih =>
    rw [binaryTail, reads_take?_bind] at h
    obtain ⟨t, us, ⟨p, op⟩, rfl, ht, h⟩ | ⟨_, h⟩ := h
    · obtain ⟨op', hop, he⟩ := Option.map_eq_some_iff.1 ht
      cases he
      obtain ⟨hl, hk⟩ := (hops.some_iff _ _).1 hop
      simp only [reads_bind] at h
      obtain ⟨b, mid, hb, h⟩ := h
      obtain ⟨bs, rfl, hd⟩ := hn hb
      obtain ⟨used, rfl, hd'⟩ := ih (.binary hl ha hk.symm hd) h
      exact ⟨t :: bs ++ used, by simp, by simpa using hd'⟩
    · obtain ⟨rfl, rfl⟩ := reads_pure.1 h
      exact ⟨[], rfl, by simpa using ha⟩

theorem binaryLevel_sound {ops : OpTable} {l : Level} (hops : ops.At l)
    (hn : Sound next (.expr l.next)) (n : Nat) : Sound (binaryLevel ops next n) (.expr l) := by
  intro stop ts e rest h
  rw [binaryLevel, reads_bind] at h
  obtain ⟨a, mid, ha, h⟩ := h
  obtain ⟨us, rfl, hd⟩ := hn ha
  obtain ⟨vs, rfl, hd'⟩ := binaryTail_sound hops hn (.tighter hops.isBinary.ne_primary hd) h
  exact ⟨us ++ vs, by simp, hd'⟩

theorem binary_sound (hn : Sound next (.expr .unary)) (n : Nat) :
    Sound (binary next n) (.expr .or) := by
  obtain ⟨hor, hand, heq, hcmp, hterm, hfactor⟩ := tables_at
  exact binaryLevel_sound hor (binaryLevel_sound hand (binaryLevel_sound heq
    (binaryLevel_sound hcmp (binaryLevel_sound hterm (binaryLevel_sound hfactor hn n) n) n) n) n) n

theorem assignment_sound (hi : Sound inner (.expr .assignment)) (n : Nat) :
    Sound (assignment inner n) (.expr .assignment) := by
  intro stop ts e rest h
  rw [assignment, reads_bind] at h
  obtain ⟨a, mid, ha, h⟩ := h
  obtain ⟨us, rfl, hd⟩ := binary_sound (unary_sound (operand_sound hi)) n ha
  rw [assignTail, reads_accept?_bind] at h
  obtain ⟨t, vs, rfl, ht, h⟩ | ⟨_, h⟩ := h
  · simp only [reads_bind] at h
    obtain ⟨b, mid, hb, h⟩ := h
    obtain ⟨ws, rfl, hd'⟩ := hi hb
    split at h
    · rename_i hname
      obtain ⟨rfl, rfl⟩ := reads_pure.1 h
      cases a with
      | name p id => exact ⟨us ++ t :: ws, by simp, .assign hd ht hd'⟩
      | _ => simp [Expr.name?] at hname
    · exact absurd h not_reads_reportAt_bind
  · obtain ⟨rfl, rfl⟩ := reads_pure.1 h
    exact ⟨us, rfl, .tighter (by decide) hd⟩

theorem expressionWithin_sound (n : Nat) : Sound (expressionWithin n) (.expr .assignment) := by
  induction n with
  | zero => exact fun _ _ _ _ h => absurd h not_reads_exhausted
  | succ n ih => exact assignment_sound ih (n + 1)

end Parse

end Scriptlet
