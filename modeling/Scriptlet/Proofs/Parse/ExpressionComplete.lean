import Scriptlet.Parse.Parser
import Scriptlet.Proofs.Parse.ExpressionSound

/-! Every derivation of an expression is found by the reader, whatever follows it, as long as what
follows does not continue the expression. -/
namespace Scriptlet

/-- The level at which a token of a kind can continue an expression. -/
@[simp] def TokenKind.joins? : TokenKind → Option Level
  | .symbol .leftParen | .symbol .leftBracket | .symbol .dot => some .chain
  | .keyword .ifKw => some .conditional
  | .symbol .star | .symbol .slash | .symbol .percent => some .factor
  | .symbol .plus | .symbol .minus => some .term
  | .symbol .less | .symbol .lessEqual | .symbol .greater | .symbol .greaterEqual =>
    some .comparison
  | .symbol .equal | .symbol .notEqual => some .equality
  | .keyword .andKw => some .and
  | .keyword .orKw => some .or
  | .symbol .assign => some .assignment
  | _ => none

theorem BinaryOp.joins?_kind (op : BinaryOp) : op.kind.joins? = some op.level := by
  cases op <;> rfl

namespace Level

/-- The tokens go on with an expression of the level. -/
def Continues (l : Level) (ts : List Token) : Prop :=
  ∃ t ∈ ts.head?, t.kind.joins? = some l ∧ (t.kind = .symbol .dot → Parse.memberDot ts) ∧
    (t.kind = .keyword .ifKw → Parse.contextAhead ts)

/-- The tokens go on with no expression of the level or of a tighter one. -/
def Stops (l : Level) (ts : List Token) : Prop := ∀ l' : Level, l.rank ≤ l'.rank → ¬ l'.Continues ts

variable {l l' : Level} {t : Token} {ts : List Token}

theorem Stops.mono (h : l.Stops ts) (hl : l.rank ≤ l'.rank) : l'.Stops ts :=
  fun _ h' => h _ (Nat.le_trans hl h')

theorem Stops.next (h : l.Stops ts) : l.next.Stops ts := h.mono l.rank_le_next

/-- A token that joins only at looser levels ends an expression. -/
theorem stops_cons (h : ∀ l', t.kind.joins? = some l' → l'.rank < l.rank) : l.Stops (t :: ts) := by
  rintro l' hl ⟨_, ht, hj, _⟩
  cases ht
  exact absurd (h l' hj) (Nat.not_lt.2 hl)

/-- Nothing continues a primary expression. -/
theorem stops_primary : primary.Stops ts := by
  rintro l' hl ⟨t, _, hj, _⟩
  have hr : l'.rank < primary.rank := by
    unfold TokenKind.joins? at hj
    split at hj <;> cases hj <;> decide
  exact absurd hl (Nat.not_le.2 hr)

private theorem stops_op {op : BinaryOp} (ht : t.kind = op.kind) (hl : op.level.rank < l.rank) :
    l.Stops (t :: ts) := by
  refine stops_cons fun l' hj => ?_
  rw [ht, op.joins?_kind] at hj
  cases hj
  exact hl

theorem Stops.notNext {k : TokenKind} (h : l.Stops ts) (hl : l.rank ≤ l'.rank)
    (hk : k.joins? = some l') (hd : k ≠ .symbol .dot) (hi : k ≠ .keyword .ifKw) :
    Parse.NotNext k ts := by
  intro t ht htk
  exact h l' hl ⟨t, ht, htk ▸ hk, fun h => absurd (htk ▸ h) hd, fun h => absurd (htk ▸ h) hi⟩

theorem Stops.memberDot (h : chain.Stops ts) : Parse.memberDot ts = false := by
  cases ts with
  | nil => rfl
  | cons t ts =>
    refine Bool.eq_false_iff.2 fun hm => ?_
    have hk : t.kind = .symbol .dot := by
      simp only [Parse.memberDot, Bool.and_eq_true, decide_eq_true_eq] at hm
      exact hm.1
    exact h chain (Nat.le_refl _) ⟨t, rfl, by rw [hk]; rfl, fun _ => hm, fun h => by simp [hk] at h⟩

theorem Stops.contextAhead (h : conditional.Stops ts) : Parse.contextAhead ts = false := by
  refine Bool.eq_false_iff.2 fun hc => ?_
  match ts, hc with
  | t :: x :: q :: ts, hc =>
    have hk : t.kind = .keyword .ifKw := by
      simp only [Parse.contextAhead, Bool.and_eq_true, decide_eq_true_eq] at hc
      exact hc.1.1
    exact h conditional (Nat.le_refl _)
      ⟨t, rfl, by rw [hk]; rfl, fun h => by simp [hk] at h, fun _ => hc⟩

end Level

theorem BinaryOp.isBinary_level (op : BinaryOp) : op.level.IsBinary := by
  cases op <;> decide

/-- Literals stand in tokens of four kinds only. -/
theorem Token.kind_of_leaf? {t : Token} (h : t.leaf?.isSome) :
    t.kind = .integer ∨ t.kind = .float ∨ t.kind = .string ∨ t.kind = .boolean := by
  unfold Token.leaf? at h
  split at h <;> simp_all

namespace Level.Starts

variable {l : Level} {t : Token}

/-- An operand does not start with a unary operator. -/
theorem ofKind?_eq_none (h : l.Starts t) (hl : Level.unary.rank < l.rank) :
    UnaryOp.ofKind? t.kind = none := by
  rcases h with h | h | h | ⟨hr, _⟩
  · rcases Token.kind_of_leaf? h with h | h | h | h <;> rw [h] <;> rfl
  · rw [h]; rfl
  · rw [h]; rfl
  · exact absurd hr (Nat.not_le.2 hl)

private theorem ne_rightParen (h : l.Starts t) : t.kind ≠ .symbol .rightParen := by
  rcases h with h | h | h | ⟨_, op, h⟩
  · rcases Token.kind_of_leaf? h with h | h | h | h <;> simp [h]
  · simp [h]
  · simp [h]
  · intro hr
    rw [hr] at h
    cases op <;> simp [UnaryOp.kinds] at h

end Level.Starts

namespace Parse

variable {inner next : Parse Expr} {stop : Token} {ts rest : List Token} {n : Nat}

/-- The reader takes away every derivation of at most `n` tokens that nothing continues. -/
def Complete (p : Parse Expr) (l : Level) (n : Nat) : Prop :=
  ∀ ⦃stop ts e rest⦄, Derives (.expr l e) ts → ts.length ≤ n → l.Stops rest →
    Reads p stop (ts ++ rest) e rest

theorem primary_complete (hi : Complete inner .assignment n) :
    Complete (primary inner) .primary (n + 1) := by
  intro stop ts e rest h hn _
  rw [primary, reads_opening_bind]
  cases h with
  | @literal t v ht => exact ⟨t, rest, _, rfl, by rw [opening?, ht], reads_return⟩
  | @name t ht =>
    have hopen : opening? t = some (.leaf (.name t.position t.lexeme)) := by
      simp [opening?, Token.leaf?, ht]
    exact ⟨t, rest, _, rfl, hopen, reads_return⟩
  | @paren lp rp us e hl he hr =>
    have hopen : opening? lp = some .paren := by simp [opening?, Token.leaf?, hl]
    have hlen : us.length ≤ n := by
      simp at hn
      omega
    refine ⟨lp, us ++ [rp] ++ rest, .paren, rfl, hopen, ?_⟩
    rw [List.append_assoc, List.singleton_append]
    refine reads_bind.2 ⟨e, rp :: rest, hi he hlen ?_, ?_⟩
    · exact Level.stops_cons (by simp [hr, TokenKind.joins?])
    · exact reads_bind.2 ⟨rp, rest, reads_expect.2 ⟨rfl, hr⟩, reads_return⟩
  | binary hl _ _ _ => exact absurd rfl (hl ▸ BinaryOp.isBinary_level _).ne_primary
  | tighter hl _ => exact absurd rfl hl

theorem commaList_one {α : Type} {item : Parse α} {m : Nat} {a : α}
    (ha : Reads item stop ts a rest) (hc : NotNext (.symbol .comma) rest) :
    Reads (commaList item (m + 1)) stop ts [a] rest :=
  reads_bind.2 ⟨a, rest, ha, reads_accept_bind.2 (.inr ⟨hc, reads_return⟩)⟩

theorem commaList_cons {α : Type} {item : Parse α} {m : Nat} {a : α} {as : List α} {comma : Token}
    {us : List Token} (ha : Reads item stop ts a (comma :: us)) (hk : comma.kind = .symbol .comma)
    (has : Reads (commaList item m) stop us as rest) :
    Reads (commaList item (m + 1)) stop ts (a :: as) rest := by
  refine reads_bind.2 ⟨a, _, ha, reads_accept_bind.2 (.inl ⟨comma, us, rfl, hk, ?_⟩)⟩
  exact reads_bind.2 ⟨as, rest, has, reads_return⟩

theorem exprs_complete (hi : Complete inner .assignment n) {m : Nat} {es : List Expr}
    (h : Derives (.exprs es) ts) (hn : ts.length ≤ n) (hm : ts.length ≤ m)
    (hs : Level.assignment.Stops rest) (hc : NotNext (.symbol .comma) rest) :
    Reads (commaList inner m) stop (ts ++ rest) es rest := by
  induction m generalizing ts es with
  | zero => exact absurd h.opens.length_pos (by omega)
  | succ m ih =>
    cases h with
    | exprsOne he => exact commaList_one (hi he hn hs) hc
    | @exprsCons comma us vs e es he hk hes =>
      simp only [List.length_append, List.length_cons] at hn hm
      have hcomma : Level.assignment.Stops (comma :: (vs ++ rest)) :=
        Level.stops_cons (by simp [hk, TokenKind.joins?])
      rw [List.append_assoc, List.cons_append]
      exact commaList_cons (hi he (by omega) hcomma) hk (ih hes (by omega) (by omega))

theorem arguments_complete (hi : Complete inner .assignment n) {m : Nat} {es : List Expr}
    {rp : Token} (h : Derives (.arguments es) ts) (hn : ts.length ≤ n) (hm : ts.length ≤ m)
    (hr : rp.kind = .symbol .rightParen) :
    Reads (arguments inner m) stop (ts ++ rp :: rest) es rest := by
  have hend : Reads (do let _ ← expect .closeArguments; return es) stop (rp :: rest) es rest :=
    reads_bind.2 ⟨rp, rest, reads_expect.2 ⟨rfl, hr⟩, reads_return⟩
  rw [arguments, reads_check_bind]
  cases h with
  | argumentsNone =>
    simp only [List.nil_append, List.head?_cons, Option.any_some, hr, decide_true, if_true]
    exact reads_bind.2 ⟨[], _, reads_return, hend⟩
  | argumentsSome hes =>
    have hs : Level.assignment.Stops (rp :: rest) :=
      Level.stops_cons (by simp [hr, TokenKind.joins?])
    have hread : Reads (commaList inner m) stop (ts ++ rp :: rest) es (rp :: rest) :=
      exprs_complete hi hes hn hm hs (by simp [hr])
    obtain ⟨t, us, rfl, ht⟩ := hes.opens
    simp only [List.cons_append, List.head?_cons, Option.any_some, ht.ne_rightParen, decide_false,
      Bool.false_eq_true, if_false]
    exact reads_bind.2 ⟨es, _, hread, hend⟩

/-- Where nothing continues it, a chain ends. -/
theorem chain_stops {e : Expr} (hs : Level.chain.Stops rest) (m : Nat) :
    Reads (chain inner (m + 1) e) stop rest e rest := by
  have hp : NotNext (.symbol .leftParen) rest :=
    hs.notNext (Nat.le_refl _) rfl (by decide) (by decide)
  have hb : NotNext (.symbol .leftBracket) rest :=
    hs.notNext (Nat.le_refl _) rfl (by decide) (by decide)
  rw [chain]
  refine reads_accept_bind.2 (.inr ⟨hp, reads_accept_bind.2 (.inr ⟨hb, ?_⟩)⟩)
  simp only [Bool.false_eq_true, if_false]
  exact reads_memberName?_bind.2 (.inr ⟨hs.memberDot, reads_return⟩)

theorem chain_call (hi : Complete inner .assignment n) {m : Nat} {lp rp : Token} {f e : Expr}
    {es : List Expr} {rest' : List Token} (hl : lp.kind = .symbol .leftParen)
    (ha : Derives (.arguments es) ts) (hr : rp.kind = .symbol .rightParen) (hn : ts.length ≤ n)
    (hm : ts.length ≤ m) (h : Reads (chain inner m (.call f.pos f es)) stop rest e rest') :
    Reads (chain inner (m + 1) f) stop (lp :: ts ++ rp :: rest) e rest' := by
  rw [chain]
  refine reads_accept_bind.2 (.inl ⟨lp, _, rfl, hl, ?_⟩)
  exact reads_bind.2 ⟨es, rest, arguments_complete hi ha hn hm hr, h⟩

theorem chain_index (hi : Complete inner .assignment n) {m : Nat} {lb rb : Token} {f i e : Expr}
    {rest' : List Token} (hl : lb.kind = .symbol .leftBracket)
    (hd : Derives (.expr .assignment i) ts) (hr : rb.kind = .symbol .rightBracket)
    (hn : ts.length ≤ n) (h : Reads (chain inner m (.index f.pos f i)) stop rest e rest') :
    Reads (chain inner (m + 1) f) stop (lb :: ts ++ rb :: rest) e rest' := by
  have hs : Level.assignment.Stops (rb :: rest) :=
    Level.stops_cons (by simp [hr, TokenKind.joins?])
  rw [chain]
  refine reads_accept_bind.2 (.inr ⟨by simp [hl], ?_⟩)
  refine reads_accept_bind.2 (.inl ⟨lb, _, rfl, hl, ?_⟩)
  refine reads_bind.2 ⟨i, rb :: rest, hi hd hn hs, ?_⟩
  exact reads_bind.2 ⟨rb, rest, reads_expect.2 ⟨rfl, hr⟩, h⟩

theorem chain_member {m : Nat} {dot t : Token} {f e : Expr} {rest' : List Token}
    (hd : dot.kind = .symbol .dot) (ht : t.kind = .identifier)
    (h : Reads (chain inner m (.member f.pos f t.lexeme)) stop rest e rest') :
    Reads (chain inner (m + 1) f) stop (dot :: t :: rest) e rest' := by
  rw [chain]
  refine reads_accept_bind.2 (.inr ⟨by simp [hd], ?_⟩)
  refine reads_accept_bind.2 (.inr ⟨by simp [hd], ?_⟩)
  simp only [Bool.false_eq_true, if_false]
  exact reads_memberName?_bind.2 (.inl ⟨dot, t, rest, rfl, hd, ht, h⟩)

/-- A derivation of a chain brings its reader to the point where it has read that expression, with
steps left for all tokens that it has not taken. -/
theorem chain_complete (hi : Complete inner .assignment n) {e : Expr}
    (h : Derives (.expr .chain e) ts) (hn : ts.length ≤ n + 1) :
    ∃ m, n + 2 ≤ m + ts.length ∧ ∀ stop rest e' rest', Reads (chain inner m e) stop rest e' rest' →
      Reads (do chain inner (n + 1) (← primary inner)) stop (ts ++ rest) e' rest' := by
  -- Calls, indexes and members group to the left: the last one of them was read last.
  induction hlen : ts.length using Nat.strongRecOn generalizing ts e with
  | ind len ih =>
  subst hlen
  cases h with
  | tighter _ he =>
    have hpos := he.opens.length_pos
    refine ⟨n + 1, by omega, fun stop rest e' rest' hr => reads_bind.2 ⟨e, rest, ?_, hr⟩⟩
    exact primary_complete hi he hn Level.stops_primary
  | @call lp rp us vs f es hf hl ha hr =>
    simp only [List.length_append, List.length_cons, List.length_nil] at hn ih ⊢
    obtain ⟨m, hm, hread⟩ := ih us.length (by omega) hf (by omega) rfl
    obtain ⟨m, rfl⟩ : ∃ k, m = k + 1 := ⟨m - 1, by omega⟩
    refine ⟨m, by omega, fun stop rest e' rest' hr' => ?_⟩
    rw [List.append_assoc, List.append_assoc]
    exact hread _ _ _ _ (chain_call hi hl ha hr (by omega) (by omega) hr')
  | @index lb rb us vs a i ha hl hv hr =>
    simp only [List.length_append, List.length_cons, List.length_nil] at hn ih ⊢
    obtain ⟨m, hm, hread⟩ := ih us.length (by omega) ha (by omega) rfl
    obtain ⟨m, rfl⟩ : ∃ k, m = k + 1 := ⟨m - 1, by omega⟩
    refine ⟨m, by omega, fun stop rest e' rest' hr' => ?_⟩
    rw [List.append_assoc, List.append_assoc]
    exact hread _ _ _ _ (chain_index hi hl hv hr (by omega) hr')
  | @member dot t us f he hd ht =>
    simp only [List.length_append, List.length_cons, List.length_nil] at hn ih ⊢
    obtain ⟨m, hm, hread⟩ := ih us.length (by omega) he (by omega) rfl
    obtain ⟨m, rfl⟩ : ∃ k, m = k + 1 := ⟨m - 1, by omega⟩
    refine ⟨m, by omega, fun stop rest e' rest' hr' => ?_⟩
    rw [List.append_assoc]
    exact hread _ _ _ _ (chain_member hd ht hr')
  | binary hl _ _ _ => exact absurd (hl ▸ BinaryOp.isBinary_level _) (by decide)

theorem operand_of_chain (hi : Complete inner .assignment n) {f e : Expr} {rest' : List Token}
    (hf : Derives (.expr .chain f) ts) (hn : ts.length ≤ n + 1) (hs : Level.chain.Stops rest)
    (he : Reads (contextual f) stop rest e rest') :
    Reads (operand inner (n + 1)) stop (ts ++ rest) e rest' := by
  obtain ⟨m, hm, hread⟩ := chain_complete hi hf hn
  obtain ⟨m, rfl⟩ : ∃ k, m = k + 1 := ⟨m - 1, by omega⟩
  obtain ⟨p, mid, hp, hc⟩ := reads_bind.1 (hread stop rest f rest (chain_stops hs m))
  exact reads_bind.2 ⟨p, mid, hp, reads_bind.2 ⟨f, rest, hc, he⟩⟩

theorem operand_complete (hi : Complete inner .assignment n) :
    Complete (operand inner (n + 1)) .conditional (n + 1) := by
  intro stop ts e rest h hn hs
  cases h with
  | tighter _ he =>
    refine operand_of_chain hi he hn (hs.next) ?_
    rw [contextual, reads_looks_bind, hs.contextAhead]
    exact reads_return
  | @context kw x q₁ q₂ s us f hf hk hx h₁ h₂ hstr =>
    have hkw : Level.chain.Stops ([kw, x, q₁, q₂, s] ++ rest) :=
      Level.stops_cons (by simp [hk, TokenKind.joins?, Level.rank])
    rw [List.append_assoc]
    refine operand_of_chain hi hf (by simp at hn; omega) hkw ?_
    rw [contextual, reads_looks_bind, if_pos (by simp [contextAhead, hk, hx, h₁])]
    refine reads_expect_bind.2 ⟨kw, _, rfl, hk, reads_expect_bind.2 ⟨x, _, rfl, hx, ?_⟩⟩
    refine reads_expect_bind.2 ⟨q₁, _, rfl, h₁, reads_expect_bind.2 ⟨q₂, _, rfl, h₂, ?_⟩⟩
    exact reads_require_bind.2 ⟨s, rest, rfl, hstr, reads_return⟩
  | binary hl _ _ _ => exact absurd (hl ▸ BinaryOp.isBinary_level _) (by decide)

theorem unary_complete (hn : Complete next .conditional n) : Complete (unary next) .unary n := by
  intro stop ts e rest h hlen hs
  induction hk : ts.length generalizing ts e with
  | zero => exact absurd h.opens.length_pos (by omega)
  | succ k ih =>
    cases h with
    | unary ht he =>
      simp only [List.length_cons] at hlen hk
      rw [List.cons_append, reads_unary_cons (UnaryOp.ofKind?_eq_some.2 ht)]
      exact ⟨_, ih he (by omega) (by omega), rfl⟩
    | tighter _ he =>
      have hstart : ∀ t ∈ (ts ++ rest).head?, UnaryOp.ofKind? t.kind = none := by
        obtain ⟨t, us, rfl, hstart⟩ := he.opens
        simpa using hstart.ofKind?_eq_none (by decide)
      exact (reads_unary_of_none hstart).2 (hn he hlen hs.next)
    | binary hl _ _ _ => exact absurd (hl ▸ BinaryOp.isBinary_level _) (by decide)

/-- Where nothing continues it, a level of binary operators ends. -/
theorem binaryTail_stops {ops : OpTable} {l : Level} (hops : ops.At l) (hs : l.Stops rest) (m : Nat)
    {e : Expr} : Reads (binaryTail ops next (m + 1) e) stop rest e rest := by
  rw [binaryTail]
  refine reads_take?_bind.2 (.inr ⟨fun t ht => ?_, reads_return⟩)
  cases hop : ops t.kind with
  | none => rfl
  | some op =>
    obtain ⟨rfl, hk⟩ := (hops.some_iff _ _).1 hop
    have hne : NotNext op.kind rest := hs.notNext (Nat.le_refl _) op.joins?_kind
      (by cases op <;> decide) (by cases op <;> decide)
    exact absurd hk.symm (hne t ht)

/-- A derivation of a level brings its reader to the point where it has read that expression, with
steps left for all tokens that it has not taken. -/
theorem binaryTail_complete {ops : OpTable} {l : Level} (hops : ops.At l)
    (hnext : Complete next l.next (n + 1)) {e : Expr} (h : Derives (.expr l e) ts)
    (hn : ts.length ≤ n + 1) :
    ∃ m, n + 2 ≤ m + ts.length ∧ ∀ stop rest e' rest', l.next.Stops rest →
      Reads (binaryTail ops next m e) stop rest e' rest' →
      Reads (binaryLevel ops next (n + 1)) stop (ts ++ rest) e' rest' := by
  induction hlen : ts.length using Nat.strongRecOn generalizing ts e with
  | ind len ih =>
  subst hlen
  cases h with
  | tighter _ he =>
    have hpos := he.opens.length_pos
    refine ⟨n + 1, by omega, fun stop rest e' rest' hs hr => ?_⟩
    exact reads_bind.2 ⟨e, rest, hnext he hn hs, hr⟩
  | @binary t op _ us vs a b hl ha ht hb =>
    simp only [List.length_append, List.length_cons] at hn ih ⊢
    obtain ⟨m, hm, hread⟩ := ih us.length (by omega) ha (by omega) rfl
    obtain ⟨m, rfl⟩ : ∃ k, m = k + 1 := ⟨m - 1, by omega⟩
    refine ⟨m, by omega, fun stop rest e' rest' hs hr => ?_⟩
    have hop : l.next.Stops (t :: vs ++ rest) :=
      Level.stops_op ht (by rw [hl, Level.rank_next hops.isBinary.ne_primary]; omega)
    rw [List.append_assoc]
    refine hread _ _ _ _ hop ?_
    rw [binaryTail]
    refine reads_take?_bind.2 (.inl ⟨t, vs ++ rest, (t.position, op), rfl, ?_, ?_⟩)
    · rw [(hops.some_iff _ _).2 ⟨hl, ht.symm⟩]
      rfl
    · exact reads_bind.2 ⟨b, rest, hnext hb (by omega) hs, hr⟩
  | _ => exact absurd hops.isBinary (by decide)

theorem binaryLevel_complete {ops : OpTable} {l : Level} (hops : ops.At l)
    (hnext : Complete next l.next (n + 1)) : Complete (binaryLevel ops next (n + 1)) l (n + 1) := by
  intro stop ts e rest h hn hs
  obtain ⟨m, hm, hread⟩ := binaryTail_complete hops hnext h hn
  obtain ⟨m, rfl⟩ : ∃ k, m = k + 1 := ⟨m - 1, by omega⟩
  exact hread stop rest e rest hs.next (binaryTail_stops hops hs m)

theorem binary_complete (hn : Complete next .unary (n + 1)) :
    Complete (binary next (n + 1)) .or (n + 1) := by
  obtain ⟨hor, hand, heq, hcmp, hterm, hfactor⟩ := tables_at
  exact binaryLevel_complete hor (binaryLevel_complete hand (binaryLevel_complete heq
    (binaryLevel_complete hcmp (binaryLevel_complete hterm (binaryLevel_complete hfactor hn)))))

theorem assignment_complete (hi : Complete inner .assignment n) :
    Complete (assignment inner (n + 1)) .assignment (n + 1) := by
  intro stop ts e rest h hn hs
  have hor := binary_complete (unary_complete (operand_complete hi))
  rw [assignment, reads_bind]
  cases h with
  | tighter _ he =>
    have ha : NotNext (.symbol .assign) rest :=
      hs.notNext (Nat.le_refl _) rfl (by decide) (by decide)
    refine ⟨e, rest, hor he hn hs.next, ?_⟩
    rw [assignTail]
    exact reads_accept?_bind.2 (.inr ⟨ha, reads_return⟩)
  | @assign t us vs p id b hx ht hb =>
    simp only [List.length_append, List.length_cons] at hn
    have hstop : Level.or.Stops (t :: vs ++ rest) :=
      Level.stops_cons (by simp [ht, TokenKind.joins?, Level.rank])
    rw [List.append_assoc]
    refine ⟨_, _, hor hx (by omega) hstop, ?_⟩
    rw [assignTail]
    refine reads_accept?_bind.2 (.inl ⟨t, vs ++ rest, rfl, ht, ?_⟩)
    have hpos := hx.opens.length_pos
    exact reads_bind.2 ⟨b, rest, hi hb (by omega) hs, reads_return⟩
  | binary hl _ _ _ => exact absurd (hl ▸ BinaryOp.isBinary_level _) (by decide)

theorem expressionWithin_complete (n : Nat) : Complete (expressionWithin n) .assignment n := by
  induction n with
  | zero =>
    intro stop ts e rest h hn _
    exact absurd h.opens.length_pos (by omega)
  | succ n ih => exact assignment_complete ih

theorem expression_complete {e : Expr} (h : Derives (.expr .assignment e) ts)
    (hs : Level.assignment.Stops rest) : Reads expression stop (ts ++ rest) e rest := by
  rw [Reads, expression]
  refine expressionWithin_complete _ h ?_ hs
  rw [List.length_append]
  omega

end Parse

/-- An expression of the grammar moves the index behind its tokens, and nothing else. -/
theorem Parser.expression?_complete {p : Parser} {ts rest : List Token} {e : Expr}
    (h : Derives (.expr .assignment e) ts) (hs : Level.assignment.Stops rest) (hne : rest ≠ [])
    (hp : p.rest = ts ++ rest) :
    p.expression? = (some e, { p with index := p.index + ts.length }) := by
  have hread : Parse.Reads (Parse.attempt Parse.expression) p.stop p.rest (some e) rest := by
    rw [hp]
    exact Parse.reads_attempt.2 ⟨e, rfl, Parse.expression_complete h hs⟩
  have hindex : p.tokens.length - rest.length = p.index + ts.length := by
    have hlen := congrArg List.length hp
    have hpos := List.length_pos_iff.2 hne
    rw [Parser.rest, List.length_drop, List.length_append] at hlen
    omega
  rw [Parser.expression?, Parser.stepD, Parser.step, hread, hindex, List.append_nil]
  rfl

end Scriptlet
