import Scriptlet.Proofs.Parse.Course
import Scriptlet.Proofs.Parse.Parallel

/-! Readers always get on, so that the number of tokens left bounds how deep they call each other
and how often their loops turn: no bound is ever used up. Here are the basic steps and
expressions. -/
namespace Scriptlet.Parse

open List (Forall₂)

variable {α β : Type} {m n : Nat} {k : TokenKind} {x : Parse α} {f : α → Parse β}

/-- With less than `m` tokens left, the reader does not run out of a bound. -/
def Finishes (m : Nat) (x : Parse α) : Prop :=
  ∀ stop ts, ts.length < m → (x stop ts).result ≠ .error .exhausted

/-- The reader takes at least one token for a result. -/
def Takes (x : Parse α) : Prop :=
  ∀ stop ts a, (x stop ts).result = .ok a → (x stop ts).rest.length < ts.length

theorem Finishes.mono {k : Nat} (h : Finishes m x) (hk : k ≤ m) : Finishes k x :=
  fun stop ts hts => h stop ts (Nat.lt_of_lt_of_le hts hk)

theorem finishes_zero (x : Parse α) : Finishes 0 x := fun _ _ hts => absurd hts (Nat.not_lt_zero _)

/-- The second reader only sees what the first one leaves. -/
theorem Finishes.bind_of {k : Nat} (hx : Finishes m x)
    (hk : ∀ stop ts a, ts.length < m → (x stop ts).result = .ok a → (x stop ts).rest.length < k)
    (hf : ∀ a, Finishes k (f a)) : Finishes m (x >>= f) := by
  intro stop ts hts
  obtain ⟨h, hh, hr⟩ | ⟨a, ha, hr⟩ := bind_cases x f stop ts
  · rw [hr]
    rintro ⟨⟩
    exact hx stop ts hts hh
  · rw [hr]
    exact hf a stop _ (hk stop ts a hts ha)

theorem Finishes.bind (hx : Finishes m x) (hc : Composed x) (hf : ∀ a, Finishes m (f a)) :
    Finishes m (x >>= f) :=
  hx.bind_of (fun stop ts _ hts _ => Nat.lt_of_le_of_lt (hc.past stop ts).length_le hts) hf

/-- Behind a reader that takes a token there is one less. -/
theorem Finishes.bind_takes (hx : Finishes (m + 1) x) (ht : Takes x) (hf : ∀ a, Finishes m (f a)) :
    Finishes (m + 1) (x >>= f) :=
  hx.bind_of (fun stop ts a hts ha => by have := ht stop ts a ha; omega) hf

theorem Finishes.bind_bool {x : Parse Bool} {f : Bool → Parse β} (hx : Finishes m x)
    (hc : Composed x) (ht : Finishes m (f true)) (hf : Finishes m (f false)) :
    Finishes m (x >>= f) := by
  refine hx.bind hc fun b => ?_
  cases b with
  | true => exact ht
  | false => exact hf

theorem Finishes.bind_option {x : Parse (Option α)} {f : Option α → Parse β} (hx : Finishes m x)
    (hc : Composed x) (hs : ∀ a, Finishes m (f (some a))) (hn : Finishes m (f none)) :
    Finishes m (x >>= f) := by
  refine hx.bind hc fun o => ?_
  cases o with
  | some a => exact hs a
  | none => exact hn

theorem Takes.bind (hx : Takes x) (hf : ∀ a, Composed (f a)) : Takes (x >>= f) := by
  intro stop ts b hb
  obtain ⟨h, _, hr⟩ | ⟨a, ha, hr⟩ := bind_cases x f stop ts
  · rw [hr] at hb
    cases hb
  · rw [hr]
    exact Nat.lt_of_le_of_lt ((hf a).past stop _).length_le (hx stop ts a ha)

theorem Composed.bind_takes (hx : Composed x) (hf : ∀ a, Takes (f a)) : Takes (x >>= f) := by
  intro stop ts b hb
  obtain ⟨h, _, hr⟩ | ⟨a, _, hr⟩ := bind_cases x f stop ts
  · rw [hr] at hb
    cases hb
  · rw [hr] at hb ⊢
    exact Nat.lt_of_lt_of_le (hf a stop _ b hb) (hx.past stop ts).length_le

theorem takes_exhausted : Takes (exhausted : Parse α) := by
  intro stop ts a ha
  cases ha

/-- A reader that always has a result needs no bound. -/
theorem finishes_of_result (h : ∀ stop ts, ∃ a, (x stop ts).result = .ok a) : Finishes m x := by
  intro stop ts _ hx
  obtain ⟨a, ha⟩ := h stop ts
  rw [ha] at hx
  cases hx

theorem finishes_pure (a : α) : Finishes m (pure a) := finishes_of_result fun _ _ => ⟨a, rfl⟩

theorem finishes_current : Finishes m current := finishes_of_result fun _ _ => ⟨_, rfl⟩

theorem finishes_looks (test : List Token → Bool) : Finishes m (looks test) :=
  finishes_of_result fun _ _ => ⟨_, rfl⟩

/-- Behind a token that is taken there is one less. -/
theorem finishes_take?_bind {p : Token → Option α} {f : Option α → Parse β}
    (hs : ∀ a, Finishes m (f (some a))) (hn : Finishes (m + 1) (f none)) :
    Finishes (m + 1) (take? p >>= f) := by
  intro stop ts hts
  obtain ⟨t, us, a, rfl, _, h⟩ | h := take?_cases p stop ts
  · rw [bind_silent h]
    exact hs a stop us (Nat.lt_of_succ_lt_succ hts)
  · rw [bind_silent h]
    exact hn stop ts hts

theorem accept_bind {f : Bool → Parse β} :
    (accept k >>= f) = accept? k >>= fun o => f o.isSome := by
  funext stop ts
  obtain ⟨t, us, rfl, _, h⟩ | ⟨_, h⟩ := accept?_cases k stop ts
  · have haccept : Reads (accept k) stop (t :: us) true us := bind_silent h
    rw [bind_silent h, bind_silent haccept]
    rfl
  · have haccept : Reads (accept k) stop ts false ts := bind_silent h
    rw [bind_silent h, bind_silent haccept]
    rfl

theorem finishes_accept_bind {f : Bool → Parse β} (ht : Finishes m (f true))
    (hf : Finishes (m + 1) (f false)) : Finishes (m + 1) (accept k >>= f) := by
  rw [accept_bind]
  exact finishes_take?_bind (fun _ => ht) hf

theorem takes_accept?_bind {f : Option Token → Parse β} (hs : ∀ t, Composed (f (some t)))
    (hn : Takes (f none)) : Takes (accept? k >>= f) := by
  intro stop ts b hb
  obtain ⟨t, us, rfl, _, h⟩ | ⟨_, h⟩ := accept?_cases k stop ts
  · rw [bind_silent h]
    exact Nat.lt_succ_of_le ((hs t).past stop us).length_le
  · rw [bind_silent h] at hb ⊢
    exact hn stop ts b hb

theorem finishes_check_bind {f : Bool → Parse β}
    (ht : ∀ stop t us, t.kind = k → us.length < m →
      (f true stop (t :: us)).result ≠ .error .exhausted)
    (hf : Finishes (m + 1) (f false)) : Finishes (m + 1) (check k >>= f) := by
  intro stop ts hts
  obtain ⟨t, us, rfl, hk, h⟩ | ⟨_, h⟩ := check_cases k stop ts
  · rw [bind_silent h]
    exact ht stop t us hk (Nat.lt_of_succ_lt_succ hts)
  · rw [bind_silent h]
    exact hf stop ts hts

theorem takes_check_bind {f : Bool → Parse β}
    (ht : ∀ stop t us, t.kind = k → (f true stop (t :: us)).rest <:+ us) (hf : Takes (f false)) :
    Takes (check k >>= f) := by
  intro stop ts b hb
  obtain ⟨t, us, rfl, hk, h⟩ | ⟨_, h⟩ := check_cases k stop ts
  · rw [bind_silent h]
    exact Nat.lt_succ_of_le (ht stop t us hk).length_le
  · rw [bind_silent h] at hb ⊢
    exact hf stop ts b hb

theorem finishes_accept : Finishes m (accept k) := by
  intro stop ts _
  obtain ⟨t, us, rfl, _, h⟩ | ⟨_, h⟩ := accept?_cases k stop ts
  · rw [accept, bind_silent h]
    intro hr
    cases hr
  · rw [accept, bind_silent h]
    intro hr
    cases hr

theorem finishes_require (fault : ParseFault) : Finishes m (require k fault) := by
  intro stop ts _
  obtain ⟨t, us, rfl, _, h⟩ | ⟨_, h⟩ := require_cases k fault stop ts
  · rw [h]
    nofun
  · rw [h]
    nofun

theorem finishes_expect (e : Expectation) : Finishes m (expect e) := by
  intro stop ts _
  obtain ⟨t, us, rfl, _, h⟩ | ⟨_, h⟩ := expect_cases e stop ts
  · rw [h]
    nofun
  · rw [h]
    nofun

theorem finishes_expect_bind {e : Expectation} (he : e ≠ .closeBlock) {f : Token → Parse β}
    (hf : ∀ t, Finishes m (f t)) : Finishes m (expect e >>= f) :=
  (finishes_expect e).bind (composed_expect he) hf

/-- An expected token of which no use is made. -/
theorem finishes_expect_then {e : Expectation} (a : α) :
    Finishes m (do let _ ← expect e; return a) := by
  intro stop ts _
  obtain ⟨t, us, rfl, _, h⟩ | ⟨_, h⟩ := expect_cases e stop ts
  · rw [bind_silent h]
    nofun
  · rw [bind_ok h]
    nofun

theorem finishes_commaList {item : Parse α} (hi : Finishes m item) (hc : Composed item)
    (hn : m ≤ n) : Finishes m (commaList item n) := by
  induction n generalizing m with
  | zero => exact (finishes_zero _).mono hn
  | succ n ih =>
    cases m with
    | zero => exact finishes_zero _
    | succ m =>
      refine hi.bind hc fun a => finishes_accept_bind ?_ (finishes_pure [a])
      have hrest := ih (hi.mono (Nat.le_succ m)) (Nat.le_of_succ_le_succ hn)
      exact hrest.bind (composed_commaList hc n) fun as => finishes_pure (a :: as)

section Expressions

variable {inner next : Parse Expr}

theorem takes_opening : Takes opening := by
  intro stop ts o ho
  obtain ⟨t, us, o', rfl, _, h⟩ | h := take?_cases opening? stop ts
  · rw [opening, bind_silent h]
    exact Nat.lt_succ_self _
  · rw [opening, bind_silent h] at ho
    cases ho

theorem finishes_opening : Finishes m opening := by
  intro stop ts _
  obtain ⟨t, us, o, rfl, _, h⟩ | h := take?_cases opening? stop ts
  · rw [opening, bind_silent h]
    intro hr
    cases hr
  · rw [opening, bind_silent h]
    intro hr
    cases hr

theorem takes_primary (hi : Composed inner) : Takes (primary inner) := by
  refine takes_opening.bind fun o => ?_
  cases o with
  | leaf e => exact .pure e
  | paren => exact hi.bind fun e => composed_expect_then (by decide) e

theorem finishes_primary (hi : Finishes m inner) (hc : Composed inner) :
    Finishes (m + 1) (primary inner) := by
  refine finishes_opening.bind_takes takes_opening fun o => ?_
  cases o with
  | leaf e => exact finishes_pure e
  | paren => exact hi.bind hc fun e => finishes_expect_then e

theorem finishes_arguments (hi : Finishes m inner) (hc : Composed inner) (hn : m ≤ n) :
    Finishes m (arguments inner n) := by
  refine (finishes_looks _).bind_bool (composed_check (by decide)) ?_ ?_
  · exact (finishes_pure []).bind (.pure []) fun args => finishes_expect_then args
  · exact (finishes_commaList hi hc hn).bind (composed_commaList hc n) fun args =>
      finishes_expect_then args

/-- A member's name is given and its dot is taken, or nothing is. -/
theorem memberName?_cases (stop : Token) (ts : List Token) :
    (∃ field, (memberName? stop ts).result = .ok (some field) ∧
      (memberName? stop ts).rest.length < ts.length) ∨ Reads memberName? stop ts none ts := by
  by_cases hdot : memberDot ts
  · rw [memberName?, bind_silent (x := looks memberDot) rfl, if_pos hdot]
    refine .inl ?_
    cases ts with
    | nil => cases hdot
    | cons t us =>
      have ht : t.kind ≠ .eof := by
        intro ht
        simp [memberDot, ht] at hdot
      have hadvance : Reads advance stop (t :: us) () us := by
        simp [Reads, advance, take?, bind, pure, ht]
      rw [bind_silent hadvance]
      obtain ⟨t', us', rfl, _, h⟩ | ⟨_, h⟩ := expect_cases .propertyName stop us
      · rw [bind_silent h]
        exact ⟨_, rfl, Nat.lt_succ_of_lt (Nat.lt_succ_self _)⟩
      · rw [bind_ok h]
        exact ⟨_, rfl, Nat.lt_succ_self _⟩
  · refine .inr ?_
    rw [memberName?, reads_looks_bind, if_neg hdot]
    exact reads_return

theorem finishes_memberName?_bind {f : Option String → Parse β}
    (hs : ∀ field, Finishes m (f (some field))) (hn : Finishes (m + 1) (f none)) :
    Finishes (m + 1) (memberName? >>= f) := by
  intro stop ts hts
  obtain ⟨field, hfield, hlt⟩ | h := memberName?_cases stop ts
  · obtain ⟨h, hh, _⟩ | ⟨a, ha, hr⟩ := bind_cases memberName? f stop ts
    · cases hh.symm.trans hfield
    · cases ha.symm.trans hfield
      rw [hr]
      exact hs field stop _ (by omega)
  · rw [bind_silent h]
    exact hn stop ts hts

theorem finishes_chain (hi : Finishes m inner) (hc : Composed inner) (hn : m ≤ n) (e : Expr) :
    Finishes m (chain inner n e) := by
  induction n generalizing m e with
  | zero => exact (finishes_zero _).mono hn
  | succ n ih =>
    cases m with
    | zero => exact finishes_zero _
    | succ m =>
      have hm := Nat.le_of_succ_le_succ hn
      have hi := hi.mono (Nat.le_succ m)
      refine finishes_accept_bind ?_ (finishes_accept_bind ?_ ?_)
      · exact (finishes_arguments hi hc hm).bind (composed_arguments hc n) fun args => ih hi hm _
      · exact hi.bind hc fun i => finishes_expect_bind (by decide) fun _ => ih hi hm _
      · exact finishes_memberName?_bind (fun field => ih hi hm _) (finishes_pure e)

theorem finishes_contextual (e : Expr) : Finishes m (contextual e) := by
  refine (finishes_looks _).bind_bool (.looks near_contextAhead) ?_ (finishes_pure e)
  refine finishes_expect_bind (by decide) fun _ => finishes_expect_bind (by decide) fun _ => ?_
  refine finishes_expect_bind (by decide) fun _ => finishes_expect_bind (by decide) fun _ => ?_
  exact (finishes_require _).bind_option (.require rfl) (fun t => finishes_pure _) (finishes_pure e)

theorem takes_operand (hi : Composed inner) : Takes (operand inner n) :=
  (takes_primary hi).bind fun e => (composed_chain hi n e).bind composed_contextual

theorem finishes_operand (hi : Finishes m inner) (hc : Composed inner) (hn : m ≤ n) :
    Finishes (m + 1) (operand inner n) :=
  (finishes_primary hi hc).bind_takes (takes_primary hc) fun e =>
    (finishes_chain hi hc hn e).bind (composed_chain hc n e) finishes_contextual

theorem takes_unary (hx : Takes next) : Takes (unary next) :=
  Composed.unaryOps.bind_takes fun _ => hx.bind fun _ => .pure _

theorem finishes_unary (hx : Finishes m next) (hc : Composed next) : Finishes m (unary next) := by
  have hops : Finishes m unaryOps := finishes_of_result fun _ _ => ⟨_, rfl⟩
  exact hops.bind .unaryOps fun ops => hx.bind hc fun e => finishes_pure _

theorem finishes_binaryTail {ops : OpTable} (hx : Finishes m next) (hc : Composed next)
    (hn : m ≤ n) (e : Expr) : Finishes m (binaryTail ops next n e) := by
  induction n generalizing m e with
  | zero => exact (finishes_zero _).mono hn
  | succ n ih =>
    cases m with
    | zero => exact finishes_zero _
    | succ m =>
      have hx := hx.mono (Nat.le_succ m)
      refine finishes_take?_bind (fun op => ?_) (finishes_pure e)
      exact hx.bind hc fun rhs => ih hx (Nat.le_of_succ_le_succ hn) _

theorem takes_binary (ht : Takes next) (hc : Composed next) : Takes (binary next n) := by
  suffices h : Composed (binary next n) ∧ Takes (binary next n) from h.2
  refine binary_induction (Q := fun x => Composed x ∧ Takes x) ⟨hc, ht⟩ fun _ lower ho hl => ?_
  have htail := composed_binaryTail ho hl.1 n
  exact ⟨hl.1.bind htail, hl.2.bind htail⟩

/-- The operands of a level are expressions of the level below. -/
theorem finishes_binary (hx : Finishes (m + 1) next) (ht : Takes next) (hc : Composed next)
    (hn : m ≤ n) : Finishes (m + 1) (binary next n) := by
  let Q (x : Parse Expr) : Prop := Composed x ∧ Takes x ∧ Finishes (m + 1) x
  suffices h : Q (binary next n) from h.2.2
  refine binary_induction ⟨hc, ht, hx⟩ fun ops lower ho ⟨hc, ht, hx⟩ => ?_
  have htail := composed_binaryTail ho hc n
  refine ⟨hc.bind htail, ht.bind htail, hx.bind_takes ht fun e => ?_⟩
  exact finishes_binaryTail (hx.mono (Nat.le_succ m)) hc hn e

theorem finishes_assignTail (hi : Finishes m inner) (hc : Composed inner) (lhs : Expr) :
    Finishes (m + 1) (assignTail inner lhs) := by
  refine finishes_take?_bind (fun t => hi.bind hc fun rhs => ?_) (finishes_pure lhs)
  split
  · exact finishes_pure _
  · exact finishes_of_result fun _ _ => ⟨lhs, rfl⟩

theorem takes_assignment (hc : Composed inner) : Takes (assignment inner n) := by
  have hoperand := composed_unary (composed_operand hc n)
  exact (takes_binary (takes_unary (takes_operand hc)) hoperand).bind fun lhs => .assignTail hc lhs

theorem finishes_assignment (hi : Finishes m inner) (hc : Composed inner) (hn : m ≤ n) :
    Finishes (m + 1) (assignment inner n) := by
  have hoperand := composed_unary (composed_operand hc n)
  have ht : Takes (unary (operand inner n)) := takes_unary (takes_operand hc)
  have hx := finishes_unary (finishes_operand hi hc hn) (composed_operand hc n)
  exact (finishes_binary hx ht hoperand hn).bind (composed_binary hoperand n) fun lhs =>
    finishes_assignTail hi hc lhs

theorem takes_expressionWithin (n : Nat) : Takes (expressionWithin n) := by
  cases n with
  | zero => exact takes_exhausted
  | succ n => exact takes_assignment (composed_expressionWithin n)

/-- A bound above the number of tokens left is not used up. -/
theorem finishes_expressionWithin (n : Nat) : Finishes n (expressionWithin n) := by
  induction n with
  | zero => exact finishes_zero _
  | succ n ih => exact finishes_assignment ih (composed_expressionWithin n) (Nat.le_succ n)

end Expressions

section Bounds

theorem eq_of_rel_eq {a? b? : Option α} (h : Option.Rel Eq a? b?) : a? = b? := by
  cases h with
  | none => rfl
  | some h => rw [h]

theorem eq_of_forall₂_eq {as bs : List α} (h : Forall₂ Eq as bs) : as = bs := by
  rwa [List.forall₂_eq_eq_eq] at h

/-- The correspondence of everything with itself: the second reading only has larger bounds. -/
def same (stop : Token) : Parallel where
  stop := stop
  stop' := stop
  token := Eq
  pos := Eq
  error := Eq
  expr := Eq
  stmt := Eq
  stop_lexeme := rfl
  token_kind h := by rw [h]
  token_lexeme h := by rw [h]
  token_leaf? h := by rw [h]
  token_pos h := by rw [h]
  error_token fault h := by rw [h]
  error_stop fault := rfl
  expr_pos h := by rw [h]
  expr_name? h := by rw [h]
  expr_literal h _ := by rw [h]
  expr_name h _ := by rw [h]
  expr_binary hp ha hb := by rw [hp, ha, hb]
  expr_assign hp _ ha hb := by rw [hp, ha, hb]
  expr_unary hp h := by rw [hp, h]
  expr_call hp h hs := by rw [hp, h, eq_of_forall₂_eq hs]
  expr_index hp ha hb := by rw [hp, ha, hb]
  expr_member hp h := by rw [hp, h]
  expr_context ht _ hp h := by rw [ht, hp, h]
  stmt_expr hp h := by rw [hp, h]
  stmt_declare hp h := by rw [hp, eq_of_rel_eq h]
  stmt_block hp hs := by rw [hp, eq_of_forall₂_eq hs]
  stmt_function hp hs := by rw [hp, eq_of_forall₂_eq hs]
  stmt_ret hp h := by rw [hp, eq_of_rel_eq h]
  stmt_ifThen hp hc hs := by rw [hp, hc, hs]
  stmt_ifElse hp hc hs hf := by rw [hp, hc, hs, hf]
  stmt_whileLoop hp hc hs := by rw [hp, hc, hs]
  stmt_forRange hp ha hb hs := by rw [hp, ha, hb, hs]

theorem Parallel.Replies.eq {stop : Token} {r r' : Reply α} (h : (same stop).Replies Eq r r') :
    r = r' := by
  obtain ⟨result, errors, rest⟩ := r
  obtain ⟨result', errors', rest'⟩ := r'
  obtain ⟨hresult, herrors, hrest⟩ := h
  obtain rfl : errors = errors' := eq_of_forall₂_eq herrors
  obtain rfl : rest = rest' := eq_of_forall₂_eq hrest
  cases hresult with
  | ok h => rw [h]
  | @fault e e' h =>
    obtain rfl : e = e' := h
    rfl

private theorem replies_same (stop : Token) (r : Reply α) :
    r.result = .error .exhausted ∨ (same stop).Replies Eq r r := by
  have hforall {γ : Type} (as : List γ) : Forall₂ Eq as as := List.forall₂_same.2 fun _ _ => rfl
  rcases r with ⟨(e | _) | a, errors, rest⟩
  · exact .inr ⟨.fault rfl, hforall errors, hforall rest⟩
  · exact .inl rfl
  · exact .inr ⟨.ok rfl, hforall errors, hforall rest⟩

/-- The second reader gives what the first one gives, unless a bound of the first is used up. -/
theorem links_same_iff {stop : Token} {x y : Parse α} : (same stop).Links Eq x y ↔
    ∀ ts, (x stop ts).result = .error .exhausted ∨ x stop ts = y stop ts := by
  constructor
  · intro h ts
    have htokens : Forall₂ (same stop).token ts ts := List.forall₂_same.2 fun _ _ => rfl
    exact (h htokens).imp id Parallel.Replies.eq
  · intro h ts ts' hts
    obtain rfl : ts = ts' := eq_of_forall₂_eq hts
    obtain hx | hx := h ts
    · exact .inl hx
    · have hsame := replies_same stop (x stop ts)
      change _ ∨ (same stop).Replies Eq (x stop ts) (y stop ts)
      rwa [← hx]

theorem Finishes.eq_of_links {stop : Token} {ts : List Token} {y : Parse α} (hx : Finishes m x)
    (hts : ts.length < m) (h : (same stop).Links Eq x y) : x stop ts = y stop ts :=
  (links_same_iff.1 h ts).resolve_left (hx stop ts hts)

/-- Any bound above the number of tokens left gives the same. -/
theorem expressionWithin_eq {stop : Token} {ts : List Token} (hn : ts.length < n) :
    expressionWithin n stop ts = expression stop ts :=
  ((finishes_expressionWithin _).eq_of_links (Nat.lt_succ_self _)
    (Parallel.links_expressionWithin hn)).symm

theorem links_expression (stop : Token) (n : Nat) :
    (same stop).Links Eq (expressionWithin n) expression := by
  refine links_same_iff.2 fun ts => ?_
  have hle : n ≤ max n (ts.length + 1) := Nat.le_max_left n _
  rw [← expressionWithin_eq (Nat.lt_of_succ_le (Nat.le_max_right n (ts.length + 1)))]
  exact links_same_iff.1 (Parallel.links_expressionWithin hle) ts

/-- The equation of expressions, with any bound above the number of tokens left. -/
theorem expression_eq {stop : Token} {ts : List Token} (hn : ts.length < n) :
    expression stop ts = assignment expression n stop ts := by
  have hlinks : (same stop).Links Eq (expressionWithin (ts.length + 1)) (assignment expression n) :=
    Parallel.links_assignment (links_expression stop ts.length) hn
  exact (finishes_expressionWithin _).eq_of_links (Nat.lt_succ_self _) hlinks

/-- The equation has no other solution. -/
theorem expression_unique {e : Parse Expr}
    (h : ∀ stop ts n, ts.length < n → e stop ts = assignment e n stop ts) : e = expression := by
  have hlinks (stop : Token) (n : Nat) : (same stop).Links Eq (expressionWithin n) e := by
    induction n with
    | zero => exact Parallel.links_exhausted
    | succ n ih =>
      refine links_same_iff.2 fun ts => ?_
      have hle : n + 1 ≤ max (n + 1) (ts.length + 1) := Nat.le_max_left _ _
      rw [h stop ts _ (Nat.lt_of_succ_le (Nat.le_max_right (n + 1) (ts.length + 1)))]
      exact links_same_iff.1 (Parallel.links_assignment ih hle) ts
  funext stop ts
  exact ((finishes_expressionWithin _).eq_of_links (Nat.lt_succ_self _) (hlinks stop _)).symm

end Bounds

/-- An expression takes a token, and no bound is used up. -/
theorem takes_expression : Takes expression := fun stop ts => takes_expressionWithin _ stop ts

theorem finishes_expression : Finishes m expression := fun stop ts _ =>
  finishes_expressionWithin _ stop ts (Nat.lt_succ_self _)

end Scriptlet.Parse
