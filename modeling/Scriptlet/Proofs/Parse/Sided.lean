import Scriptlet.Proofs.Parse.Course

/-! What stands behind a token that ends every look ahead. A reader either stops before that token,
with a reply that does not depend on what stands behind it, or it takes the token; which of the two
is settled by the tokens before it. An end of input is never taken. -/
namespace Scriptlet

/-- The reply with more tokens behind those that are left. -/
def Reply.before {α : Type} (r : Reply α) (more : List Token) : Reply α :=
  ⟨r.result, r.errors, r.rest ++ more⟩

namespace Parse

variable {α β : Type} {c : Token} {cs us mid : List Token} {x : Parse α} {f : α → Parse β}

/-- From the tokens `us` the reader stops before the tokens `c :: cs`, whatever stands behind them.
If `c` is an end of input, it could as well be the end of the list. -/
def Stays (c : Token) (cs us : List Token) (x : Parse α) : Prop :=
  ∃ r : Reply α, (∀ stop tail, x stop (us ++ c :: (cs ++ tail)) = r.before (c :: (cs ++ tail))) ∧
    (c.kind = .eof → x c us = r)

/-- From the tokens `us` the reader takes the token `c`, whatever stands behind `c :: cs`. -/
def Enters (c : Token) (cs us : List Token) (x : Parse α) : Prop :=
  c.kind ≠ .eof ∧ ∀ stop tail, (x stop (us ++ c :: (cs ++ tail))).rest <:+ cs ++ tail

/-- The tokens before `c` settle whether the reader takes it. -/
def Sided (c : Token) (cs : List Token) (x : Parse α) : Prop :=
  ∀ us, Stays c cs us x ∨ Enters c cs us x

theorem stays_of_reads (a : α) (mid : List Token)
    (h : ∀ stop tail, Reads x stop (us ++ c :: (cs ++ tail)) a (mid ++ c :: (cs ++ tail)))
    (he : c.kind = .eof → Reads x c us a mid) : Stays c cs us x :=
  ⟨⟨.ok a, [], mid⟩, h, he⟩

theorem Sided.bind (hx : Sided c cs x) (hf : ∀ a, Sided c cs (f a)) (hs : ∀ a, Forward (f a)) :
    Sided c cs (x >>= f) := by
  intro us
  obtain ⟨⟨h | a, errors, mid⟩, hx, he⟩ | ⟨hc, hx⟩ := hx us
  · refine .inl ⟨⟨.error h, errors, mid⟩, fun stop tail => bind_error (hx stop tail), fun hc => ?_⟩
    exact bind_error (he hc)
  · obtain ⟨r, hf, he'⟩ | ⟨hc, hf⟩ := hf a mid
    · refine .inl ⟨⟨r.result, errors ++ r.errors, r.rest⟩, fun stop tail => ?_, fun hc => ?_⟩
      · rw [bind_ok (hx stop tail), hf stop tail]
        rfl
      · rw [bind_ok (he hc), he' hc]
    · refine .inr ⟨hc, fun stop tail => ?_⟩
      rw [bind_ok (hx stop tail)]
      exact hf stop tail
  · refine .inr ⟨hc, fun stop tail => ?_⟩
    have hrest := hx stop tail
    obtain ⟨_, _, h⟩ | ⟨a, _, h⟩ := bind_cases x f stop (us ++ c :: (cs ++ tail))
    · rw [h]
      exact hrest
    · rw [h]
      exact (hs a stop _).trans hrest

private theorem headD_before (us : List Token) (stop c : Token) (tail : List Token) :
    (us ++ c :: tail).headD stop = us.headD c := by
  cases us <;> rfl

theorem sided_pure (a : α) : Sided c cs (pure a) := fun us =>
  .inl (stays_of_reads a us (fun _ _ => rfl) fun _ => rfl)

theorem sided_current : Sided c cs current := by
  refine fun us => .inl (stays_of_reads (us.headD c) us (fun stop tail => ?_) fun _ => rfl)
  rw [Reads, current, headD_before]

theorem sided_reportAt (fault : ParseFault) (t : Token) : Sided c cs (reportAt fault t) := fun us =>
  .inl ⟨⟨.ok (), [.atToken fault t], us⟩, fun _ _ => rfl, fun _ => rfl⟩

theorem forward_reportAt (fault : ParseFault) (t : Token) : Forward (reportAt fault t) :=
  fun _ _ => List.suffix_rfl

theorem sided_report (fault : ParseFault) : Sided c cs (report fault) :=
  sided_current.bind (fun t => sided_reportAt fault t) fun t => forward_reportAt fault t

theorem sided_fail (fault : ParseFault) : Sided c cs (fail fault : Parse α) := by
  intro us
  refine .inl ⟨⟨.error (.fault (.atToken fault (us.headD c))), [], us⟩, fun stop tail => ?_,
    fun _ => rfl⟩
  rw [fail, headD_before]
  rfl

theorem sided_looks {test : List Token → Bool} (h : Near test) (hg : Guarded (c :: cs)) :
    Sided c cs (looks test) := by
  intro us
  refine .inl (stays_of_reads (test (us ++ c :: cs)) us (fun stop tail => ?_) fun he => ?_)
  · have htest := h.append (us ++ c :: cs) tail (hg.append_left us)
    rw [List.append_assoc, List.cons_append] at htest
    rw [Reads, looks, htest]
  · have hend : Guarded [c] := guarded_singleton (by simp [he, TokenKind.looksOn])
    have htest := h.append (us ++ [c]) cs (hend.append_left us)
    rw [List.append_assoc, List.singleton_append, h.ended us c he] at htest
    rw [Reads, looks, htest]

theorem sided_take? {g : Token → Option α} (hg : ∀ e : Token, e.kind = .eof → g e = none) :
    Sided c cs (take? g) := by
  intro us
  cases us with
  | nil =>
    cases hc : g c with
    | none =>
      refine .inl (stays_of_reads none [] (fun stop tail => ?_) fun _ => rfl)
      simp [Reads, take?, hc]
    | some a =>
      refine .inr ⟨fun he => ?_, fun stop tail => ?_⟩
      · rw [hg c he] at hc
        cases hc
      · simp [take?, hc]
  | cons t us =>
    cases ht : g t with
    | none =>
      refine .inl (stays_of_reads none (t :: us) (fun stop tail => ?_) fun _ => ?_)
      · simp [Reads, take?, ht]
      · simp [Reads, take?, ht]
    | some a =>
      refine .inl (stays_of_reads (some a) us (fun stop tail => ?_) fun _ => ?_)
      · simp [Reads, take?, ht]
      · simp [Reads, take?, ht]

theorem sided_accept? {k : TokenKind} (hk : k ≠ .eof) : Sided c cs (accept? k) :=
  sided_take? fun e he => by simpa [he] using hk.symm

theorem sided_require {k : TokenKind} (hk : k ≠ .eof) (fault : ParseFault) :
    Sided c cs (require k fault) := by
  refine (sided_accept? hk).bind (fun o => ?_) fun o => ?_
  · cases o with
    | some t => exact sided_pure _
    | none =>
      exact (sided_report fault).bind (fun _ => sided_pure _) fun _ => (Composed.pure _).forward
  · cases o with
    | some t => exact (Composed.pure _).forward
    | none =>
      exact Forward.bind (fun _ _ => List.suffix_rfl) fun _ => (Composed.pure _).forward

theorem sided_expect (e : Expectation) : Sided c cs (expect e) := by
  refine (sided_require e.kind_ne_eof _).bind (fun o => ?_) fun o => ?_
  · cases o with
    | some t => exact sided_pure t
    | none => exact sided_current
  · cases o with
    | some t => exact (Composed.pure t).forward
    | none => exact Composed.current.forward

theorem sided_opening : Sided c cs opening := by
  refine (sided_take? fun e => opening?_eof).bind (fun o => ?_) fun o => ?_
  · cases o with
    | some o => exact sided_pure o
    | none => exact sided_fail _
  · cases o with
    | some o => exact (Composed.pure o).forward
    | none => exact fun _ _ => List.suffix_rfl

/-- Dropping tokens of some kinds from the front ends before the token, or the token is dropped
too. -/
private theorem dropWhile_before (p : Token → Bool) (c : Token) (us : List Token) :
    (∃ mid, (∀ tail, (us ++ c :: tail).dropWhile p = mid ++ c :: tail) ∧ us.dropWhile p = mid) ∨
      p c ∧ ∀ tail, (us ++ c :: tail).dropWhile p <:+ tail := by
  induction us with
  | nil =>
    cases hc : p c with
    | false => exact .inl ⟨[], fun tail => by simp [hc], rfl⟩
    | true =>
      refine .inr ⟨rfl, fun tail => ?_⟩
      rw [List.nil_append, List.dropWhile_cons_of_pos hc]
      exact List.dropWhile_suffix p
  | cons t us ih =>
    cases ht : p t with
    | false => exact .inl ⟨t :: us, fun tail => by simp [ht], by simp [ht]⟩
    | true =>
      simp only [List.cons_append, List.dropWhile_cons_of_pos ht]
      exact ih

theorem sided_skipNewlines : Sided c cs skipNewlines := by
  intro us
  obtain ⟨mid, h, hus⟩ | ⟨hc, h⟩ := dropWhile_before (·.kind = .newline) c us
  · refine .inl (stays_of_reads () mid (fun stop tail => ?_) fun _ => ?_)
    · rw [Reads, skipNewlines, h]
    · rw [Reads, skipNewlines, hus]
  · have hk : c.kind = .newline := by simpa using hc
    exact .inr ⟨by simp [hk], fun stop tail => h _⟩

private theorem splitUnary_before (c : Token) (us : List Token) :
    (∃ ops mid, (∀ tail, splitUnary (us ++ c :: tail) = (ops, mid ++ c :: tail)) ∧
      splitUnary us = (ops, mid)) ∨
      c.kind ≠ .eof ∧ ∀ tail, (splitUnary (us ++ c :: tail)).2 <:+ tail := by
  induction us with
  | nil =>
    cases hc : UnaryOp.ofKind? c.kind with
    | none => exact .inl ⟨[], [], fun tail => by simp [splitUnary, hc], rfl⟩
    | some op =>
      refine .inr ⟨fun he => ?_, fun tail => ?_⟩
      · rw [he] at hc
        cases hc
      · simp only [List.nil_append, splitUnary, hc]
        exact (past_splitUnary tail).suffix
  | cons t us ih =>
    cases ht : UnaryOp.ofKind? t.kind with
    | none =>
      exact .inl ⟨[], t :: us, fun tail => by simp [splitUnary, ht], by simp [splitUnary, ht]⟩
    | some op =>
      obtain ⟨ops, mid, h, hus⟩ | ⟨hc, h⟩ := ih
      · refine .inl ⟨(t.position, op) :: ops, mid, fun tail => ?_, ?_⟩
        · simp [splitUnary, ht, h tail]
        · simp [splitUnary, ht, hus]
      · refine .inr ⟨hc, fun tail => ?_⟩
        simp only [List.cons_append, splitUnary, ht]
        exact h tail

theorem sided_unaryOps : Sided c cs unaryOps := by
  intro us
  obtain ⟨ops, mid, h, hus⟩ | ⟨hc, h⟩ := splitUnary_before c us
  · refine .inl (stays_of_reads ops mid (fun stop tail => ?_) fun _ => ?_)
    · rw [Reads, unaryOps, h]
    · rw [Reads, unaryOps, hus]
  · exact .inr ⟨hc, fun stop tail => h _⟩

private theorem head?_before (us : List Token) (c : Token) (tail : List Token) :
    (us ++ c :: tail).head? = some (us.headD c) := by
  cases us <;> rfl

private theorem synchronize_before (c : Token) (us : List Token) :
    (∃ mid, (∀ tail, synchronize (us ++ c :: tail) = mid ++ c :: tail) ∧
      (c.kind = .eof → synchronize us = mid)) ∨
      c.kind ≠ .eof ∧ ∀ tail, synchronize (us ++ c :: tail) <:+ tail := by
  induction us with
  | nil =>
    by_cases hc : c.kind = .eof
    · exact .inl ⟨[], fun tail => by simp [synchronize, hc], fun _ => rfl⟩
    · refine .inr ⟨hc, fun tail => ?_⟩
      rw [List.nil_append, synchronize, if_neg hc]
      split
      · exact List.suffix_rfl
      · exact (past_synchronize tail).suffix
  | cons t us ih =>
    by_cases ht : t.kind = .eof
    · refine .inl ⟨t :: us, fun tail => ?_, fun _ => ?_⟩
      · simp [synchronize, ht]
      · simp [synchronize, ht]
    -- An end of input starts no declaration, so the test is the same with and without it.
    have hend (hc : c.kind = .eof) : us.head?.any (·.kind.startsDeclaration) =
        (us.headD c).kind.startsDeclaration := by
      cases us with
      | nil => simp [hc, TokenKind.startsDeclaration]
      | cons => rfl
    simp only [List.cons_append, synchronize, if_neg ht, head?_before, Option.any_some]
    by_cases hstart : t.kind = .symbol .semicolon || (us.headD c).kind.startsDeclaration
    · simp only [if_pos hstart]
      exact .inl ⟨us, fun _ => rfl, fun hc => by rw [hend hc, if_pos hstart]⟩
    · simp only [if_neg hstart]
      obtain ⟨mid, h, he⟩ | h := ih
      · exact .inl ⟨mid, h, fun hc => by rw [hend hc, if_neg hstart, he hc]⟩
      · exact .inr h

private theorem rest_recover_suffix (x : Parse α) (stop : Token) (ts : List Token) :
    (recover x stop ts).rest <:+ (x stop ts).rest := by
  obtain ⟨_, _, h⟩ | ⟨_, _, h⟩ | ⟨_, h⟩ := recover_cases x stop ts
  · simp only [h, List.suffix_rfl]
  · rw [h]
    exact (past_synchronize _).suffix
  · simp only [h, List.suffix_rfl]

theorem sided_recover (hx : Sided c cs x) : Sided c cs (recover x) := by
  intro us
  obtain ⟨⟨(e | _) | a, errors, mid⟩, h, he⟩ | ⟨hc, h⟩ := hx us
  · obtain ⟨mid', hsync, hend⟩ | ⟨hc, hsync⟩ := synchronize_before c mid
    · refine .inl ⟨⟨.ok none, errors ++ [e], mid'⟩, fun stop tail => ?_, fun hc => ?_⟩
      · simp only [recover, catchFault, h stop tail, Reply.before, hsync]
      · simp only [recover, catchFault, he hc, hend hc]
    · refine .inr ⟨hc, fun stop tail => ?_⟩
      simp only [recover, catchFault, h stop tail, Reply.before]
      exact hsync _
  · refine .inl ⟨⟨.error .exhausted, errors, mid⟩, fun stop tail => ?_, fun hc => ?_⟩
    · simp only [recover, catchFault, h stop tail, Reply.before]
    · simp only [recover, catchFault, he hc]
  · refine .inl ⟨⟨.ok (some a), errors, mid⟩, fun stop tail => ?_, fun hc => ?_⟩
    · simp only [recover, catchFault, h stop tail, Reply.before]
    · simp only [recover, catchFault, he hc]
  · exact .inr ⟨hc, fun stop tail => (rest_recover_suffix x stop _).trans (h stop tail)⟩

theorem sided_assignTail {inner : Parse Expr} (hi : Sided c cs inner) (hs : Forward inner)
    (lhs : Expr) : Sided c cs (assignTail inner lhs) := by
  have hend (t : Token) (rhs : Expr) : Sided c cs (if lhs.name?.isSome then
      pure (.assign t.position lhs rhs)
      else do reportAt .invalidAssignmentTarget t; return lhs) := by
    split
    · exact sided_pure _
    · exact (sided_reportAt _ t).bind (fun _ => sided_pure lhs) fun _ => (Composed.pure lhs).forward
  have hforward (t : Token) (rhs : Expr) : Forward (if lhs.name?.isSome then
      pure (.assign t.position lhs rhs)
      else do reportAt .invalidAssignmentTarget t; return lhs) := by
    split
    · exact (Composed.pure _).forward
    · exact (forward_reportAt _ t).bind fun _ => (Composed.pure lhs).forward
  refine (sided_accept? (by decide)).bind (fun o => ?_) fun o => ?_
  · cases o with
    | none => exact sided_pure lhs
    | some t => exact hi.bind (fun rhs => hend t rhs) fun rhs => hforward t rhs
  · cases o with
    | none => exact (Composed.pure lhs).forward
    | some t => exact hs.bind fun rhs => hforward t rhs

theorem sided_block {item : Parse Stmt} {n : Nat}
    (h : Sided c cs (statements (· = .symbol .rightBrace) item n))
    (hs : Forward (statements (· = .symbol .rightBrace) item n)) : Sided c cs (block item n) := by
  have hclose (body : List Stmt) : Forward (do let _ ← expect .closeBlock; return body) :=
    (forward_expect _).bind fun _ => (Composed.pure body).forward
  refine (sided_expect _).bind (fun _ => h.bind (fun body => ?_) hclose) fun _ => hs.bind hclose
  exact (sided_expect _).bind (fun _ => sided_pure body) fun _ => (Composed.pure body).forward

/-- All readers of the grammar keep to one side of tokens that end every look ahead. -/
theorem Composed.sided {α : Type} {x : Parse α} (h : Composed x) (hg : Guarded (c :: cs)) :
    Sided c cs x := by
  induction h with
  | pure a => exact sided_pure a
  | bind _ hf ihx ihf => exact ihx.bind ihf fun a => (hf a).forward
  | exhausted => exact fun us => .inl ⟨⟨.error .exhausted, [], us⟩, fun _ _ => rfl, fun _ => rfl⟩
  | current => exact sided_current
  | looks h => exact sided_looks h hg
  | take? hf => exact sided_take? hf
  | require hw => exact sided_require hw.kind_ne_eof _
  | skipNewlines => exact sided_skipNewlines
  | recover _ ih => exact sided_recover ih
  | opening => exact sided_opening
  | unaryOps => exact sided_unaryOps
  | assignTail hi lhs ih => exact sided_assignTail ih hi.forward lhs
  | block h ih => exact sided_block ih h.forward

/-- An end of input is the end of the list, whatever stands behind it. -/
theorem Composed.before_end (h : Composed x) {e : Token} (he : e.kind = .eof) (stop : Token)
    (us tail : List Token) : x stop (us ++ e :: tail) = (x e us).before (e :: tail) := by
  have hguard : Guarded [e] := guarded_singleton (by simp [he, TokenKind.looksOn])
  obtain ⟨r, hr, hend⟩ | ⟨hne, _⟩ := h.sided hguard us
  · rw [hend he]
    exact hr stop tail
  · exact absurd he hne

/-- A reading that stops before tokens that end every look ahead does not depend on what stands
behind them. -/
theorem Composed.append (h : Composed x) {stop : Token} {ts rest : List Token} {a : α}
    (hr : Reads x stop ts a rest) (hg : Guarded rest) (stop' : Token) (more : List Token) :
    Reads x stop' (ts ++ more) a (rest ++ more) := by
  obtain ⟨us, rfl, _⟩ : Past ts rest := by
    have hp := h.past stop ts
    rwa [hr] at hp
  cases rest with
  | nil => exact absurd rfl hg.ne_nil
  | cons c cs =>
    have hr : x stop (us ++ c :: (cs ++ [])) = ⟨.ok a, [], c :: cs⟩ := by
      rw [List.append_nil]
      exact hr
    obtain ⟨⟨result, errors, mid⟩, hs, _⟩ | ⟨_, hs⟩ := h.sided hg us
    · have hnone := (hs stop []).symm.trans hr
      simp only [Reply.before, List.append_nil, Reply.mk.injEq, List.append_left_eq_self] at hnone
      obtain ⟨rfl, rfl, rfl⟩ := hnone
      rw [List.append_assoc, List.cons_append, Reads, hs stop' more]
      rfl
    · have hlen := (hs stop []).length_le
      rw [hr, List.append_nil] at hlen
      exact absurd hlen (Nat.not_succ_le_self _)

end Parse

end Scriptlet
