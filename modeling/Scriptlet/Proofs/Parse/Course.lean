import Mathlib.Data.List.TakeWhile
import Scriptlet.Proofs.Parse.Composed
import Scriptlet.Proofs.Parse.Silent

/-! The way of a reader through the tokens. It never goes back and never past an end of input, it
records errors where it stands, and it fails only where an expression is missing. Only a wrong
assignment target is reported late, at a sign that is already passed. -/
namespace Scriptlet

/-- The kinds of token that a fault can be found at. -/
def ParseFault.Fits : ParseFault → TokenKind → Prop
  | .unexpectedToken x, k => k ≠ x.kind
  | .expectedExpression, k =>
    k ∉ [.integer, .float, .string, .boolean, .identifier, .symbol .leftParen]
  | .invalidAssignmentTarget, k => k = .symbol .assign
  | .expectedTypeName, k => k ≠ .identifier
  | .expectedContextString, k => k ≠ .string

instance : (fault : ParseFault) → (k : TokenKind) → Decidable (fault.Fits k)
  | .unexpectedToken x, k => inferInstanceAs (Decidable (k ≠ x.kind))
  | .expectedExpression, k => inferInstanceAs (Decidable (k ∉ _))
  | .invalidAssignmentTarget, k => inferInstanceAs (Decidable (k = .symbol .assign))
  | .expectedTypeName, k => inferInstanceAs (Decidable (k ≠ .identifier))
  | .expectedContextString, k => inferInstanceAs (Decidable (k ≠ .string))

theorem ParseFault.Wants.fits {fault : ParseFault} {k k' : TokenKind} (h : fault.Wants k)
    (hk : k' ≠ k) : fault.Fits k' := by
  cases fault with
  | unexpectedToken x =>
    obtain ⟨rfl, _⟩ := h
    exact hk
  | expectedTypeName =>
    obtain rfl : k = .identifier := h
    exact hk
  | expectedContextString =>
    obtain rfl : k = .string := h
    exact hk
  | expectedExpression => exact h.elim
  | invalidAssignmentTarget => exact h.elim

/-- All errors of a reply, the one that stopped reading at the end. -/
def Reply.allErrors {α : Type} (r : Reply α) : List ParseError :=
  match r.result with
  | .error (.fault e) => r.errors ++ [e]
  | .error .exhausted | .ok _ => r.errors

private theorem Reply.allErrors_after {α : Type} (errors : List ParseError) (r : Reply α) :
    allErrors ⟨r.result, errors ++ r.errors, r.rest⟩ = errors ++ r.allErrors := by
  rcases r with ⟨(e | _) | a, errors', rest⟩
  · exact List.append_assoc errors errors' [e]
  · rfl
  · rfl

namespace Parse

variable {stop t : Token} {ts us mid rest : List Token} {es : List ParseError}

/-- The tokens `rest` are what is left of `ts` behind some tokens that are no end of input. -/
def Past (ts rest : List Token) : Prop := ∃ used, ts = used ++ rest ∧ ∀ t ∈ used, t.kind ≠ .eof

namespace Past

theorem refl (ts : List Token) : Past ts ts := ⟨[], rfl, by simp⟩

theorem cons (ht : t.kind ≠ .eof) (us : List Token) : Past (t :: us) us :=
  ⟨[t], rfl, List.forall_mem_singleton.2 ht⟩

theorem trans (h : Past ts mid) (h' : Past mid rest) : Past ts rest := by
  obtain ⟨used, rfl, hu⟩ := h
  obtain ⟨used', rfl, hu'⟩ := h'
  exact ⟨used ++ used', (List.append_assoc _ _ _).symm, List.forall_mem_append.2 ⟨hu, hu'⟩⟩

theorem suffix (h : Past ts rest) : rest <:+ ts := by
  obtain ⟨used, rfl, _⟩ := h
  exact List.suffix_append used rest

theorem length_le (h : Past ts rest) : rest.length ≤ ts.length := h.suffix.length_le

/-- Nothing is taken from an end of input. -/
theorem eq_of_atEnd (h : Past ts rest) (he : atEnd ts) : rest = ts := by
  obtain ⟨used, rfl, hu⟩ := h
  cases used with
  | nil => rfl
  | cons t used => exact absurd (by simpa [atEnd] using he) (hu t List.mem_cons_self)

theorem length_lt (h : Past ts rest) (hne : rest ≠ ts) : rest.length < ts.length :=
  Nat.lt_of_le_of_ne h.length_le fun hlen => hne (h.suffix.eq_of_length hlen)

end Past

theorem past_dropWhile_newline (ts : List Token) : Past ts (ts.dropWhile (·.kind = .newline)) := by
  refine ⟨ts.takeWhile (·.kind = .newline), List.takeWhile_append_dropWhile.symm, fun t ht => ?_⟩
  have hk : t.kind = .newline := by simpa using List.mem_takeWhile_imp ht
  simp [hk]

theorem past_splitUnary (ts : List Token) : Past ts (splitUnary ts).2 := by
  induction ts with
  | nil => exact .refl []
  | cons t ts ih =>
    rw [splitUnary]
    cases ht : UnaryOp.ofKind? t.kind with
    | none => exact .refl _
    | some op =>
      have hk : t.kind ≠ .eof := fun hk => by rw [hk] at ht; cases ht
      exact (Past.cons hk ts).trans ih

theorem past_synchronize (ts : List Token) : Past ts (synchronize ts) := by
  induction ts with
  | nil => exact .refl []
  | cons t ts ih =>
    rw [synchronize]
    by_cases ht : t.kind = .eof
    · rw [if_pos ht]
      exact .refl _
    · rw [if_neg ht]
      split
      · exact .cons ht ts
      · exact (Past.cons ht ts).trans ih

/-- Where it is not the end of input, going on after an error drops a token. -/
theorem synchronize_length_lt (h : ¬ atEnd ts) : (synchronize ts).length < ts.length := by
  cases ts with
  | nil => exact absurd rfl h
  | cons t ts =>
    have ht : t.kind ≠ .eof := by simpa [atEnd] using h
    rw [synchronize, if_neg ht]
    split
    · exact Nat.lt_succ_self _
    · exact Nat.lt_succ_of_le (past_synchronize ts).length_le

/-- How a reader gets from the tokens `ts` to `rest`, and the errors it finds on the way. -/
inductive Course (stop : Token) : List Token → List ParseError → List Token → Prop
  | skip {ts rest : List Token} (h : Past ts rest) : Course stop ts [] rest
  | error {ts : List Token} {fault : ParseFault} (hne : fault ≠ .invalidAssignmentTarget)
      (h : stop.kind = .eof → fault.Fits (ts.headD stop).kind)
      (ho : fault = .unexpectedToken .closeBlock → atEnd ts) :
      Course stop ts [.atToken fault (ts.headD stop)] ts
  | append {ts mid rest : List Token} {es fs : List ParseError} (h : Course stop ts es mid)
      (h' : Course stop mid fs rest) : Course stop ts (es ++ fs) rest
  /-- The sign of an assignment is passed and comes back when its target turns out to be wrong. -/
  | target {t : Token} {us rest : List Token} {es : List ParseError} (ht : t.kind = .symbol .assign)
      (h : Course stop us es rest) :
      Course stop (t :: us) (es ++ [.atToken .invalidAssignmentTarget t]) rest

namespace Course

theorem past (h : Course stop ts es rest) : Past ts rest := by
  induction h with
  | skip h => exact h
  | error => exact .refl _
  | append _ _ ih ih' => exact ih.trans ih'
  | target ht _ ih => exact (Past.cons (by simp [ht]) _).trans ih

theorem after (h : Course stop us es rest) (hs : Past ts us) : Course stop ts es rest :=
  .append (.skip hs) h

theorem before (h : Course stop ts es mid) (hs : Past mid rest) : Course stop ts es rest := by
  rw [← List.append_nil es]
  exact .append h (.skip hs)

/-- A block is found to be open at the end of input only, where the course ends. -/
theorem atEnd_of_open (h : Course stop ts es rest) {e : ParseError} (he : e ∈ es)
    (ho : e.fault = .unexpectedToken .closeBlock) : atEnd rest := by
  induction h with
  | skip => cases he
  | error _ _ hend =>
    rw [List.mem_singleton.1 he] at ho
    exact hend ho
  | append _ h' ih ih' =>
    obtain he | he := List.mem_append.1 he
    · rw [h'.past.eq_of_atEnd (ih he)]
      exact ih he
    · exact ih' he
  | target _ _ ih =>
    obtain he | he := List.mem_append.1 he
    · exact ih he
    · rw [List.mem_singleton.1 he] at ho
      cases ho

end Course

/-- The reply is reached from the tokens on a course with its errors. If it is a failure, an
expression is missing at the next token. -/
structure OnCourse {α : Type} (stop : Token) (ts : List Token) (r : Reply α) : Prop where
  course : Course stop ts r.allErrors r.rest
  fails : ∀ e, r.result = .error (.fault e) →
    e = .atToken .expectedExpression (r.rest.headD stop)

variable {α β : Type} {x : Parse α} {f : α → Parse β}

theorem OnCourse.bind (hx : OnCourse stop ts (x stop ts))
    (hf : ∀ a, (x stop ts).result = .ok a →
      OnCourse stop (x stop ts).rest (f a stop (x stop ts).rest)) :
    OnCourse stop ts ((x >>= f) stop ts) := by
  rcases h : x stop ts with ⟨e | a, errors, mid⟩
  · rw [h] at hx
    rw [bind_error h]
    cases e with
    | fault e => exact ⟨hx.course, fun _ he => hx.fails _ (by cases he; rfl)⟩
    | exhausted => exact ⟨hx.course, nofun⟩
  · rw [h] at hx hf
    have hmid := hf a rfl
    rw [bind_ok h]
    refine ⟨?_, hmid.fails⟩
    rw [Reply.allErrors_after]
    exact .append hx.course hmid.course

/-- A reader that has a result and records nothing only skips tokens. -/
theorem onCourse_of_reads {a : α} (h : Reads x stop ts a rest) (hs : Past ts rest) :
    OnCourse stop ts (x stop ts) := by
  rw [h]
  exact ⟨.skip hs, nofun⟩

theorem onCourse_take? {f : Token → Option α} (hf : ∀ e : Token, e.kind = .eof → f e = none) :
    OnCourse stop ts (take? f stop ts) := by
  obtain ⟨t, us, a, rfl, ht, h⟩ | h := take?_cases f stop ts
  · have hk : t.kind ≠ .eof := fun hk => by rw [hf t hk] at ht; cases ht
    exact onCourse_of_reads h (.cons hk us)
  · exact onCourse_of_reads h (.refl ts)

theorem onCourse_report {fault : ParseFault} (hne : fault ≠ .invalidAssignmentTarget)
    (h : stop.kind = .eof → fault.Fits (ts.headD stop).kind)
    (ho : fault = .unexpectedToken .closeBlock → atEnd ts) :
    OnCourse stop ts (report fault stop ts) := by
  refine ⟨.error hne h ho, fun _ he => ?_⟩
  cases he

/-- What is looked for and not there is reported. -/
theorem onCourse_require {k : TokenKind} {fault : ParseFault} (hk : k ≠ .eof)
    (hne : fault ≠ .invalidAssignmentTarget) (hfits : ∀ k', k' ≠ k → fault.Fits k')
    (ho : fault = .unexpectedToken .closeBlock → NotNext k ts → atEnd ts) :
    OnCourse stop ts (require k fault stop ts) := by
  rw [require]
  obtain ⟨t, us, rfl, ht, h⟩ | ⟨hn, h⟩ := accept?_cases k stop ts
  · rw [bind_silent h]
    exact ⟨.skip (.cons (ht ▸ hk) us), nofun⟩
  · rw [bind_silent h]
    have hhead (hstop : stop.kind = .eof) : (ts.headD stop).kind ≠ k := by
      cases ts with
      | nil => exact hstop ▸ hk.symm
      | cons t us => exact notNext_cons.1 hn
    have hreport : OnCourse stop ts (report fault stop ts) :=
      onCourse_report hne (fun hstop => hfits _ (hhead hstop)) fun hf => ho hf hn
    exact hreport.bind fun _ _ => onCourse_of_reads rfl (.refl _)

theorem onCourse_expect {e : Expectation} (ho : e = .closeBlock → NotNext e.kind ts → atEnd ts) :
    OnCourse stop ts (expect e stop ts) := by
  have h : OnCourse stop ts (require e.kind (.unexpectedToken e) stop ts) :=
    onCourse_require e.kind_ne_eof nofun (fun _ h => h) fun hf => ho (by simpa using hf)
  refine h.bind fun o _ => ?_
  cases o with
  | some t => exact onCourse_of_reads rfl (.refl _)
  | none => exact onCourse_of_reads rfl (.refl _)

theorem onCourse_recover (h : OnCourse stop ts (x stop ts)) :
    OnCourse stop ts (recover x stop ts) := by
  unfold recover catchFault
  generalize x stop ts = r at h
  rcases r with ⟨(e | _) | a, errors, rest⟩
  · exact ⟨h.course.before (past_synchronize rest), nofun⟩
  · exact ⟨h.course, nofun⟩
  · exact ⟨h.course, nofun⟩

private theorem fits_expectedExpression (h : opening? t = none) :
    ParseFault.expectedExpression.Fits t.kind := by
  have hleaf : t.leaf? = none := by
    cases hv : t.leaf? with
    | none => rfl
    | some v => simp [opening?, hv] at h
  have hname : t.kind ≠ .identifier := fun hk => by simp [opening?, hleaf, hk] at h
  have hparen : t.kind ≠ .symbol .leftParen := fun hk => by simp [opening?, hleaf, hk] at h
  intro hmem
  unfold Token.leaf? at hleaf
  split at hleaf <;> simp_all

theorem opening?_eof {e : Token} (he : e.kind = .eof) : opening? e = none := by
  simp [opening?, Token.leaf?, he]

theorem onCourse_opening : OnCourse stop ts (opening stop ts) := by
  rw [opening]
  cases ts with
  | nil =>
    refine ⟨.error (by simp) (fun hstop => ?_) (by simp), ?_⟩
    · rw [List.headD_nil, hstop]
      decide
    · rintro e ⟨⟩
      rfl
  | cons t us =>
    cases ht : opening? t with
    | none =>
      have h : Reads (take? opening?) stop (t :: us) none (t :: us) := by simp [Reads, take?, ht]
      rw [bind_silent h]
      refine ⟨.error (by simp) (fun _ => fits_expectedExpression ht) (by simp), ?_⟩
      rintro e ⟨⟩
      rfl
    | some o =>
      have h : Reads (take? opening?) stop (t :: us) (some o) us := by simp [Reads, take?, ht]
      have hk : t.kind ≠ .eof := fun hk => by rw [opening?_eof hk] at ht; cases ht
      rw [bind_silent h]
      refine ⟨.skip (.cons hk us), ?_⟩
      rintro e ⟨⟩

theorem onCourse_assignTail {inner : Parse Expr} (hi : ∀ ts, OnCourse stop ts (inner stop ts))
    (lhs : Expr) : OnCourse stop ts (assignTail inner lhs stop ts) := by
  rw [assignTail]
  obtain ⟨t, us, rfl, ht, h⟩ | ⟨_, h⟩ := accept?_cases (.symbol .assign) stop ts
  · have hpast : Past (t :: us) us := .cons (by simp [ht]) us
    have hi := hi us
    rw [bind_silent h]
    dsimp only
    rcases hr : inner stop us with ⟨e | rhs, errors, rest⟩
    · rw [hr] at hi
      rw [bind_error hr]
      exact ⟨hi.course.after hpast, hi.fails⟩
    · rw [hr] at hi
      rw [bind_ok hr]
      by_cases hname : lhs.name?.isSome
      · rw [if_pos hname]
        have hcourse := hi.course.after hpast
        exact ⟨by simpa [Reply.allErrors, Pure.pure] using hcourse, nofun⟩
      · rw [if_neg hname]
        -- The errors of the right side come first, though they stand behind the sign.
        exact ⟨.target ht hi.course, nofun⟩
  · rw [bind_silent h]
    exact ⟨.skip (.refl ts), nofun⟩

/-- Statements are only read to where no other one can follow. -/
theorem ends_of_statements {closes : TokenKind → Bool} {item : Parse Stmt} {n : Nat}
    {ss : List Stmt} (h : (statements closes item n stop ts).result = .ok ss) :
    ends closes (statements closes item n stop ts).rest := by
  induction n generalizing ts ss with
  | zero => cases h
  | succ n ih =>
    rw [statements, bind_silent (x := skipNewlines) rfl, bind_silent (x := looks _) rfl] at h ⊢
    generalize ts.dropWhile (·.kind = .newline) = us at h ⊢
    by_cases he : ends closes us
    · rw [if_pos he]
      exact he
    · rw [if_neg he] at h ⊢
      obtain ⟨_, _, hr⟩ | ⟨s?, _, hr⟩ := bind_cases (recover item)
        (fun s? => do return s?.toList ++ (← statements closes item n)) stop us
      · rw [hr] at h
        cases h
      · rw [hr] at h ⊢
        obtain ⟨_, _, hr'⟩ | ⟨ss', hss, hr'⟩ := bind_cases (statements closes item n)
          (fun ss => (pure (s?.toList ++ ss) : Parse _)) stop (recover item stop us).rest
        · rw [hr'] at h
          cases h
        · rw [hr']
          exact ih hss

theorem atEnd_of_ends {k : TokenKind} (h : ends (· = k) ts) (hn : NotNext k ts) : atEnd ts := by
  rwa [ends, hn.any_eq_false, Bool.or_false] at h

theorem onCourse_block {item : Parse Stmt} {n : Nat}
    (h : ∀ ts, OnCourse stop ts (statements (· = .symbol .rightBrace) item n stop ts)) :
    OnCourse stop ts (block item n stop ts) := by
  have hopen : OnCourse stop ts (expect .openBlock stop ts) := onCourse_expect nofun
  refine hopen.bind fun _ _ => (h _).bind fun ss hss => ?_
  -- The statements end at a brace or at the end of input.
  have hends := ends_of_statements hss
  refine (onCourse_expect fun _ hn => ?_).bind fun _ _ => onCourse_of_reads rfl (.refl _)
  exact atEnd_of_ends hends hn

/-- All readers of the grammar keep on a course. -/
theorem Composed.onCourse {α : Type} {x : Parse α} (h : Composed x) (stop : Token)
    (ts : List Token) : OnCourse stop ts (x stop ts) := by
  induction h generalizing ts with
  | pure a => exact onCourse_of_reads rfl (.refl ts)
  | bind _ _ ihx ihf => exact (ihx ts).bind fun a _ => ihf a _
  | exhausted => exact ⟨.skip (.refl ts), nofun⟩
  | current => exact onCourse_of_reads rfl (.refl ts)
  | looks _ => exact onCourse_of_reads rfl (.refl ts)
  | take? hf => exact onCourse_take? hf
  | require hw =>
    exact onCourse_require hw.kind_ne_eof hw.ne_target (fun _ => hw.fits) fun hf =>
      absurd hf hw.ne_closeBlock
  | skipNewlines => exact onCourse_of_reads rfl (past_dropWhile_newline ts)
  | recover _ ih => exact onCourse_recover (ih ts)
  | opening => exact onCourse_opening
  | unaryOps => exact onCourse_of_reads rfl (past_splitUnary ts)
  | assignTail _ lhs ih => exact onCourse_assignTail ih lhs
  | block _ ih => exact onCourse_block ih

theorem Composed.past {α : Type} {x : Parse α} (h : Composed x) (stop : Token) (ts : List Token) :
    Past ts (x stop ts).rest := (h.onCourse stop ts).course.past

/-- The reader does not go back. -/
def Forward (x : Parse α) : Prop := ∀ stop ts, (x stop ts).rest <:+ ts

theorem Composed.forward (h : Composed x) : Forward x := fun stop ts => (h.past stop ts).suffix

theorem Forward.bind (hx : Forward x) (hf : ∀ a, Forward (f a)) : Forward (x >>= f) := by
  intro stop ts
  obtain ⟨_, _, h⟩ | ⟨a, _, h⟩ := bind_cases x f stop ts
  · rw [h]
    exact hx stop ts
  · rw [h]
    exact (hf a stop _).trans (hx stop ts)

theorem forward_expect (e : Expectation) : Forward (expect e) := by
  intro stop ts
  obtain ⟨t, us, rfl, _, h⟩ | ⟨_, h⟩ := expect_cases e stop ts
  · rw [h]
    exact List.suffix_cons t us
  · simp only [h, List.suffix_rfl]

end Parse

end Scriptlet
