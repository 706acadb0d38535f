import Scriptlet.Proofs.Parse.StatementProgress

/-! Recovery from a faulty declaration goes on at the first place behind it at which reading can
start again. Such places are settled by the tokens alone. -/
namespace Scriptlet

/-- The words that open a declaration or a statement. -/
def Keyword.opening : List Keyword := [.fnKw, .letKw, .ifKw, .whileKw, .forKw, .returnKw]

private theorem TokenKind.startsDeclaration_iff {k : TokenKind} :
    k.startsDeclaration ↔ ∃ w ∈ Keyword.opening, k = .keyword w := by
  cases k with
  | keyword w => cases w <;> decide
  | _ => simp [startsDeclaration]

/-- Reading can start again at the index: behind a semicolon, before a word that opens a
declaration, at the first end of input, or behind all tokens if there is none. -/
def Restarts (tokens : List Token) (j : Nat) : Prop :=
  (0 < j ∧ ∃ t ∈ tokens[j - 1]?, t.kind = .symbol .semicolon) ∨
    (∃ t ∈ tokens[j]?, ∃ w ∈ Keyword.opening, t.kind = .keyword w) ∨
    j = tokens.findIdx (·.kind = .eof)

instance (tokens : List Token) (j : Nat) : Decidable (Restarts tokens j) :=
  inferInstanceAs (Decidable (_ ∨ _ ∨ _))

/-- The first index behind `i` at which reading can start again. -/
structure NextRestart (tokens : List Token) (i j : Nat) : Prop where
  lt : i < j
  restarts : Restarts tokens j
  least : ∀ m, i < m → Restarts tokens m → j ≤ m

namespace NextRestart

variable {tokens : List Token} {i j : Nat}

theorem succ (h : Restarts tokens (i + 1)) : NextRestart tokens i (i + 1) :=
  ⟨Nat.lt_succ_self i, h, fun _ hm _ => hm⟩

private theorem of_succ (h : NextRestart tokens (i + 1) j) (hi : ¬ Restarts tokens (i + 1)) :
    NextRestart tokens i j where
  lt := Nat.lt_of_succ_lt h.lt
  restarts := h.restarts
  least m hm hr := by
    obtain rfl | hlt := Nat.eq_or_lt_of_le hm
    · exact absurd hr hi
    · exact h.least m hlt hr

/-- No word that opens a declaration is passed over on the way. -/
theorem kind_ne (h : NextRestart tokens i j) {m : Nat} (hi : i < m) (hj : m < j) :
    ∀ t ∈ tokens[m]?, ∀ w ∈ Keyword.opening, t.kind ≠ .keyword w := by
  intro t ht w hw hk
  exact Nat.not_lt_of_le (h.least m hi (.inr (.inl ⟨t, ht, w, hw, hk⟩))) hj

end NextRestart

namespace Parser

variable {p q : Parser} {tokens us : List Token} {t : Token} {i k : Nat}

/-- Puts an error behind those that are recorded. -/
def record (p : Parser) (e : ParseError) : Parser := { p with errors := p.errors ++ [e] }

/-- Drops tokens up to the place where reading goes on after an error. -/
def synchronize (p : Parser) : Parser :=
  { p with index := p.tokens.length - (Parse.synchronize p.rest).length }

theorem StandsAt.record (h : p.StandsAt tokens i) (e : ParseError) :
    (p.record e).StandsAt tokens i := ⟨h.tokens_eq, h.index_eq, h.le_end⟩

/-- The next token is the one at the index. -/
theorem StandsAt.head?_rest (h : p.StandsAt tokens i) : p.rest.head? = tokens[i]? := by
  obtain ⟨rfl, rfl, _⟩ := h
  exact List.head?_drop

theorem StandsAt.atEnd_iff_kind (h : p.StandsAt tokens i) :
    Parse.atEnd p.rest ↔ ∀ t ∈ tokens[i]?, t.kind = .eof := by
  rw [Parse.atEnd, h.head?_rest, Option.all_eq_true]
  simp

/-- The parser behind the next token. -/
theorem StandsAt.succ (h : p.StandsAt tokens i) (hr : p.rest = t :: us) (ht : t.kind ≠ .eof) :
    StandsAt { p with index := i + 1 } tokens (i + 1) ∧
      rest { p with index := i + 1 } = us := by
  have hfind := h.findIdx_eq
  obtain ⟨rfl, rfl, _⟩ := h
  refine ⟨⟨rfl, rfl, ?_⟩, ?_⟩
  · rw [hfind, hr, List.findIdx_cons]
    simp [ht]
  · rw [rest, ← List.tail_drop]
    exact congrArg List.tail hr

/-- Whether reading can start again behind the next token, as seen from where the parser stands. -/
theorem StandsAt.restarts_succ (h : p.StandsAt tokens i) (hr : p.rest = t :: us)
    (ht : t.kind ≠ .eof) : Restarts tokens (i + 1) ↔
      t.kind = .symbol .semicolon ∨ us.head?.any (·.kind.startsDeclaration) ∨ Parse.atEnd us := by
  obtain ⟨hnext, hus⟩ := h.succ hr ht
  have hhead : tokens[i]? = some t := by rw [← h.head?_rest, hr, List.head?_cons]
  have hword : (∃ t ∈ tokens[i + 1]?, ∃ w ∈ Keyword.opening, t.kind = .keyword w) ↔
      us.head?.any (·.kind.startsDeclaration) := by
    rw [Option.any_eq_true, ← hus, hnext.head?_rest]
    exact exists_congr fun t' => and_congr Iff.rfl TokenKind.startsDeclaration_iff.symm
  rw [Restarts, hword, ← hnext.atEnd_iff, hus, Nat.add_sub_cancel, hhead]
  simp

/-- One turn of the loop: the next token is dropped, and it was the last one if reading can start
again behind it. -/
theorem StandsAt.synchronize_cons (h : p.StandsAt tokens i) (hr : p.rest = t :: us)
    (ht : t.kind ≠ .eof) : Parse.synchronize (t :: us) =
      if Restarts tokens (i + 1) then us else Parse.synchronize us := by
  rw [Parse.synchronize, if_neg ht]
  by_cases hstart : Restarts tokens (i + 1)
  · rw [if_pos hstart]
    obtain hsemi | hword | hend := (h.restarts_succ hr ht).1 hstart
    · simp [hsemi]
    · simp [hword]
    · split
      · rfl
      · exact (Parse.past_synchronize us).eq_of_atEnd hend
  · have hnot := mt (h.restarts_succ hr ht).2 hstart
    simp only [not_or] at hnot
    simp [hstart, hnot]

/-- The loop ends at the next index where reading can start again. -/
theorem StandsAt.synchronize (h : p.StandsAt tokens i) (hne : ¬ Parse.atEnd p.rest) :
    ∃ j, NextRestart tokens i j ∧ p.synchronize.StandsAt tokens j := by
  generalize hr : p.rest = ts at hne
  -- The start of the search moves with the loop, past an index where reading cannot start again.
  induction ts generalizing p i with
  | nil => exact absurd rfl hne
  | cons t us ih =>
    have ht : t.kind ≠ .eof := by simpa [Parse.atEnd] using hne
    obtain ⟨hnext, hus⟩ := h.succ hr ht
    have hstep := h.synchronize_cons hr ht
    by_cases hstart : Restarts tokens (i + 1)
    · rw [if_pos hstart] at hstep
      refine ⟨i + 1, .succ hstart, hnext.tokens_eq, ?_, hnext.le_end⟩
      have hlen : us.length = p.tokens.length - (i + 1) := by
        rw [← hus]
        exact List.length_drop
      have hle : i + 1 ≤ p.tokens.length := by
        rw [h.tokens_eq]
        exact Nat.le_trans hnext.le_end List.findIdx_le_length
      rw [Parser.synchronize, hr, hstep]
      dsimp only
      omega
    · rw [if_neg hstart] at hstep
      have hus' : ¬ Parse.atEnd us := fun hend =>
        hstart ((h.restarts_succ hr ht).2 (.inr (.inr hend)))
      obtain ⟨j, hj, hs⟩ := ih hnext hus hus'
      refine ⟨j, hj.of_succ hstart, ?_⟩
      rw [Parser.synchronize, hus] at hs
      rw [Parser.synchronize, hr, hstep]
      exact ⟨hs.tokens_eq, hs.index_eq, hs.le_end⟩

/-- Recovery leaves the end of input where it is. -/
theorem StandsAt.synchronize_end (h : p.StandsAt tokens i) (he : Parse.atEnd p.rest) :
    p.synchronize.StandsAt tokens i := by
  have hlen : p.rest.length = p.tokens.length - p.index := List.length_drop
  obtain ⟨rfl, rfl, hle⟩ := h
  have hend : p.tokens.findIdx (·.kind = .eof) ≤ p.tokens.length := List.findIdx_le_length
  rw [Parser.synchronize, (Parse.past_synchronize p.rest).eq_of_atEnd he]
  refine ⟨rfl, ?_, hle⟩
  dsimp only
  omega

variable {α : Type} {x : Parse α} {e : ParseError}

/-- A reader that fails is left where it stopped, and recovery goes on from there. -/
theorem step_recover (hx : Parse.Composed x) (h : p.step x = (.error (.fault e), q)) :
    p.step (Parse.recover x) = (.ok none, (q.record e).synchronize) := by
  have hresult : (x p.stop p.rest).result = .error (.fault e) := congrArg Prod.fst h
  obtain rfl : (p.step x).2 = q := congrArg Prod.snd h
  have hrest : (p.step x).2.rest = (x p.stop p.rest).rest :=
    rest_step (hx.past p.stop p.rest).suffix
  have hrecover : Parse.recover x p.stop p.rest = ⟨.ok none, (x p.stop p.rest).errors ++ [e],
      Parse.synchronize (x p.stop p.rest).rest⟩ := by
    obtain ⟨_, ha, _⟩ | ⟨e', he, hr⟩ | ⟨hex, _⟩ := Parse.recover_cases x p.stop p.rest
    · cases ha.symm.trans hresult
    · cases he.symm.trans hresult
      exact hr
    · cases hex.symm.trans hresult
  have hsync : ((p.step x).2.record e).synchronize = ⟨p.tokens,
      p.tokens.length - (Parse.synchronize (x p.stop p.rest).rest).length,
      p.errors ++ (x p.stop p.rest).errors ++ [e]⟩ := by
    rw [← hrest]
    rfl
  rw [hsync, step, hrecover, List.append_assoc]

/-- A reader that fails stops no earlier than it starts, in front of the token that its error is
about. -/
theorem StandsAt.fails (h : p.StandsAt tokens k) (hx : Parse.Composed x)
    (hf : p.step x = (.error (.fault e), q)) : ∃ i, k ≤ i ∧ q.StandsAt tokens i ∧
      e = .atToken .expectedExpression (tokens[i]?.getD p.stop) := by
  have hresult : (x p.stop p.rest).result = .error (.fault e) := congrArg Prod.fst hf
  have hpast := hx.past p.stop p.rest
  have he := (hx.onCourse p.stop p.rest).fails e hresult
  have hq := h.step hpast
  rw [← rest_step hpast.suffix, List.headD_eq_head?_getD, hq.head?_rest] at he
  obtain rfl : (p.step x).2 = q := congrArg Prod.snd hf
  exact ⟨_, Nat.le_add_right k _, hq, he⟩

end Parser

open Parse in
/-- Recovery goes on at a settled place. From a token that is not the end of input, it drops tokens
up to the first index behind it at which reading can start again, and records nothing. A declaration
that fails has an error at the token where it stopped; this error is put behind those recorded
before, and reading goes on at the first such index behind that token, so that no word that opens a
declaration is lost between the two. At the end of input nothing is dropped. The bound `n` of the
declaration does not matter. -/
theorem recover_resumes {tokens : List Token} {p : Parser} {k : Nat} (hp : p.StandsAt tokens k) :
    (∀ t ∈ tokens[k]?, t.kind ≠ .eof → ∃ j, NextRestart tokens k j ∧
      p.synchronize.StandsAt tokens j ∧ p.synchronize.errors = p.errors) ∧
    ∀ n e q, p.step (declarationWithin n) = (.error (.fault e), q) →
      ∃ i j, k ≤ i ∧ q.StandsAt tokens i ∧
        p.step (recover (declarationWithin n)) = (.ok none, (q.record e).synchronize) ∧
        (q.record e).synchronize.StandsAt tokens j ∧
        (q.record e).synchronize.errors = q.errors ++ [e] ∧
        (∀ t ∈ tokens[i]?, t.kind ≠ .eof →
          e = .atToken .expectedExpression t ∧ NextRestart tokens i j) ∧
        ((∀ t ∈ tokens[i]?, t.kind = .eof) →
          e = .atToken .expectedExpression (tokens[i]?.getD p.stop) ∧ j = i) ∧
        ∀ m, i < m → m < j → ∀ t ∈ tokens[m]?, ∀ w ∈ Keyword.opening, t.kind ≠ .keyword w := by
  refine ⟨fun t ht hne => ?_, fun n e q hf => ?_⟩
  · have hleft : ¬ atEnd p.rest := fun hend => hne (hp.atEnd_iff_kind.1 hend t ht)
    obtain ⟨j, hj, hs⟩ := hp.synchronize hleft
    exact ⟨j, hj, hs, rfl⟩
  · have hc := (composed_within n).2
    obtain ⟨i, hki, hq, he⟩ := hp.fails hc hf
    have hrecover := Parser.step_recover hc hf
    have hrecord := hq.record e
    by_cases hleft : atEnd q.rest
    · have hend := hq.atEnd_iff_kind.1 hleft
      refine ⟨i, i, hki, hq, hrecover, hrecord.synchronize_end hleft, rfl, ?_, ?_, ?_⟩
      · exact fun t ht hne => absurd (hend t ht) hne
      · exact fun _ => ⟨he, rfl⟩
      · exact fun m him hmi => absurd him (Nat.lt_asymm hmi)
    · obtain ⟨j, hj, hs⟩ := hrecord.synchronize hleft
      refine ⟨i, j, hki, hq, hrecover, hs, rfl, ?_, ?_, fun m => hj.kind_ne⟩
      · intro t ht _
        rw [Option.mem_def.1 ht] at he
        exact ⟨he, hj⟩
      · exact fun hend => absurd (hq.atEnd_iff_kind.2 hend) hleft

/-- `x + fn ( let ;`, where a word that opens a declaration stands in place of an operand. -/
def operandTokens : List Token :=
  [⟨.identifier, "x", none, ⟨0, 1⟩, ⟨1, 1⟩⟩, ⟨.symbol .plus, "+", none, ⟨2, 1⟩, ⟨1, 3⟩⟩,
    ⟨.keyword .fnKw, "fn", none, ⟨4, 2⟩, ⟨1, 5⟩⟩,
    ⟨.symbol .leftParen, "(", none, ⟨7, 1⟩, ⟨1, 8⟩⟩,
    ⟨.keyword .letKw, "let", none, ⟨9, 3⟩, ⟨1, 10⟩⟩,
    ⟨.symbol .semicolon, ";", none, ⟨13, 1⟩, ⟨1, 14⟩⟩, ⟨.eof, "", none, ⟨14, 0⟩, ⟨1, 15⟩⟩]

/-- The expression fails at the first of the two words, which is dropped, and reading goes on at the
second one. From the name at the front, recovery would get to the first. -/
theorem recover_resumes_operandTokens :
    let p := Parser.ofTokens operandTokens
    let e : ParseError := ⟨.expectedExpression, ⟨4, 2⟩, ⟨1, 5⟩, "fn"⟩
    p.StandsAt operandTokens 0 ∧
      p.step (Parse.declarationWithin 8) = (.error (.fault e), ⟨operandTokens, 2, []⟩) ∧
      p.step (Parse.recover (Parse.declarationWithin 8)) =
        (.ok none, ⟨operandTokens, 4, [e]⟩) ∧
      NextRestart operandTokens 0 2 ∧ NextRestart operandTokens 2 4 := by
  intro p e
  have hp : p.StandsAt operandTokens 0 := Parser.standsAt_ofTokens operandTokens
  have hf : p.step (Parse.declarationWithin 8) =
      (.error (.fault e), ⟨operandTokens, 2, []⟩) := rfl
  obtain ⟨hsync, hrecover⟩ := recover_resumes hp
  obtain ⟨j₀, hnext₀, hs₀, _⟩ := hsync _ rfl (by decide)
  obtain ⟨i, j, _, hq, hr, hs, _, hnext, _⟩ := hrecover 8 e _ hf
  obtain rfl : 2 = j₀ := hs₀.index_eq
  obtain rfl : 2 = i := hq.index_eq
  obtain rfl : 4 = j := hs.index_eq
  exact ⟨hp, hf, hr, hnext₀, (hnext _ rfl (by decide)).2⟩

end Scriptlet
