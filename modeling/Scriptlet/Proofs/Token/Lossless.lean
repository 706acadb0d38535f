import Mathlib.Data.List.TakeWhile
import Scriptlet.Proofs.Token.Reading

/-! The tokens of a text, with the blanks and comments before them, make up the text. -/
namespace Scriptlet

/-- A text that no token covers, where `rest` follows. -/
inductive Gap : List Char → List Char → Prop where
  | nil (rest : List Char) : Gap [] rest
  | blank {c : Char} {g rest : List Char} (hc : c = ' ' ∨ c = '\t' ∨ c = '\r') (h : Gap g rest) :
    Gap (c :: g) rest
  /-- A line comment goes up to a newline or to the end of the text. -/
  | lineComment {body g rest : List Char} (hb : '\n' ∉ body)
      (hr : ∀ c ∈ (g ++ rest).head?, c = '\n') (h : Gap g rest) :
    Gap ('/' :: '/' :: body ++ g) rest
  /-- A block comment goes up to the first closing mark. -/
  | blockComment {body g rest : List Char} (hb : ¬ ['*', '/'] <:+: body ++ ['*']) (h : Gap g rest) :
    Gap ('/' :: '*' :: body ++ '*' :: '/' :: g) rest
  /-- Without a closing mark it goes up to the end of the text. -/
  | unclosed {body : List Char} (hb : ¬ ['*', '/'] <:+: body) : Gap ('/' :: '*' :: body) []

namespace Gap

variable {g rest cs : List Char}

theorem blanks {bs : List Char} (hb : ∀ c ∈ bs, Scan.isBlank c) (h : Gap g rest) :
    Gap (bs ++ g) rest := by
  induction bs with
  | nil => exact h
  | cons b bs ih =>
    rw [List.forall_mem_cons] at hb
    have hc : b = ' ' ∨ b = '\t' ∨ b = '\r' := by simpa [Scan.isBlank, or_assoc] using hb.1
    exact .blank hc (ih hb.2)

theorem comment (hk : (Scan.lexeme cs).reading.kind = .comment)
    (hr : (Scan.lexeme cs).rest = g ++ rest) (h : Gap g rest) :
    Gap ((Scan.lexeme cs).text ++ g) rest := by
  obtain ⟨ds, rfl | rfl⟩ := Scan.comment_cases hk
  · have hd : ds.dropWhile (· ≠ '\n') = g ++ rest := hr
    change Gap ('/' :: '/' :: ds.takeWhile (· ≠ '\n') ++ g) rest
    refine .lineComment ?_ ?_ h
    · intro hmem
      simpa using List.mem_takeWhile_imp hmem
    · intro c hc
      have hp := List.head?_dropWhile_not (· ≠ '\n') ds
      rw [hd, hc] at hp
      simpa using hp
  · have hd : (Scan.blockComment ds).rest = g ++ rest := hr
    change Gap ('/' :: '*' :: (Scan.blockComment ds).text ++ g) rest
    rcases Scan.blockComment_cases ds with ⟨body, hbody, hb⟩ | ⟨hbody, hb⟩
    · rw [hbody]
      simpa using Gap.blockComment hb h
    · have happ := Scan.blockComment_append ds
      rw [hbody, List.append_right_eq_self] at happ
      obtain ⟨rfl, rfl⟩ := List.append_eq_nil_iff.1 (hd.symm.trans happ)
      rw [hbody, List.append_nil]
      exact .unclosed hb

end Gap

/-- A token and the gap before it. -/
structure Piece where
  gap : String
  token : Token

namespace Piece

def text (p : Piece) : String := p.gap ++ p.token.lexeme

/-- The texts of pieces one behind the other. -/
def join : List Piece → String
  | [] => ""
  | p :: ps => p.text ++ join ps

end Piece

/-- The pieces stand one behind the other from the offset on, with nothing but gaps between their
tokens, and `tail` stands behind the last one. -/
inductive Tiled (tail : String) : Nat → List Piece → Prop where
  | nil (n : Nat) : Tiled tail n []
  | cons {n : Nat} {p : Piece} {ps : List Piece}
      (hs : p.token.span = ⟨n + p.gap.utf8ByteSize, p.token.lexeme.utf8ByteSize⟩)
      (hg : Gap p.gap.toList (p.token.lexeme ++ Piece.join ps ++ tail).toList)
      (h : Tiled tail (n + p.text.utf8ByteSize) ps) :
    Tiled tail n (p :: ps)

/-- The bytes of the middle one of three texts. -/
theorem extract_toUTF8 (s t u : String) :
    (s ++ t ++ u).toUTF8.extract s.utf8ByteSize (s.utf8ByteSize + t.utf8ByteSize) = t.toUTF8 := by
  have ht : (s ++ t).toUTF8.extract s.utf8ByteSize (s.utf8ByteSize + t.utf8ByteSize) =
      t.toUTF8 := by
    rw [String.toUTF8, String.toByteArray_append]
    exact ByteArray.extract_append_eq_right rfl rfl
  rw [String.toUTF8] at ht ⊢
  rw [String.toByteArray_append, ByteArray.extract_append, ht]
  simp

namespace Tiled

variable {tail before : String} {n : Nat} {p : Piece} {ps : List Piece}

theorem le_start (h : Tiled tail n ps) : ∀ p ∈ ps, n ≤ p.token.span.start := by
  induction h with
  | nil => simp
  | @cons n p ps hs _ _ ih =>
    intro q hq
    rcases List.mem_cons.1 hq with rfl | hq
    · rw [hs]
      exact Nat.le_add_right _ _
    · exact Nat.le_trans (Nat.le_add_right _ _) (ih q hq)

theorem length_span (h : Tiled tail n ps) :
    ∀ p ∈ ps, p.token.span.length = p.token.lexeme.utf8ByteSize := by
  induction h with
  | nil => simp
  | cons hs _ _ ih => exact List.forall_mem_cons.2 ⟨by rw [hs], ih⟩

theorem pairwise (h : Tiled tail n ps) :
    ps.Pairwise fun p q => p.token.span.stop ≤ q.token.span.start := by
  induction h with
  | nil => exact .nil
  | @cons n p ps hs _ h ih =>
    refine .cons (fun q hq => ?_) ih
    have hle := h.le_start q hq
    rw [Piece.text, String.utf8ByteSize_append] at hle
    simp only [hs, Span.stop]
    omega

/-- A token has the bytes of its span. -/
theorem extract (h : Tiled tail n ps) (hn : before.utf8ByteSize = n) :
    ∀ p ∈ ps, (before ++ Piece.join ps ++ tail).toUTF8.extract p.token.span.start
      p.token.span.stop = p.token.lexeme.toUTF8 := by
  induction h generalizing before with
  | nil => simp
  | @cons n p ps hs _ h ih =>
    intro q hq
    rcases List.mem_cons.1 hq with rfl | hq
    · have hm := extract_toUTF8 (before ++ q.gap) q.token.lexeme (Piece.join ps ++ tail)
      simpa [hs, Span.stop, hn, Piece.join, Piece.text, String.append_assoc] using hm
    · have hb : (before ++ p.text).utf8ByteSize = n + p.text.utf8ByteSize := by simp [hn]
      simpa [Piece.join, String.append_assoc] using ih hb q hq

/-- The last token ends where the pieces end. -/
theorem stop_last (h : Tiled tail n (ps ++ [p])) :
    p.token.span.stop = n + (Piece.join (ps ++ [p])).utf8ByteSize := by
  induction ps generalizing n with
  | nil =>
    obtain _ | ⟨hs, _, _⟩ := h
    simp [hs, Span.stop, Piece.join, Piece.text, Nat.add_assoc]
  | cons q ps ih =>
    obtain _ | ⟨_, _, h⟩ := h
    simp [ih h, Piece.join, Nat.add_assoc]

/-- More text that no token covers makes the first gap longer. -/
theorem prepend {g : String} (h : Tiled tail (n + g.utf8ByteSize) (p :: ps))
    (hg : Gap (g ++ p.gap).toList (p.token.lexeme ++ Piece.join ps ++ tail).toList) :
    Tiled tail n (⟨g ++ p.gap, p.token⟩ :: ps) := by
  obtain _ | ⟨hs, _, h⟩ := h
  refine .cons ?_ hg ?_
  · simp [hs, Nat.add_assoc]
  · simpa [Piece.text, Nat.add_assoc] using h

end Tiled

theorem Span.between_add {n k : Nat} (h : n + k ≤ limit) : between n (n + k) = ⟨n, k⟩ := by
  simp only [between, limit, Span.mk.injEq] at h ⊢
  omega

theorem Location.offset_after (l : Location) (cs : List Char) :
    (l.after cs).offset = l.offset + (String.ofList cs).utf8ByteSize := by
  induction cs generalizing l with
  | nil => simp [after]
  | cons c cs ih =>
    have hl : l.after (c :: cs) = (l.advance c).after cs := rfl
    rw [hl, ih]
    simp [advance, String.ofList_cons, Nat.add_assoc]

namespace Lexer

/-- The text that is left. -/
def text (l : Lexer) : String := String.ofList l.rest

/-- The blanks before the next token. -/
def blanks (l : Lexer) : String := String.ofList (l.rest.takeWhile Scan.isBlank)

/-- The text that is left fits into spans. -/
def Fits (l : Lexer) : Prop := l.location.offset + l.text.utf8ByteSize ≤ Span.limit

variable (l : Lexer)

theorem text_eq : l.text = l.blanks ++ l.next.1.lexeme ++ l.next.2.text := by
  have hx := Scan.lexeme_append (l.rest.dropWhile Scan.isBlank)
  have hl : l.rest.takeWhile Scan.isBlank ++ l.rest.dropWhile Scan.isBlank = l.rest :=
    List.takeWhile_append_dropWhile
  rw [← hx, ← List.append_assoc] at hl
  simp only [text, blanks, next, ← String.ofList_append, hl]

theorem offset_next :
    l.next.2.location.offset =
      l.location.offset + l.blanks.utf8ByteSize + l.next.1.lexeme.utf8ByteSize := by
  simp [next, blanks, Location.offset_after]

variable {l}

theorem Fits.next (h : l.Fits) : l.next.2.Fits := by
  unfold Fits at h ⊢
  rw [text_eq] at h
  rw [offset_next]
  simp only [String.utf8ByteSize_append] at h
  omega

theorem Fits.span_next (h : l.Fits) :
    l.next.1.span = ⟨l.location.offset + l.blanks.utf8ByteSize, l.next.1.lexeme.utf8ByteSize⟩ := by
  have hs : l.next.1.span = Span.between (l.location.offset + l.blanks.utf8ByteSize)
      (l.location.offset + l.blanks.utf8ByteSize + l.next.1.lexeme.utf8ByteSize) := by
    simp only [Lexer.next, blanks, Location.offset_after]
  unfold Fits at h
  rw [text_eq] at h
  simp only [String.utf8ByteSize_append] at h
  rw [hs, Span.between_add (by omega)]

theorem Fits.span_endToken (h : l.Fits) : l.endToken.span = ⟨l.location.offset, 0⟩ := by
  have hle : l.location.offset + 0 ≤ Span.limit := Nat.le_trans (by omega) h
  exact Span.between_add hle

theorem lexeme_of_eof (h : l.next.1.kind = .eof) : l.next.1.lexeme = "" ∧ l.next.2.text = "" := by
  have hn : l.rest.dropWhile Scan.isBlank = [] := Scan.eq_nil_of_eof h
  simp [next, text, hn, Scan.lexeme]

theorem lexeme_ne_empty (h : l.next.1.kind ≠ .eof) : l.next.1.lexeme ≠ "" := by
  have hne : l.rest.dropWhile Scan.isBlank ≠ [] := by
    intro hn
    simp [next, hn, Scan.lexeme, Reading.plain] at h
  simpa [next] using Scan.lexeme_text_ne_nil hne

theorem gap_blanks {g rest : List Char} (h : Gap g rest) : Gap (l.blanks.toList ++ g) rest := by
  rw [blanks, String.toList_ofList]
  exact .blanks (fun _ => List.mem_takeWhile_imp) h

/-- A comment and the blanks before it belong to the gap before the next token. -/
theorem gap_comment {g rest : String} (hk : l.next.1.kind = .comment)
    (hr : l.next.2.text = g ++ rest) (h : Gap g.toList rest.toList) :
    Gap (l.blanks ++ l.next.1.lexeme ++ g).toList rest.toList := by
  have hc : Gap ((Scan.lexeme (l.rest.dropWhile Scan.isBlank)).text ++ g.toList) rest.toList := by
    refine .comment hk ?_ h
    rw [← String.toList_append, ← hr, text, String.toList_ofList]
    rfl
  simpa [next] using gap_blanks hc

/-- The end of input is the last token, and the only one without a text. -/
theorem tokenize_eof (l : Lexer) :
    ∃ ts eof, l.tokenize.1 = ts ++ [eof] ∧ eof.kind = .eof ∧ eof.lexeme = "" ∧
      ∀ t ∈ ts, t.kind ≠ .eof ∧ t.lexeme ≠ "" := by
  fun_induction tokenize l with
  | case1 l he => exact ⟨[], l.next.1, rfl, he, (lexeme_of_eof he).1, by simp⟩
  | case2 l he her =>
    refine ⟨[l.next.1], l.next.2.endToken, rfl, rfl, rfl, ?_⟩
    simpa using ⟨he, lexeme_ne_empty he⟩
  | case3 l he her r ih =>
    obtain ⟨ts, eof, hts, hk, hx, hne⟩ := ih
    split
    · exact ⟨ts, eof, hts, hk, hx, hne⟩
    · refine ⟨l.next.1 :: ts, eof, by simp [r, hts], hk, hx, ?_⟩
      simpa using ⟨⟨he, lexeme_ne_empty he⟩, hne⟩

/-- A token that is kept makes a piece with the blanks before it. -/
theorem Fits.tiled_next (h : l.Fits) {ps : List Piece} {tail : String}
    (ht : Tiled tail l.next.2.location.offset ps) :
    Tiled tail l.location.offset (⟨l.blanks, l.next.1⟩ :: ps) := by
  refine .cons h.span_next ?_ ?_
  · simpa using gap_blanks (.nil _)
  · rw [Piece.text, String.utf8ByteSize_append, ← Nat.add_assoc, ← offset_next]
    exact ht

/-- The text is tiled by the tokens and the gaps before them, up to an error at most. -/
theorem tokenize_tiled (l : Lexer) (h : l.Fits) :
    ∃ ps tail, l.tokenize.1 = ps.map Piece.token ∧ l.text = Piece.join ps ++ tail ∧
      Tiled tail l.location.offset ps ∧ ((∀ t ∈ l.tokenize.1, t.kind ≠ .error) → tail = "") := by
  fun_induction tokenize l with
  | case1 l he =>
    refine ⟨[⟨l.blanks, l.next.1⟩], "", rfl, ?_, h.tiled_next (.nil _), fun _ => rfl⟩
    simp [Piece.join, Piece.text, l.text_eq, lexeme_of_eof he]
  | case2 l he her =>
    refine ⟨[⟨l.blanks, l.next.1⟩, ⟨"", l.next.2.endToken⟩], l.next.2.text, rfl, ?_,
      h.tiled_next (.cons ?_ (.nil _) (.nil _)), fun hne => absurd her (hne _ (.head _))⟩
    · simp [Piece.join, Piece.text, endToken, l.text_eq]
    · simpa [endToken] using h.next.span_endToken
  | case3 l he her r ih =>
    obtain ⟨ps, tail, hps, htext, htiled, htail⟩ := ih h.next
    split
    · rename_i hk
      -- A comment goes into the gap of the next piece, that of the end of input at the latest.
      match ps, hps with
      | [], hps =>
        obtain ⟨ts, eof, hts, _⟩ := l.next.2.tokenize_eof
        simp [hts] at hps
      | p :: ps, hps =>
        obtain _ | ⟨hs, hg, hrest⟩ := htiled
        refine ⟨⟨l.blanks ++ l.next.1.lexeme ++ p.gap, p.token⟩ :: ps, tail, hps, ?_, ?_, htail⟩
        · simp [l.text_eq, htext, Piece.join, Piece.text, String.append_assoc]
        · have hr : l.next.2.text = p.gap ++ (p.token.lexeme ++ Piece.join ps ++ tail) := by
            simp [htext, Piece.join, Piece.text, String.append_assoc]
          refine Tiled.prepend ?_ (gap_comment hk hr hg)
          rw [String.utf8ByteSize_append, ← Nat.add_assoc, ← offset_next]
          exact .cons hs hg hrest
    · refine ⟨⟨l.blanks, l.next.1⟩ :: ps, tail, by simp [r, hps], ?_, h.tiled_next htiled, ?_⟩
      · simp [l.text_eq, htext, Piece.join, Piece.text, String.append_assoc]
      · exact fun hne => htail fun t ht => hne t (.tail _ ht)

end Lexer

/-- Tokens that have a text, and one behind them that may have none, stand in strict order. -/
theorem Tiled.pairwise_start {tail : String} {n : Nat} {ps : List Piece} {eof : Piece}
    (h : Tiled tail n (ps ++ [eof])) (hne : ∀ p ∈ ps, p.token.lexeme ≠ "") :
    (ps ++ [eof]).Pairwise fun p q =>
      p.token.span.start < q.token.span.start ∧ p.token.span.stop ≤ q.token.span.start := by
  have hlt (p : Piece) (hp : p ∈ ps) : p.token.span.start < p.token.span.stop := by
    have hlen := h.length_span p (List.mem_append_left _ hp)
    have hpos : p.token.lexeme.utf8ByteSize ≠ 0 := by simpa using hne p hp
    rw [Span.stop]
    omega
  obtain ⟨hps, -, hlast⟩ := List.pairwise_append.1 h.pairwise
  refine List.pairwise_append.2 ⟨?_, List.pairwise_singleton _ _, fun p hp q hq => ?_⟩
  · exact hps.imp_of_mem fun hp _ hle => ⟨Nat.lt_of_lt_of_le (hlt _ hp) hle, hle⟩
  · exact ⟨Nat.lt_of_lt_of_le (hlt p hp) (hlast p hp q hq), hlast p hp q hq⟩

/-- The tokens of a text have spans one behind the other and the bytes of their spans as lexemes.
The gaps before them are blanks and comments, and with these they make up the text up to the end of
input, which is the end of the text if there is no error. -/
theorem tokenize_lossless (source : String) (h : source.utf8ByteSize ≤ Span.limit) :
    ((tokenize source).1.Pairwise fun t u =>
      t.span.start < u.span.start ∧ t.span.stop ≤ u.span.start) ∧
    (∀ t ∈ (tokenize source).1,
      source.toUTF8.extract t.span.start t.span.stop = t.lexeme.toUTF8) ∧
    ∃ ps eof tail, (tokenize source).1 = (ps ++ [eof]).map Piece.token ∧
      eof.token.kind = .eof ∧ (∀ p ∈ ps, p.token.kind ≠ .eof) ∧
      Tiled tail 0 (ps ++ [eof]) ∧ source = Piece.join (ps ++ [eof]) ++ tail ∧
      (Piece.join (ps ++ [eof])).utf8ByteSize = eof.token.span.start ∧
      ((∀ t ∈ (tokenize source).1, t.kind ≠ .error) →
        eof.token.span.start = source.utf8ByteSize) := by
  let l := Lexer.ofString source
  have htext : l.text = source := String.ofList_toList
  have hfits : l.Fits := by
    change 0 + l.text.utf8ByteSize ≤ Span.limit
    rwa [htext, Nat.zero_add]
  obtain ⟨qs, tail, hqs, hsource, htiled, htail⟩ := l.tokenize_tiled hfits
  obtain ⟨ts, t, hts, hk, hx, hne⟩ := l.tokenize_eof
  rw [hqs] at hts
  obtain ⟨ps, us, rfl, rfl, hus⟩ := List.map_eq_append_iff.1 hts
  obtain ⟨eof, rfl, rfl⟩ := List.map_eq_singleton_iff.1 hus
  have hlast : (Piece.join (ps ++ [eof])).utf8ByteSize = eof.token.span.start := by
    have hstop := htiled.stop_last
    have hlen := htiled.length_span eof (by simp)
    rw [hx, String.utf8ByteSize_empty] at hlen
    rw [Span.stop, hlen, Nat.add_zero] at hstop
    exact (hstop.trans (Nat.zero_add _)).symm
  rw [htext] at hsource
  change l.tokenize.1.Pairwise _ ∧ (∀ t ∈ l.tokenize.1, _) ∧ _
  rw [hqs]
  refine ⟨?_, ?_, ps, eof, tail, hqs, hk, ?_, htiled, hsource, hlast, fun hnone => ?_⟩
  · have hstrict := htiled.pairwise_start fun p hp => (hne _ (List.mem_map_of_mem hp)).2
    exact List.pairwise_map.2 hstrict
  · intro t ht
    obtain ⟨p, hp, rfl⟩ := List.mem_map.1 ht
    have hstart : ("" : String).utf8ByteSize = l.location.offset := rfl
    simpa [hsource] using htiled.extract hstart p hp
  · exact fun p hp => (hne _ (List.mem_map_of_mem hp)).1
  · rw [← hlast, hsource, htail hnone, String.append_empty]

/-- Two comments, the second one not closed, and letters of two bytes in a string. -/
theorem tokenize_lossless_comments :
    let source := "x // a\n\"éé\" /* b"
    source.utf8ByteSize ≤ Span.limit ∧
    (((tokenize source).1.map fun t => (t.span, t.lexeme)) =
      [(⟨0, 1⟩, "x"), (⟨6, 1⟩, "\n"), (⟨7, 6⟩, "\"éé\""), (⟨18, 0⟩, "")]) ∧
    ∀ t ∈ (tokenize source).1,
      source.toUTF8.extract t.span.start t.span.stop = t.lexeme.toUTF8 := by
  intro source
  have h : source.utf8ByteSize ≤ Span.limit := by decide
  refine ⟨h, ?_, (tokenize_lossless source h).2.1⟩
  decide +kernel

end Scriptlet
