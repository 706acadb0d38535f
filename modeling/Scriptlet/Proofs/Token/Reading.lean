import Scriptlet.Token.Lexer

/-! What a lexeme is read as, how far it reaches, and what a lexer does with it. -/
namespace Scriptlet

/-- Neither the end of input nor a newline nor a comment. -/
def TokenKind.Proper (k : TokenKind) : Prop := k ≠ .eof ∧ k ≠ .newline ∧ k ≠ .comment

namespace Scan

theorem string_proper (cs : List Char) : (string cs).reading.kind.Proper := by
  unfold string
  split <;> simp [readString, Reading.faulty, TokenKind.Proper]

theorem readInteger_proper (cs : List Char) : (readInteger cs).kind.Proper := by
  unfold readInteger
  split <;> simp [Reading.integer, Reading.faulty, TokenKind.Proper]

theorem number_proper (cs : List Char) : (number cs).reading.kind.Proper := by
  unfold number
  split
  · split
    · simp [readFloat, Reading.float, TokenKind.Proper]
    · exact readInteger_proper _
  · exact readInteger_proper _

theorem readWord_proper (w : List Char) : (readWord w).kind.Proper := by
  unfold readWord
  split
  · simp [Reading.bool, TokenKind.Proper]
  · split
    · simp [Reading.bool, TokenKind.Proper]
    · split <;> simp [Reading.plain, TokenKind.Proper]

theorem readDirective_proper (w : List Char) : (readDirective w).kind.Proper := by
  unfold readDirective
  split <;> simp [Reading.plain, Reading.faulty, TokenKind.Proper]

theorem tag_proper (cs : List Char) : (tag cs).reading.kind.Proper := by
  unfold tag
  split <;> simp [behind, run, Reading.plain, TokenKind.Proper]

theorem symbol_proper (c : Char) (cs : List Char) : (symbol c cs).reading.kind.Proper := by
  unfold symbol
  split <;> simp [Reading.plain, Reading.faulty, TokenKind.Proper]

theorem blockComment_reading (cs : List Char) : (blockComment cs).reading = .plain .comment := by
  fun_induction blockComment cs with
  | case1 => rfl
  | case2 => rfl
  | case3 c cs _ ih => exact ih

/-- How a text can begin: with one of the lexemes that are not proper, or with a proper one. -/
inductive Opening : List Char → Prop where
  | done : Opening []
  | newline (cs : List Char) : Opening ('\n' :: cs)
  | lineComment (cs : List Char) : Opening ('/' :: '/' :: cs)
  | blockComment (cs : List Char) : Opening ('/' :: '*' :: cs)
  | proper {cs : List Char} (h : (lexeme cs).reading.kind.Proper) : Opening cs

theorem opening (cs : List Char) : Opening cs := by
  have hproper := @Opening.proper cs
  unfold lexeme at hproper
  split at hproper
  · exact .done
  · exact .newline _
  · exact hproper (string_proper _)
  · exact hproper (readDirective_proper _)
  · exact hproper (tag_proper _)
  · exact .lineComment _
  · exact .blockComment _
  · apply hproper
    split
    · exact number_proper _
    · split
      · exact readWord_proper _
      · exact symbol_proper _ _

/-- Only the end of the text is read as the end of input. -/
theorem eq_nil_of_eof {cs : List Char} (h : (lexeme cs).reading.kind = .eof) : cs = [] := by
  cases opening cs with
  | done => rfl
  | newline ds => cases h
  | lineComment ds => cases h
  | blockComment ds =>
    have hk : (blockComment ds).reading.kind = .eof := h
    rw [blockComment_reading] at hk
    cases hk
  | proper hp => exact absurd h hp.1

/-- Only two slashes, or a slash and a star, begin a comment. -/
theorem comment_cases {cs : List Char} (h : (lexeme cs).reading.kind = .comment) :
    ∃ ds, cs = '/' :: '/' :: ds ∨ cs = '/' :: '*' :: ds := by
  cases opening cs with
  | done => cases h
  | newline ds => cases h
  | lineComment ds => exact ⟨ds, .inl rfl⟩
  | blockComment ds => exact ⟨ds, .inr rfl⟩
  | proper hp => exact absurd h hp.2.2

theorem not_close_infix_cons {c : Char} {cs : List Char} (h : ¬ ['*', '/'] <:+: cs)
    (hc : ∀ ds, c = '*' → cs ≠ '/' :: ds) : ¬ ['*', '/'] <:+: c :: cs := by
  rw [List.infix_cons_iff, List.cons_prefix_cons]
  rintro (⟨rfl, ds, hd⟩ | hi)
  · exact hc ds rfl hd.symm
  · exact h hi

/-- A block comment ends with the first closing mark behind its opening. Without one it is the whole
text. -/
theorem blockComment_cases (cs : List Char) :
    (∃ body, (blockComment cs).text = body ++ ['*', '/'] ∧ ¬ ['*', '/'] <:+: body ++ ['*']) ∨
      (blockComment cs).text = cs ∧ ¬ ['*', '/'] <:+: cs := by
  fun_induction blockComment cs with
  | case1 => exact .inr ⟨rfl, by decide⟩
  | case2 cs => exact .inl ⟨[], rfl, by decide⟩
  | case3 c cs hne ih =>
    have happ := blockComment_append cs
    rcases ih with ⟨body, ht, hb⟩ | ⟨ht, hb⟩
    · refine .inl ⟨c :: body, congrArg (c :: ·) ht, not_close_infix_cons hb fun ds hc hd => ?_⟩
      have hcs : cs = (body ++ ['*']) ++ '/' :: (blockComment cs).rest := by
        simpa [ht] using happ.symm
      exact hne (ds ++ '/' :: (blockComment cs).rest) hc (hcs.trans (congrArg (· ++ _) hd))
    · exact .inr ⟨congrArg (c :: ·) ht, not_close_infix_cons hb fun ds hc hd => hne ds hc hd⟩

end Scan

namespace Lexer

/-- The next lexeme. -/
def ahead (l : Lexer) : Lexeme := Scan.lexeme (l.rest.dropWhile Scan.isBlank)

/-- The next token, unless it is a comment. -/
def kept (l : Lexer) : List Token := if l.next.1.kind = .comment then [] else [l.next.1]

variable {l : Lexer}

theorem rest_ofString (source : String) : (ofString source).rest = source.toList := rfl

theorem ahead_of_nil (hl : l.rest = []) : l.ahead = ⟨.plain .eof, [], []⟩ := by
  rw [ahead, hl]
  rfl

theorem kind_next (l : Lexer) : l.next.1.kind = l.ahead.reading.kind := rfl

theorem literal_next (l : Lexer) : l.next.1.literal = l.ahead.reading.literal := rfl

theorem rest_next (l : Lexer) : l.next.2.rest = l.ahead.rest := rfl

theorem errors_next (l : Lexer) : l.next.2.errors =
    l.errors ++ l.ahead.reading.faults.map (⟨·, l.next.1.span, l.next.1.position⟩) := rfl

theorem lexeme_eq (l : Lexer) : l.next.1.lexeme = String.ofList l.ahead.text := rfl

theorem lexeme_next (l : Lexer) : l.next.1.lexeme.toList = l.ahead.text := String.toList_ofList

theorem ahead_ne_nil (he : l.ahead.reading.kind ≠ .eof) : l.rest.dropWhile Scan.isBlank ≠ [] := by
  intro hnil
  rw [ahead, hnil] at he
  exact he rfl

theorem tokenize_of_eof (h : l.ahead.reading.kind = .eof) :
    l.tokenize = ([l.next.1], l.next.2) := by
  rw [tokenize, dif_pos ((kind_next l).trans h)]

theorem tokenize_of_error (h : l.ahead.reading.kind = .error) :
    l.tokenize = ([l.next.1, l.next.2.endToken], l.next.2) := by
  have hkind := (kind_next l).trans h
  have he : l.next.1.kind ≠ .eof := by simp [hkind]
  rw [tokenize, dif_neg he, if_pos hkind]

theorem tokenize_of_more (he : l.ahead.reading.kind ≠ .eof) (hr : l.ahead.reading.kind ≠ .error) :
    l.tokenize = (l.kept ++ l.next.2.tokenize.1, l.next.2.tokenize.2) := by
  have he' : l.next.1.kind ≠ .eof := he
  have hr' : l.next.1.kind ≠ .error := hr
  rw [tokenize, dif_neg he', if_neg hr', kept]
  split <;> rfl

/-- A token that neither ends the list nor is left out of it. -/
theorem tokenize_of_kept {k : TokenKind} (hk : l.ahead.reading.kind = k)
    (h : k ∉ [.eof, .error, .comment]) :
    l.tokenize = (l.next.1 :: l.next.2.tokenize.1, l.next.2.tokenize.2) := by
  subst hk
  simp only [List.mem_cons, not_or] at h
  obtain ⟨he, hr, hc, _⟩ := h
  have hkept : l.kept = [l.next.1] := if_neg hc
  rw [tokenize_of_more he hr, hkept]
  rfl

end Lexer

end Scriptlet
