import Scriptlet.Token.Scan

/-! The lexer: it walks through a source text and gives every lexeme its place. -/
namespace Scriptlet

namespace Scan

theorem run_append (p : Char → Bool) (f : List Char → Reading) (cs : List Char) :
    (run p f cs).text ++ (run p f cs).rest = cs := List.takeWhile_append_dropWhile

theorem behind_append (c : Char) {l : Lexeme} {cs : List Char} (h : l.text ++ l.rest = cs) :
    (behind c l).text ++ (behind c l).rest = c :: cs := congrArg (List.cons c) h

theorem stringBody_eq_some {cs rest : List Char} {us : List StringUnit}
    (h : stringBody cs = some (us, rest)) : us.flatMap StringUnit.chars ++ '"' :: rest = cs := by
  fun_induction stringBody cs generalizing us with
  | case1 => simp at h
  | case2 => simp_all
  | case3 => simp at h
  | case4 c cs ih =>
    obtain ⟨⟨vs, r⟩, hv, he⟩ := Option.map_eq_some_iff.1 h
    cases he
    simp [StringUnit.chars, ih hv]
  | case5 c cs _ _ _ ih =>
    obtain ⟨⟨vs, r⟩, hv, he⟩ := Option.map_eq_some_iff.1 h
    cases he
    simp [StringUnit.chars, ih hv]

theorem string_append (cs : List Char) : (string cs).text ++ (string cs).rest = '"' :: cs := by
  unfold string
  split
  · rename_i us rest h
    simpa using stringBody_eq_some h
  · simp

theorem number_append (cs : List Char) : (number cs).text ++ (number cs).rest = cs := by
  unfold number
  split
  · rename_i d ds h
    split
    · simp only [List.append_assoc, List.cons_append, List.takeWhile_append_dropWhile, ← h]
    · exact run_append _ _ _
  · exact run_append _ _ _

theorem tag_append (cs : List Char) : (tag cs).text ++ (tag cs).rest = '#' :: cs := by
  unfold tag
  split
  · exact behind_append _ (run_append _ _ _)
  · rfl

theorem blockComment_append (cs : List Char) :
    (blockComment cs).text ++ (blockComment cs).rest = cs := by
  fun_induction blockComment cs with
  | case1 => rfl
  | case2 => rfl
  | case3 c cs _ ih => exact behind_append c ih

theorem symbol_append (c : Char) (cs : List Char) :
    (symbol c cs).text ++ (symbol c cs).rest = c :: cs := by
  unfold symbol
  split
  · rename_i s h
    have hs : s.chars <+: c :: cs := by simpa using List.find?_some h
    obtain ⟨rest, hr⟩ := hs
    simp [← hr]
  · rfl

/-- A lexeme and the text behind it make up the whole text. -/
theorem lexeme_append (cs : List Char) : (lexeme cs).text ++ (lexeme cs).rest = cs := by
  unfold lexeme
  split
  · rfl
  · rfl
  · exact string_append _
  · exact behind_append _ (run_append _ _ _)
  · exact tag_append _
  · exact behind_append _ (behind_append _ (run_append _ _ _))
  · exact behind_append _ (behind_append _ (blockComment_append _))
  · split
    · exact number_append _
    · split
      · exact run_append _ _ _
      · exact symbol_append _ _

theorem number_text_ne_nil {c : Char} (cs : List Char) (h : c.isDigit) :
    (number (c :: cs)).text ≠ [] := by
  unfold number
  split
  · split <;> simp [run, h]
  · simp [run, h]

theorem symbol_text_ne_nil (c : Char) (cs : List Char) : (symbol c cs).text ≠ [] := by
  unfold symbol
  split
  · rename_i s _
    cases s <;> simp [Symbol.chars]
  · simp

theorem isWordChar_of_isWordStart {c : Char} (h : isWordStart c) : isWordChar c := by
  simp only [isWordStart, isWordChar, Bool.or_eq_true] at h ⊢
  exact h.elim (fun h => .inl (.inl h)) .inr

/-- Only the end of the text has an empty lexeme. -/
theorem lexeme_text_ne_nil {cs : List Char} (h : cs ≠ []) : (lexeme cs).text ≠ [] := by
  unfold lexeme
  split
  · exact absurd rfl h
  · simp
  · unfold string
    split <;> simp
  · simp [behind]
  · unfold tag
    split <;> simp [behind]
  · simp [behind]
  · simp [behind]
  · split
    · exact number_text_ne_nil _ (by assumption)
    · split
      · rename_i hw
        simp [run, isWordChar_of_isWordStart hw]
      · exact symbol_text_ne_nil _ _

theorem lexeme_rest_length {cs : List Char} (h : cs ≠ []) :
    (lexeme cs).rest.length < cs.length := by
  have hl := congrArg List.length (lexeme_append cs)
  have hp := List.length_pos_iff.2 (lexeme_text_ne_nil h)
  rw [List.length_append] at hl
  omega

end Scan

/-- A source text that is read from the front, and the errors found so far. -/
structure Lexer where
  rest : List Char
  location : Location
  errors : List LexError

namespace Lexer

/-- A lexer at the start of a text. -/
def ofString (s : String) : Lexer := ⟨s.toList, .start, []⟩

/-- The next token, end of input included, and the lexer behind it. Reading goes on after errors. -/
def next (l : Lexer) : Token × Lexer :=
  let start := l.location.after (l.rest.takeWhile Scan.isBlank)
  let x := Scan.lexeme (l.rest.dropWhile Scan.isBlank)
  let stop := start.after x.text
  let span := Span.between start.offset stop.offset
  ({ kind := x.reading.kind
     lexeme := String.ofList x.text
     literal := x.reading.literal
     span
     position := start.position },
   { rest := x.rest
     location := stop
     errors := l.errors ++ x.reading.faults.map (⟨·, span, start.position⟩) })

/-- The token that stands for the end of input where the lexer stands. -/
def endToken (l : Lexer) : Token :=
  { kind := .eof
    lexeme := ""
    literal := none
    span := Span.between l.location.offset l.location.offset
    position := l.location.position }

theorem next_rest_length {l : Lexer} (h : l.next.1.kind ≠ .eof) :
    l.next.2.rest.length < l.rest.length := by
  have hne : l.rest.dropWhile Scan.isBlank ≠ [] := by
    intro hn
    simp [next, hn, Scan.lexeme, Reading.plain] at h
  have hd := (List.dropWhile_suffix Scan.isBlank (l := l.rest)).length_le
  exact Nat.lt_of_lt_of_le (Scan.lexeme_rest_length hne) hd

/-- Every token up to the end of input, comments and errors included. -/
def allTokens (l : Lexer) : List Token × Lexer :=
  if _ : l.next.1.kind = .eof then ([l.next.1], l.next.2)
  else
    let r := l.next.2.allTokens
    (l.next.1 :: r.1, r.2)
termination_by l.rest.length
decreasing_by exact next_rest_length (by assumption)

/-- The tokens from here on without the comments. The first error token ends the list, followed by
an end of input where it was found. -/
def tokenize (l : Lexer) : List Token × Lexer :=
  if _ : l.next.1.kind = .eof then ([l.next.1], l.next.2)
  else if l.next.1.kind = .error then ([l.next.1, l.next.2.endToken], l.next.2)
  else
    let r := l.next.2.tokenize
    (if l.next.1.kind = .comment then r.1 else l.next.1 :: r.1, r.2)
termination_by l.rest.length
decreasing_by exact next_rest_length (by assumption)

end Lexer

/-- The tokens of a source text and its lexical errors. -/
def tokenize (source : String) : List Token × List LexError :=
  let r := (Lexer.ofString source).tokenize
  (r.1, r.2.errors)

end Scriptlet
