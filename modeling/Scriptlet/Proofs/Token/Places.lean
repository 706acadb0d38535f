import Mathlib.Data.List.DropRight
import Scriptlet.Proofs.Token.Lossless

/-! Tokens and lexical errors stand at the line and column of the first byte of their spans. -/
namespace Scriptlet

/-- The position behind a text: a line for each of its newlines, and a column for each character
behind the last of them. -/
def Position.behind (cs : List Char) : Position where
  line := 1 + cs.count '\n'
  column := 1 + (cs.rtakeWhile (· ≠ '\n')).length

theorem Position.behind_concat (cs : List Char) (c : Char) : behind (cs ++ [c]) =
    if c = '\n' then ⟨(behind cs).line + 1, 1⟩ else ⟨(behind cs).line, (behind cs).column + 1⟩ := by
  by_cases h : c = '\n'
  · simp [h, behind, Nat.add_assoc]
  · simp [h, behind, Nat.add_assoc]

/-- The position is that of the offset in the source text. -/
def Position.IsAt (source : String) (offset : Nat) (p : Position) : Prop :=
  ∃ before after : String, source = before ++ after ∧ before.utf8ByteSize = offset ∧
    p = behind before.toList

namespace Location

theorem after_append (l : Location) (cs ds : List Char) :
    l.after (cs ++ ds) = (l.after cs).after ds := List.foldl_append

/-- Counting character by character comes to the same as counting in the whole text. -/
theorem position_after (cs : List Char) : (start.after cs).position = .behind cs := by
  -- The last newline counts for the column, so characters are added at the end.
  induction cs using List.reverseRecOn with
  | nil => rfl
  | append_singleton cs c ih =>
    have hc : start.after (cs ++ [c]) = (start.after cs).advance c := after_append _ _ _
    rw [hc, advance, ih, Position.behind_concat]

end Location

theorem length_le_utf8ByteSize (cs : List Char) :
    cs.length ≤ (String.ofList cs).utf8ByteSize := by
  induction cs with
  | nil => simp
  | cons c cs ih =>
    have hc := c.utf8Size_pos
    simp only [String.ofList_cons, String.utf8ByteSize_append, String.utf8ByteSize_singleton,
      List.length_cons]
    omega

/-- A text of fewer bytes than the greatest counter leaves room in both counters. -/
theorem Position.behind_le {cs : List Char} (h : (String.ofList cs).utf8ByteSize < Span.limit) :
    (behind cs).line ≤ Span.limit ∧ (behind cs).column ≤ Span.limit := by
  have hlen := length_le_utf8ByteSize cs
  have hline : cs.count '\n' ≤ cs.length := List.count_le_length
  have hcolumn : (cs.rtakeWhile (· ≠ '\n')).length ≤ cs.length :=
    (List.rtakeWhile_suffix _ _).length_le
  simp only [behind]
  omega

namespace Lexer

/-- The lexers that reading the source text token by token comes to. -/
inductive Reached (source : String) : Lexer → Prop where
  | start : Reached source (.ofString source)
  | next {l : Lexer} (h : Reached source l) : Reached source l.next.2

namespace Reached

variable {source : String} {l : Lexer}

/-- A lexer stands behind the text that it has read. -/
theorem split (h : Reached source l) :
    ∃ before, source = before ++ l.text ∧ l.location = Location.start.after before.toList := by
  induction h with
  | start => exact ⟨"", by simp [text, ofString], rfl⟩
  | @next l _ ih =>
    obtain ⟨before, hs, hl⟩ := ih
    refine ⟨before ++ l.blanks ++ l.next.1.lexeme, ?_, ?_⟩
    · rw [hs, l.text_eq]
      simp only [String.append_assoc]
    · simp [Lexer.next, blanks, hl, Location.after_append]

theorem utf8ByteSize_eq (h : Reached source l) :
    source.utf8ByteSize = l.location.offset + l.text.utf8ByteSize := by
  obtain ⟨before, hs, hl⟩ := h.split
  rw [hs, String.utf8ByteSize_append, hl, Location.offset_after, String.ofList_toList]
  simp [Location.start]

theorem fits (h : Reached source l) (hs : source.utf8ByteSize ≤ Span.limit) : l.Fits := by
  rwa [h.utf8ByteSize_eq] at hs

/-- A place `cs` further on in the text that is left. -/
theorem isAt_after (h : Reached source l) {cs rest : List Char} (hr : l.rest = cs ++ rest) :
    (l.location.after cs).position.IsAt source
      (l.location.offset + (String.ofList cs).utf8ByteSize) := by
  obtain ⟨before, rfl, hl⟩ := h.split
  refine ⟨before ++ String.ofList cs, String.ofList rest, ?_, ?_, ?_⟩
  · rw [text, hr, String.ofList_append, String.append_assoc]
  · rw [hl, Location.offset_after]
    simp [Location.start]
  · rw [hl, ← Location.after_append, Location.position_after]
    simp

theorem isAt_next (h : Reached source l) (hs : source.utf8ByteSize ≤ Span.limit) :
    l.next.1.position.IsAt source l.next.1.span.start := by
  rw [(h.fits hs).span_next]
  exact h.isAt_after (List.takeWhile_append_dropWhile (p := Scan.isBlank)).symm

theorem isAt_endToken (h : Reached source l) (hs : source.utf8ByteSize ≤ Span.limit) :
    l.endToken.position.IsAt source l.endToken.span.start := by
  rw [(h.fits hs).span_endToken]
  exact h.isAt_after (List.nil_append _).symm

/-- Errors have the place of the token that they were found in. -/
theorem forall_errors {P : Span → Position → Prop}
    (hnext : ∀ l, Reached source l → P l.next.1.span l.next.1.position) (h : Reached source l) :
    ∀ e ∈ l.errors, P e.span e.position := by
  induction h with
  | start => simp [ofString]
  | @next l h ih =>
    intro e he
    rcases List.mem_append.1 he with he | he
    · exact ih e he
    · obtain ⟨fault, _, rfl⟩ := List.mem_map.1 he
      exact hnext l h

theorem isAt_errors (h : Reached source l) (hs : source.utf8ByteSize ≤ Span.limit) :
    ∀ e ∈ l.errors, e.position.IsAt source e.span.start :=
  h.forall_errors (P := fun span p => p.IsAt source span.start) fun _ hl => hl.isAt_next hs

theorem tokenize (h : Reached source l) : Reached source l.tokenize.2 := by
  fun_induction Lexer.tokenize l with
  | case1 l => exact h.next
  | case2 l => exact h.next
  | case3 l _ _ _ ih => exact ih h.next

/-- What holds of every next token and of every end of input holds of all tokens. -/
theorem forall_tokenize {P : Token → Prop} (hnext : ∀ l, Reached source l → P l.next.1)
    (hend : ∀ l, Reached source l → P l.endToken) (h : Reached source l) :
    ∀ t ∈ l.tokenize.1, P t := by
  fun_induction Lexer.tokenize l with
  | case1 l => simpa using hnext l h
  | case2 l => simpa using ⟨hnext l h, hend _ h.next⟩
  | case3 l _ _ r ih =>
    intro t ht
    split at ht
    · exact ih h.next t ht
    · rcases List.mem_cons.1 ht with rfl | ht
      · exact hnext l h
      · exact ih h.next t ht

theorem isAt_tokenize (h : Reached source l) (hs : source.utf8ByteSize ≤ Span.limit) :
    ∀ t ∈ l.tokenize.1, t.position.IsAt source t.span.start :=
  h.forall_tokenize (fun _ hl => hl.isAt_next hs) fun _ hl => hl.isAt_endToken hs

/-- The counters keep to 32 bits wherever reading stands, inside a token too. -/
theorem position_le (h : Reached source l) (hs : source.utf8ByteSize < Span.limit)
    {cs : List Char} (hc : cs <+: l.rest) :
    (l.location.after cs).position.line ≤ Span.limit ∧
      (l.location.after cs).position.column ≤ Span.limit := by
  obtain ⟨rest, hr⟩ := hc
  obtain ⟨before, after, rfl, -, hp⟩ := h.isAt_after hr.symm
  rw [hp]
  refine Position.behind_le ?_
  rw [String.ofList_toList]
  rw [String.utf8ByteSize_append] at hs
  omega

end Reached

end Lexer

/-- In a text of fewer than `2 ^ 32 - 1` bytes every token, the end of input included, and every
lexical error has the line and the column of the first byte of its span, and the two counters keep
to 32 bits at every character on the way. -/
theorem tokenize_places (source : String) (h : source.utf8ByteSize < Span.limit) :
    (∀ t ∈ (tokenize source).1, t.position.IsAt source t.span.start) ∧
    (∀ e ∈ (tokenize source).2, e.position.IsAt source e.span.start) ∧
    ∀ l, Lexer.Reached source l → ∀ cs, cs <+: l.rest →
      (l.location.after cs).position.line ≤ Span.limit ∧
        (l.location.after cs).position.column ≤ Span.limit := by
  have hle : source.utf8ByteSize ≤ Span.limit := Nat.le_of_lt h
  have hstart : Lexer.Reached source (.ofString source) := .start
  have htokens := hstart.isAt_tokenize hle
  have herrors := hstart.tokenize.isAt_errors hle
  exact ⟨htokens, herrors, fun l hl cs hc => hl.position_le h hc⟩

/-- Newlines in a comment and in a string, a letter of two bytes, an unknown escape, and a character
that ends the tokens. -/
theorem tokenize_places_newlines :
    let source := "/* é\n */ \"a\né\\q\" ~ x"
    source.utf8ByteSize < Span.limit ∧
    ((tokenize source).1.map fun t => (t.span.start, t.position)) =
      [(10, ⟨2, 5⟩), (19, ⟨3, 6⟩), (20, ⟨3, 7⟩)] ∧
    ((tokenize source).2.map fun e => (e.span.start, e.position)) =
      [(10, ⟨2, 5⟩), (19, ⟨3, 6⟩)] ∧
    ∀ t ∈ (tokenize source).1, t.position.IsAt source t.span.start := by
  intro source
  have h : source.utf8ByteSize < Span.limit := by decide
  refine ⟨h, ?_, ?_, (tokenize_places source h).1⟩
  · decide +kernel
  · decide +kernel

end Scriptlet
