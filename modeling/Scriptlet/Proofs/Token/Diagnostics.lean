import Mathlib.Data.List.Chain
import Mathlib.Data.Prod.Lex
import Scriptlet.Proofs.Token.StringLiterals

/-! Lexical errors belong to tokens. A string has one for each of its unknown escapes, an error has
one, and no other token has any. All stand where their tokens stand. -/
namespace Scriptlet

/-- The characters of the escapes in a text that are not in the table, in order. -/
def unknownEscapes : List Char → List Char
  | [] => []
  | '\\' :: c :: cs =>
    if (escapeTable.lookup c).isSome then unknownEscapes cs else c :: unknownEscapes cs
  | _ :: cs => unknownEscapes cs

/-- The faults of a lexeme, by its text and its kind. -/
inductive FaultsOf (text : List Char) : TokenKind → List LexFault → Prop where
  | string : FaultsOf text .string ((unknownEscapes text).map .unknownEscape)
  | error {fault : LexFault} (h : ∀ c, fault ≠ .unknownEscape c) : FaultsOf text .error [fault]
  | other {k : TokenKind} (hs : k ≠ .string) (he : k ≠ .error) : FaultsOf text k []

namespace FaultsOf

variable {text : List Char} {k : TokenKind} {faults : List LexFault}

theorem ne_nil_of_error (h : FaultsOf text .error faults) : faults ≠ [] := by
  cases h with
  | error => exact List.cons_ne_nil _ _
  | other _ he => exact absurd rfl he

theorem eq_nil_of_other (h : FaultsOf text k faults) (hs : k ≠ .string) (he : k ≠ .error) :
    faults = [] := by
  cases h with
  | string => exact absurd rfl hs
  | error => exact absurd rfl he
  | other => rfl

end FaultsOf

namespace Scan

variable {us : List StringUnit} {w text : List Char}

theorem unknownEscapes_cons {c : Char} (h : c ≠ '\\') (cs : List Char) :
    unknownEscapes (c :: cs) = unknownEscapes cs := by
  rw [unknownEscapes]
  exact fun _ _ hc => absurd hc h

private theorem unknownEscapes_flatMap (h : ∀ c, .plain c ∈ us → c ≠ '"' ∧ c ≠ '\\') :
    unknownEscapes (us.flatMap StringUnit.chars ++ ['"']) = us.filterMap StringUnit.unknown? := by
  induction us with
  | nil => rfl
  | cons u us ih =>
    have hus := ih fun c hc => h c (.tail _ hc)
    cases u with
    | plain c =>
      have hc := (h c (.head _)).2
      change unknownEscapes (c :: (us.flatMap StringUnit.chars ++ ['"'])) = _
      rw [unknownEscapes_cons hc, hus]
      rfl
    | escape c =>
      change unknownEscapes ('\\' :: c :: (us.flatMap StringUnit.chars ++ ['"'])) = _
      rw [unknownEscapes, hus, List.filterMap_cons, StringUnit.unknown?]
      split <;> rfl

/-- The escapes of a string can be found in its text alone. -/
theorem Quotes.unknownEscapes_eq (h : Quotes us w) :
    unknownEscapes w = us.filterMap StringUnit.unknown? := by
  obtain ⟨hplain, rfl⟩ := h
  change unknownEscapes ('"' :: (us.flatMap StringUnit.chars ++ ['"'])) = _
  rw [unknownEscapes_cons (by decide), unknownEscapes_flatMap hplain]

theorem string_faultsOf (cs : List Char) :
    FaultsOf (string cs).text (string cs).reading.kind (string cs).reading.faults := by
  unfold string
  split
  · rename_i us rest hbody
    have hquotes : Quotes us (quoted us) := ⟨stringBody_plain hbody, rfl⟩
    have hfaults : FaultsOf (quoted us) .string _ := .string
    rw [hquotes.unknownEscapes_eq] at hfaults
    rw [readString_eq]
    exact hfaults
  · exact .error nofun

theorem readInteger_faultsOf (w : List Char) :
    FaultsOf text (readInteger w).kind (readInteger w).faults := by
  unfold readInteger
  split
  · exact .other nofun nofun
  · exact .error nofun

theorem number_faultsOf (cs : List Char) :
    FaultsOf (number cs).text (number cs).reading.kind (number cs).reading.faults := by
  unfold number
  split
  · split
    · exact .other nofun nofun
    · exact readInteger_faultsOf _
  · exact readInteger_faultsOf _

theorem readWord_faultsOf (w : List Char) :
    FaultsOf text (readWord w).kind (readWord w).faults := by
  unfold readWord
  split
  · exact .other nofun nofun
  · split
    · exact .other nofun nofun
    · split <;> exact .other nofun nofun

theorem readDirective_faultsOf (w : List Char) :
    FaultsOf text (readDirective w).kind (readDirective w).faults := by
  unfold readDirective
  split
  · exact .other nofun nofun
  · exact .error nofun

theorem tag_faultsOf (cs : List Char) :
    FaultsOf (tag cs).text (tag cs).reading.kind (tag cs).reading.faults := by
  unfold tag
  split <;> exact .other nofun nofun

theorem blockComment_faultsOf (cs : List Char) :
    FaultsOf text (blockComment cs).reading.kind (blockComment cs).reading.faults := by
  rw [blockComment_reading]
  exact .other nofun nofun

theorem symbol_faultsOf (c : Char) (cs : List Char) :
    FaultsOf (symbol c cs).text (symbol c cs).reading.kind (symbol c cs).reading.faults := by
  unfold symbol
  split
  · exact .other nofun nofun
  · exact .error nofun

theorem lexeme_faultsOf (cs : List Char) :
    FaultsOf (lexeme cs).text (lexeme cs).reading.kind (lexeme cs).reading.faults := by
  unfold lexeme
  split
  · exact .other nofun nofun
  · exact .other nofun nofun
  · exact string_faultsOf _
  · exact readDirective_faultsOf _
  · exact tag_faultsOf _
  · exact .other nofun nofun
  · exact blockComment_faultsOf _
  · split
    · exact number_faultsOf _
    · split
      · exact readWord_faultsOf _
      · exact symbol_faultsOf _ _

end Scan

/-- The errors are those of the token, and they stand at its place. -/
def Token.Reports (t : Token) (es : List LexError) : Prop :=
  FaultsOf t.lexeme.toList t.kind (es.map LexError.fault) ∧
    ∀ e ∈ es, e.span = t.span ∧ e.position = t.position

/-- The errors are those of the tokens, one token after the other. -/
inductive Diagnosed : List Token → List LexError → Prop where
  | nil : Diagnosed [] []
  | cons {t : Token} {ts : List Token} {es es' : List LexError} (h : t.Reports es)
      (hs : Diagnosed ts es') : Diagnosed (t :: ts) (es ++ es')

theorem Token.Reports.eq_nil_iff {t : Token} {es : List LexError} (h : t.Reports es) :
    es = [] ↔ t.kind ≠ .error ∧ (t.kind = .string → unknownEscapes t.lexeme.toList = []) := by
  obtain ⟨hfaults, _⟩ := h
  have hmap : es = [] ↔ es.map LexError.fault = [] := List.map_eq_nil_iff.symm
  rw [hmap]
  generalize es.map LexError.fault = fs at hfaults
  generalize t.kind = k at hfaults
  cases hfaults with
  | string => simp
  | error h => simp
  | other hs he => simp [hs, he]

/-- Where a span and a position are, to compare places: by the first byte, and by the line and then
the column. -/
def place (s : Span) (p : Position) : ℕ × (ℕ ×ₗ ℕ) := (s.start, toLex (p.line, p.column))

def Token.place (t : Token) : ℕ × (ℕ ×ₗ ℕ) := Scriptlet.place t.span t.position

def LexError.place (e : LexError) : ℕ × (ℕ ×ₗ ℕ) := Scriptlet.place e.span e.position

theorem Token.Reports.place_eq {t : Token} {es : List LexError} (h : t.Reports es) :
    ∀ e ∈ es, e.place = t.place := by
  intro e he
  obtain ⟨hspan, hposition⟩ := h.2 e he
  rw [LexError.place, Token.place, hspan, hposition]

namespace Diagnosed

variable {ts : List Token} {es : List LexError}

/-- There are no errors exactly if no token has one. -/
theorem eq_nil_iff (h : Diagnosed ts es) :
    es = [] ↔ ∀ t ∈ ts, t.kind ≠ .error ∧
      (t.kind = .string → unknownEscapes t.lexeme.toList = []) := by
  induction h with
  | nil => simp
  | cons h _ ih => rw [List.append_eq_nil_iff, h.eq_nil_iff, ih, List.forall_mem_cons]

theorem exists_token (h : Diagnosed ts es) : ∀ e ∈ es, ∃ t ∈ ts, e.place = t.place := by
  induction h with
  | nil => simp
  | @cons t ts es es' h _ ih =>
    intro e he
    rcases List.mem_append.1 he with he | he
    · exact ⟨t, .head _, h.place_eq e he⟩
    · obtain ⟨u, hu, heq⟩ := ih e he
      exact ⟨u, .tail _ hu, heq⟩

/-- Errors are in the order of their tokens. -/
theorem pairwise_place (h : Diagnosed ts es) (hts : (ts.map Token.place).Pairwise (· ≤ ·)) :
    (es.map LexError.place).Pairwise (· ≤ ·) := by
  induction h with
  | nil => exact .nil
  | @cons t ts es es' h hs ih =>
    rw [List.map_cons, List.pairwise_cons] at hts
    obtain ⟨hfirst, hrest⟩ := hts
    rw [List.pairwise_map, List.pairwise_append]
    refine ⟨?_, List.pairwise_map.1 (ih hrest), ?_⟩
    · refine List.pairwise_of_forall_mem_list fun a ha b hb => ?_
      rw [h.place_eq a ha, h.place_eq b hb]
    · intro a ha b hb
      obtain ⟨u, hu, hbu⟩ := hs.exists_token b hb
      rw [h.place_eq a ha, hbu]
      exact hfirst _ (List.mem_map_of_mem hu)

end Diagnosed

namespace Location

theorem place_advance (l : Location) (c : Char) (n m : Nat) :
    place (.between l.offset n) l.position ≤
      place (.between (l.advance c).offset m) (l.advance c).position := by
  constructor
  · change min l.offset Span.limit ≤ min (l.offset + c.utf8Size) Span.limit
    omega
  · change toLex (l.position.line, l.position.column) ≤ toLex (_, _)
    rw [Prod.Lex.toLex_le_toLex]
    by_cases hc : c = '\n'
    · left
      simp [advance, hc]
    · right
      simp [advance, hc]

/-- Reading never goes back. -/
theorem place_after (l : Location) (cs : List Char) (n m : Nat) :
    place (.between l.offset n) l.position ≤
      place (.between (l.after cs).offset m) (l.after cs).position := by
  induction cs generalizing l n with
  | nil => exact le_refl _
  | cons c cs ih => exact (place_advance l c n 0).trans (ih (l.advance c) 0)

end Location

namespace Lexer

variable {l : Lexer}

theorem reports_next (l : Lexer) :
    ∃ es, l.next.2.errors = l.errors ++ es ∧ l.next.1.Reports es := by
  refine ⟨_, l.errors_next, ?_, ?_⟩
  · rw [lexeme_next, kind_next, List.map_map]
    have hfaults : FaultsOf l.ahead.text l.ahead.reading.kind l.ahead.reading.faults :=
      Scan.lexeme_faultsOf _
    simpa [Function.comp_def] using hfaults
  · intro e he
    obtain ⟨fault, _, rfl⟩ := List.mem_map.1 he
    exact ⟨rfl, rfl⟩

theorem reports_endToken (l : Lexer) : l.endToken.Reports [] := ⟨.other nofun nofun, by simp⟩

/-- A comment has no errors. -/
theorem errors_of_comment (h : l.next.1.kind = .comment) : l.next.2.errors = l.errors := by
  obtain ⟨es, herrors, hreports⟩ := l.reports_next
  have hnone : es = [] := hreports.eq_nil_iff.2 (by simp [h])
  rw [herrors, hnone, List.append_nil]

/-- Each token adds its own errors to those found before it. -/
theorem tokenize_diagnosed (l : Lexer) :
    ∃ es, l.tokenize.2.errors = l.errors ++ es ∧ Diagnosed l.tokenize.1 es := by
  fun_induction tokenize l with
  | case1 l he =>
    obtain ⟨es, herrors, hreports⟩ := l.reports_next
    exact ⟨es ++ [], by simpa using herrors, .cons hreports .nil⟩
  | case2 l he her =>
    obtain ⟨es, herrors, hreports⟩ := l.reports_next
    exact ⟨es ++ ([] ++ []), by simpa using herrors,
      .cons hreports (.cons l.next.2.reports_endToken .nil)⟩
  | case3 l he her r ih =>
    obtain ⟨es', herrors', hdiagnosed⟩ := ih
    split
    · rename_i hc
      exact ⟨es', errors_of_comment hc ▸ herrors', hdiagnosed⟩
    · obtain ⟨es, herrors, hreports⟩ := l.reports_next
      refine ⟨es ++ es', ?_, .cons hreports hdiagnosed⟩
      rw [herrors', herrors, List.append_assoc]

/-- The stream ends with its only end of input. There can be an error before it, but nowhere else,
and there are no comments. -/
theorem tokenize_shape (l : Lexer) :
    ∃ ts stop, stop.kind = .eof ∧
      (∀ t ∈ ts, t.kind ≠ .eof ∧ t.kind ≠ .error ∧ t.kind ≠ .comment) ∧
      (l.tokenize.1 = ts ++ [stop] ∨ ∃ t, t.kind = .error ∧ l.tokenize.1 = ts ++ [t, stop]) := by
  fun_induction tokenize l with
  | case1 l he => exact ⟨[], l.next.1, he, by simp, .inl rfl⟩
  | case2 l he her => exact ⟨[], l.next.2.endToken, rfl, by simp, .inr ⟨l.next.1, her, rfl⟩⟩
  | case3 l he her r ih =>
    obtain ⟨ts, stop, hstop, hts, hr⟩ := ih
    split
    · exact ⟨ts, stop, hstop, hts, hr⟩
    · rename_i hc
      refine ⟨l.next.1 :: ts, stop, hstop, List.forall_mem_cons.2 ⟨⟨he, her, hc⟩, hts⟩, ?_⟩
      rcases hr with hr | ⟨t, ht, hr⟩
      · exact .inl (congrArg (l.next.1 :: ·) hr)
      · exact .inr ⟨t, ht, congrArg (l.next.1 :: ·) hr⟩

/-- A token stands between where the lexer was and where it goes on. -/
theorem pairwise_next (l : Lexer) (ts : List Token)
    (h : ((l.next.2.endToken :: ts).map Token.place).Pairwise (· ≤ ·)) :
    ((l.endToken :: l.next.1 :: l.next.2.endToken :: ts).map Token.place).Pairwise (· ≤ ·) := by
  have hblanks : l.endToken.place ≤ l.next.1.place := l.location.place_after _ _ _
  have hlexeme : l.next.1.place ≤ l.next.2.endToken.place :=
    (l.location.after (l.rest.takeWhile Scan.isBlank)).place_after _ _ _
  have hchain := List.isChain_iff_pairwise.2 h
  exact List.isChain_iff_pairwise.1 (.cons_cons hblanks (.cons_cons hlexeme hchain))

/-- Tokens come in the order of the text, none before the place where the lexer stands. -/
theorem pairwise_tokenize (l : Lexer) :
    ((l.endToken :: l.tokenize.1).map Token.place).Pairwise (· ≤ ·) := by
  fun_induction tokenize l with
  | case1 l he =>
    have hnext := l.pairwise_next [] (List.pairwise_singleton _ _)
    exact hnext.sublist (.map _ (.cons_cons _ (.cons_cons _ (List.nil_sublist _))))
  | case2 l he her => exact l.pairwise_next [] (List.pairwise_singleton _ _)
  | case3 l he her r ih =>
    refine (l.pairwise_next _ ih).sublist (.map _ (.cons_cons _ ?_))
    split
    · exact .cons _ (.cons _ (.refl _))
    · exact .cons_cons _ (.cons _ (.refl _))

end Lexer

/-- The tokens end with the end of input, the only one, and before it can stand an error, the only
one. The errors are those of the tokens, one token after the other, and so they come in the order of
a text whose places have 32 bits. There are none exactly if no token is an error or a string with an
unknown escape. -/
theorem tokenize_diagnostics (source : String) :
    (∃ ts stop, stop.kind = .eof ∧
      (∀ t ∈ ts, t.kind ≠ .eof ∧ t.kind ≠ .error ∧ t.kind ≠ .comment) ∧
      ((tokenize source).1 = ts ++ [stop] ∨
        ∃ t, t.kind = .error ∧ (tokenize source).1 = ts ++ [t, stop])) ∧
    Diagnosed (tokenize source).1 (tokenize source).2 ∧
    (source.utf8ByteSize < Span.limit →
      ((tokenize source).2.map LexError.place).Pairwise (· ≤ ·)) ∧
    ((tokenize source).2 = [] ↔ ∀ t ∈ (tokenize source).1, t.kind ≠ .error ∧
      (t.kind = .string → unknownEscapes t.lexeme.toList = [])) := by
  let l := Lexer.ofString source
  obtain ⟨es, herrors, hes⟩ := l.tokenize_diagnosed
  have hdiagnosed : Diagnosed (tokenize source).1 (tokenize source).2 := by
    have heq : (tokenize source).2 = es := herrors
    rw [heq]
    exact hes
  have hordered := (List.pairwise_cons.1 l.pairwise_tokenize).2
  exact ⟨l.tokenize_shape, hdiagnosed, fun _ => hdiagnosed.pairwise_place hordered,
    hdiagnosed.eq_nil_iff⟩

/-- The escape in the string that is not closed is no error of its own. -/
theorem tokenize_diagnostics_escapes :
    let source := "\"\\q\\n\\w\" /* \\e */ \"\\x"
    source.utf8ByteSize < Span.limit ∧
    ((tokenize source).2.map fun e => (e.fault, e.position)) =
      [(.unknownEscape 'q', ⟨1, 1⟩), (.unknownEscape 'w', ⟨1, 1⟩), (.unclosedString, ⟨1, 19⟩)] ∧
    ((tokenize source).2.map LexError.place).Pairwise (· ≤ ·) := by
  intro source
  have h : source.utf8ByteSize < Span.limit := by decide
  obtain ⟨_, _, hordered, _⟩ := tokenize_diagnostics source
  exact ⟨h, by decide +kernel, hordered h⟩

end Scriptlet
