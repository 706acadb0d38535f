import Scriptlet.Proofs.Token.LongestMatch

/-! String literals stand for what is written between their quotes, with escapes decoded. A text
that opens a string and does not close it is one error. -/
namespace Scriptlet

/-- The characters with a meaning of their own behind a backslash, each with what it means. -/
def escapeTable : List (Char × Char) :=
  [('n', '\n'), ('t', '\t'), ('r', '\r'), ('\\', '\\'), ('"', '"')]

namespace Scan

namespace StringUnit

/-- The character that a unit means. An escape that is not in the table means its own character. -/
def decoded : StringUnit → Char
  | plain c => c
  | escape c => (escapeTable.lookup c).getD c

/-- The character of an escape that is not in the table. -/
def unknown? : StringUnit → Option Char
  | plain _ => none
  | escape c => if (escapeTable.lookup c).isSome then none else some c

theorem escapeValue?_eq_lookup (c : Char) : escapeValue? c = escapeTable.lookup c := by
  unfold escapeValue?
  split
  · rfl
  · rfl
  · rfl
  · rfl
  · rfl
  · rename_i hn ht hr hb hq
    have hmem : ∀ p ∈ escapeTable, (c != p.1) = true := by
      simpa [escapeTable] using ⟨hn, ht, hr, hb, hq⟩
    exact (List.lookup_eq_none_iff.2 hmem).symm

theorem value_eq_decoded (u : StringUnit) : u.value = u.decoded := by
  cases u with
  | plain c => rfl
  | escape c => rw [value, decoded, escapeValue?_eq_lookup]

theorem fault?_eq_unknown? (u : StringUnit) : u.fault? = u.unknown?.map .unknownEscape := by
  cases u with
  | plain c => rfl
  | escape c =>
    rw [fault?, unknown?, escapeValue?_eq_lookup]
    split <;> rfl

/-- The unit that writes a character. Only quotes and backslashes need an escape. -/
def ofChar (c : Char) : StringUnit := if c = '"' ∨ c = '\\' then escape c else plain c

theorem decoded_ofChar (c : Char) : (ofChar c).decoded = c := by
  unfold ofChar
  split
  · rename_i hc
    rcases hc with rfl | rfl <;> rfl
  · rfl

theorem unknown?_ofChar (c : Char) : (ofChar c).unknown? = none := by
  unfold ofChar
  split
  · rename_i hc
    rcases hc with rfl | rfl <;> rfl
  · rfl

end StringUnit

/-- The units between quotes. -/
def quoted (us : List StringUnit) : List Char := '"' :: us.flatMap StringUnit.chars ++ ['"']

/-- The text writes the units between quotes. A plain unit is neither a quote nor a backslash. -/
def Quotes (us : List StringUnit) (w : List Char) : Prop :=
  (∀ c, .plain c ∈ us → c ≠ '"' ∧ c ≠ '\\') ∧ w = quoted us

variable {us : List StringUnit} {w cs rest : List Char}

/-- Every text can be quoted. -/
theorem quotes_map_ofChar (cs : List Char) :
    Quotes (cs.map .ofChar) (quoted (cs.map .ofChar)) := by
  refine ⟨fun c hc => ?_, rfl⟩
  obtain ⟨d, _, hd⟩ := List.mem_map.1 hc
  unfold StringUnit.ofChar at hd
  split at hd
  · cases hd
  · rename_i hnot
    cases hd
    exact not_or.1 hnot

theorem readString_eq (us : List StringUnit) : readString us =
    ⟨.string, some (.string (String.ofList (us.map StringUnit.decoded))),
      (us.filterMap StringUnit.unknown?).map .unknownEscape⟩ := by
  have hvalue : StringUnit.value = StringUnit.decoded := funext StringUnit.value_eq_decoded
  have hfault : StringUnit.fault? = fun u => u.unknown?.map .unknownEscape :=
    funext StringUnit.fault?_eq_unknown?
  rw [readString, hvalue, hfault, List.map_filterMap]

theorem Quotes.stringBody_eq (h : Quotes us w) (hw : '"' :: cs = w ++ rest) :
    stringBody cs = some (us, rest) := by
  obtain ⟨hplain, rfl⟩ := h
  have hcs : cs = us.flatMap StringUnit.chars ++ '"' :: rest := by simpa [quoted] using hw
  rw [hcs, stringBody_flatMap hplain]

/-- A string is either closed, and then its text can be cut into units, or it is not. -/
theorem string_cases (cs : List Char) :
    (∃ us w rest, Quotes us w ∧ '"' :: cs = w ++ rest) ∨
      string cs = ⟨.faulty .unclosedString, '"' :: cs, []⟩ := by
  cases hbody : stringBody cs with
  | none =>
    right
    rw [string, hbody]
  | some r =>
    obtain ⟨us, rest⟩ := r
    left
    refine ⟨us, _, rest, ⟨stringBody_plain hbody, rfl⟩, ?_⟩
    rw [← stringBody_eq_some hbody]
    simp [quoted]

end Scan

namespace Lexer

open Scan

variable {l : Lexer} {us : List StringUnit} {w cs rest : List Char}

theorem ahead_of_quotes (h : Quotes us w) (hl : l.rest = w ++ rest) :
    l.ahead = ⟨readString us, w, rest⟩ := by
  obtain ⟨hplain, rfl⟩ := h
  rw [ahead, hl]
  exact lexeme_string hplain rest

theorem location_of_quotes (h : Quotes us w) (hl : l.rest = w ++ rest) :
    l.next.2.location = l.location.after w := by
  have hblank : l.rest.takeWhile isBlank = [] := by
    rw [hl, h.2]
    rfl
  change (l.location.after (l.rest.takeWhile isBlank)).after l.ahead.text = _
  rw [hblank, ahead_of_quotes h hl]
  rfl

theorem ahead_of_unclosed (hl : l.rest = '"' :: cs)
    (hopen : ∀ us w rest, Quotes us w → '"' :: cs ≠ w ++ rest) :
    l.ahead = ⟨.faulty .unclosedString, '"' :: cs, []⟩ := by
  have hahead : l.ahead = string cs := by
    rw [ahead, hl]
    rfl
  rcases string_cases cs with ⟨us, w, rest, hus, hcs⟩ | hstring
  · exact absurd hcs (hopen us w rest hus)
  · rw [hahead, hstring]

/-- The next token is a string of exactly the text `w`, which stands for the decoded units. Each
unknown escape adds an error at the token, in order, and the lexer then stands before `rest`. -/
structure ReadsString (l : Lexer) (us : List StringUnit) (w rest : List Char) : Prop where
  first : l.tokenize.1.head? = some l.next.1
  kind : l.next.1.kind = .string
  lexeme : l.next.1.lexeme = String.ofList w
  literal : l.next.1.literal = some (.string (String.ofList (us.map StringUnit.decoded)))
  errors : l.next.2.errors = l.errors ++ (us.filterMap StringUnit.unknown?).map
    (⟨.unknownEscape ·, l.next.1.span, l.next.1.position⟩)
  rest : l.next.2.rest = rest
  location : l.next.2.location = l.location.after w

theorem tokenize_of_string (h : l.next.1.kind = .string) :
    l.tokenize = (l.next.1 :: l.next.2.tokenize.1, l.next.2.tokenize.2) := by
  rw [kind_next] at h
  exact tokenize_of_kept h (by decide)

theorem readsString_of_quotes (h : Quotes us w) (hl : l.rest = w ++ rest) :
    l.ReadsString us w rest := by
  have hahead := ahead_of_quotes h hl
  rw [readString_eq] at hahead
  have hkind : l.next.1.kind = .string := by rw [kind_next, hahead]
  constructor
  · rw [tokenize_of_string hkind, List.head?_cons]
  · exact hkind
  · rw [lexeme_eq, hahead]
  · rw [literal_next, hahead]
  · rw [errors_next, hahead, List.map_map]
    rfl
  · rw [rest_next, hahead]
  · exact location_of_quotes h hl

/-- A string that is the whole text is the only token before the end of input. -/
theorem tokenize_of_quotes (h : Quotes us w) (hl : l.rest = w) :
    ∃ stop, l.tokenize.1 = [l.next.1, stop] ∧ l.tokenize.2.errors = l.next.2.errors ∧
      stop.kind = .eof := by
  have hread : l.ReadsString us w [] := readsString_of_quotes h (by simp [hl])
  have hstop := ahead_of_nil hread.rest
  have heof : l.next.2.ahead.reading.kind = .eof := by
    rw [hstop]
    rfl
  rw [tokenize_of_string hread.kind, tokenize_of_eof heof]
  refine ⟨l.next.2.next.1, rfl, ?_, heof⟩
  rw [errors_next, hstop]
  exact List.append_nil _

end Lexer

open Scan in
/-- Where the text that is left begins with units between quotes, they are read as one string. A
source that begins with a quote and with no such text is one error token, whose only error is the
missing quote. And every text is what a string token without errors stands for. -/
theorem tokenize_strings :
    (∀ (l : Lexer) (us : List StringUnit) (w rest : List Char), Quotes us w → l.rest = w ++ rest →
      l.ReadsString us w rest) ∧
    (∀ source : String, source.toList.head? = some '"' →
      (∀ us w rest, Quotes us w → source.toList ≠ w ++ rest) →
      ∃ t stop, tokenize source = ([t, stop], [⟨.unclosedString, t.span, t.position⟩]) ∧
        t.kind = .error ∧ t.lexeme = source ∧ stop.kind = .eof) ∧
    ∀ s : String, ∃ source t stop, tokenize source = ([t, stop], []) ∧
      t.kind = .string ∧ t.literal = some (.string s) ∧ stop.kind = .eof := by
  refine ⟨fun l us w rest => Lexer.readsString_of_quotes, fun source hquote hopen => ?_,
    fun s => ?_⟩
  · obtain ⟨cs, hcs⟩ := List.head?_eq_some_iff.1 hquote
    rw [hcs] at hopen
    let l := Lexer.ofString source
    have hahead : l.ahead = _ := Lexer.ahead_of_unclosed hcs hopen
    have herror : l.ahead.reading.kind = .error := by
      rw [hahead]
      rfl
    have htext : l.next.1.lexeme = source := by
      rw [l.lexeme_eq, hahead, ← hcs, String.ofList_toList]
    refine ⟨l.next.1, l.next.2.endToken, ?_, herror, htext, rfl⟩
    rw [tokenize, Lexer.tokenize_of_error herror, Lexer.errors_next, hahead]
    rfl
  · let us := s.toList.map StringUnit.ofChar
    let w := quoted us
    let l := Lexer.ofString (String.ofList w)
    have hus : Quotes us w := quotes_map_ofChar s.toList
    have hl : l.rest = w := (Lexer.rest_ofString _).trans String.toList_ofList
    have hread : l.ReadsString us w [] := Lexer.readsString_of_quotes hus (by simp [hl])
    obtain ⟨stop, htokens, herrors, hstop⟩ := Lexer.tokenize_of_quotes hus hl
    have hvalue : us.map StringUnit.decoded = s.toList := by
      simp [us, Function.comp_def, StringUnit.decoded_ofChar]
    have hnone : us.filterMap StringUnit.unknown? = [] := by
      simp [us, StringUnit.unknown?_ofChar]
    refine ⟨String.ofList w, l.next.1, stop, ?_, hread.kind, ?_, hstop⟩
    · have hclean : l.tokenize.2.errors = [] := by
        rw [herrors, hread.errors, hnone]
        rfl
      rw [tokenize, htokens, hclean]
    · rw [hread.literal, hvalue, String.ofList_toList]

open Scan in
/-- An unknown escape among known ones before another word, and a string that ends in an escaped
quote. -/
theorem tokenize_strings_escapes :
    let l := Lexer.ofString "\"a\\q\\\\\\n\\\"\" x"
    let us : List StringUnit := [.plain 'a', .escape 'q', .escape '\\', .escape 'n', .escape '"']
    let w := "\"a\\q\\\\\\n\\\"\"".toList
    (Quotes us w ∧ l.rest = w ++ [' ', 'x'] ∧
      us.map StringUnit.decoded = ['a', 'q', '\\', '\n', '"'] ∧
      us.filterMap StringUnit.unknown? = ['q'] ∧ l.ReadsString us w [' ', 'x']) ∧
    (∀ us w rest, Quotes us w → "\"a\\\"".toList ≠ w ++ rest) ∧
      ∃ t stop, tokenize "\"a\\\"" = ([t, stop], [⟨.unclosedString, t.span, t.position⟩]) ∧
        t.kind = .error ∧ t.lexeme = "\"a\\\"" ∧ stop.kind = .eof := by
  intro l us w
  obtain ⟨hclosed, hunclosed, _⟩ := tokenize_strings
  have hus : Quotes us w := ⟨by simp [us], by decide⟩
  have hl : l.rest = w ++ [' ', 'x'] := by decide
  have hopen : ∀ us w rest, Quotes us w → "\"a\\\"".toList ≠ w ++ rest := by
    intro us w rest h hw
    have hbody : stringBody ['a', '\\', '"'] = some (us, rest) := h.stringBody_eq hw
    cases hbody
  exact ⟨⟨hus, hl, by decide, by decide, hclosed l us w _ hus hl⟩, hopen,
    hunclosed _ (by decide) hopen⟩

end Scriptlet
