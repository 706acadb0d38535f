import Scriptlet.Proofs.Parse.Grammar
import Scriptlet.Proofs.Parse.Origin
import Scriptlet.Proofs.Token.Places

/-! Literals. A token has one exactly if its kind asks for it, so that the leaves of a program are
the literals of its tokens and none of them is made up. -/
namespace Scriptlet

namespace TokenKind

/-- The kinds of tokens that denote values. -/
def literals : List TokenKind := [integer, float, string, boolean]

/-- A token of the kind denotes a value of that kind, or nothing if there are no such values. -/
def Denotes (k : TokenKind) : Option Value → Prop
  | some v => k = v.kind
  | none => k ∉ literals

variable {k : TokenKind} {v? : Option Value}

/-- Each kind of literal, and the values that belong to it. -/
theorem Denotes.iff (h : k.Denotes v?) :
    (k = integer ↔ ∃ n, v? = some (.integer n)) ∧ (k = float ↔ ∃ x, v? = some (.float x)) ∧
      (k = string ↔ ∃ s, v? = some (.string s)) ∧ (k = boolean ↔ ∃ b, v? = some (.bool b)) := by
  cases v? with
  | some v =>
    have hk : k = v.kind := h
    cases v <;> simp [hk, Value.kind]
  | none =>
    have hk : k ∉ literals := h
    simp only [literals, List.mem_cons, List.not_mem_nil, or_false, not_or] at hk
    simpa using hk

end TokenKind

namespace Reading

/-- The literal is what the kind asks for. -/
def Denotes (r : Reading) : Prop := r.kind.Denotes r.literal

theorem plain_denotes {k : TokenKind} (h : k ∉ TokenKind.literals) : (plain k).Denotes := h

theorem faulty_denotes (fault : LexFault) : (faulty fault).Denotes :=
  plain_denotes (k := .error) (by decide)

end Reading

namespace Scan

open Reading

theorem string_denotes (cs : List Char) : (string cs).reading.Denotes := by
  unfold string
  split
  · exact rfl
  · exact faulty_denotes _

theorem readInteger_denotes (digits : List Char) : (readInteger digits).Denotes := by
  unfold readInteger
  split
  · exact rfl
  · exact faulty_denotes _

theorem number_denotes (cs : List Char) : (number cs).reading.Denotes := by
  unfold number
  split
  · split
    · exact rfl
    · exact readInteger_denotes _
  · exact readInteger_denotes _

theorem readWord_denotes (w : List Char) : (readWord w).Denotes := by
  unfold readWord
  split
  · exact rfl
  · split
    · exact rfl
    · split
      · exact plain_denotes (by simp [TokenKind.literals])
      · exact plain_denotes (by decide)

theorem readDirective_denotes (w : List Char) : (readDirective w).Denotes := by
  unfold readDirective
  split
  · exact plain_denotes (by simp [TokenKind.literals])
  · exact faulty_denotes _

theorem tag_denotes (cs : List Char) : (tag cs).reading.Denotes := by
  unfold tag
  split
  · exact plain_denotes (k := .tag) (by decide)
  · exact plain_denotes (k := .hash) (by decide)

theorem symbol_denotes (c : Char) (cs : List Char) : (symbol c cs).reading.Denotes := by
  unfold symbol
  split
  · exact plain_denotes (by simp [TokenKind.literals])
  · exact faulty_denotes _

/-- Whatever a text begins with, its literal is what its kind asks for. -/
theorem lexeme_denotes (cs : List Char) : (lexeme cs).reading.Denotes := by
  have hcomment : (Reading.plain .comment).Denotes := plain_denotes (by decide)
  unfold lexeme
  split
  · exact plain_denotes (k := .eof) (by decide)
  · exact plain_denotes (k := .newline) (by decide)
  · exact string_denotes _
  · exact readDirective_denotes _
  · exact tag_denotes _
  · exact hcomment
  · change (blockComment _).reading.Denotes
    rw [blockComment_reading]
    exact hcomment
  · split
    · exact number_denotes _
    · split
      · exact readWord_denotes _
      · exact symbol_denotes _ _

end Scan

namespace Token

variable {t : Token}

/-- A leaf is made up only where the literal is missing or of another kind. -/
theorem leaf?_eq_literal (h : t.kind.Denotes t.literal) : t.leaf? = t.literal := by
  cases hv : t.literal with
  | some v =>
    rw [hv] at h
    have hk : t.kind = v.kind := h
    unfold leaf?
    cases v <;> simp [hk, hv, Value.kind]
  | none =>
    rw [hv] at h
    have hk : t.kind ∉ TokenKind.literals := h
    simp only [TokenKind.literals, List.mem_cons, List.not_mem_nil, or_false, not_or] at hk
    unfold leaf?
    split <;> simp_all

/-- So is the text of a string. -/
theorem literal_of_string (h : t.kind.Denotes t.literal) (hk : t.kind = .string) :
    t.literal = some (.string t.stringValue) := by
  obtain ⟨_, _, hstring, _⟩ := h.iff
  obtain ⟨s, hs⟩ := hstring.1 hk
  simp [stringValue, hs]

end Token

theorem tokenize_denotes (source : String) :
    ∀ t ∈ (tokenize source).1, t.kind.Denotes t.literal := by
  have hstart : Lexer.Reached source (.ofString source) := .start
  refine hstart.forall_tokenize (fun l _ => Scan.lexeme_denotes _) fun l _ => ?_
  exact Reading.plain_denotes (k := .eof) (by decide)

/-- Every token of a text has a literal of the kind that its own kind asks for, and no literal if it
asks for none. So no leaf is made up: the literals in the program, whatever errors were found in it,
are literals of tokens of their kinds at their positions, and the contexts are literals of
strings. -/
theorem parse_literals (source : String) :
    (∀ t ∈ (tokenize source).1,
      (t.kind = .integer ↔ ∃ n, t.literal = some (.integer n)) ∧
      (t.kind = .float ↔ ∃ x, t.literal = some (.float x)) ∧
      (t.kind = .string ↔ ∃ s, t.literal = some (.string s)) ∧
      (t.kind = .boolean ↔ ∃ b, t.literal = some (.bool b)) ∧
      t.leaf? = t.literal ∧ (t.kind = .string → t.literal = some (.string t.stringValue))) ∧
    (∀ p v, .literal p v ∈ Stmt.allParts (parse (tokenize source).1).1 →
      ∃ t ∈ (tokenize source).1, t.position = p ∧ t.kind = v.kind ∧ t.literal = some v) ∧
    ∀ p e s, .context p e s ∈ Stmt.allParts (parse (tokenize source).1).1 →
      ∃ t ∈ (tokenize source).1, t.kind = .string ∧ t.literal = some (.string s) := by
  have hdenotes := tokenize_denotes source
  have hstems := stems_of_parse (tokenize source).1
  refine ⟨fun t ht => ?_, fun p v hx => ?_, fun p e s hx => ?_⟩
  · have h := hdenotes t ht
    obtain ⟨hinteger, hfloat, hstring, hbool⟩ := h.iff
    exact ⟨hinteger, hfloat, hstring, hbool, Token.leaf?_eq_literal h, Token.literal_of_string h⟩
  · obtain ⟨t, ht, hp, hleaf⟩ := hstems _ hx
    have hmem : t ∈ (tokenize source).1 := (List.takeWhile_sublist _).mem ht
    have h := hdenotes t hmem
    rw [Token.leaf?_eq_literal h] at hleaf
    rw [hleaf] at h
    exact ⟨t, hmem, hp, h, hleaf⟩
  · obtain ⟨t, ht, hk, rfl⟩ := hstems _ hx
    have hmem : t ∈ (tokenize source).1 := (List.takeWhile_sublist _).mem ht
    exact ⟨t, hmem, hk, Token.literal_of_string (hdenotes t hmem) hk⟩

end Scriptlet
