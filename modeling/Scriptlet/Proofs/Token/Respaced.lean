import Scriptlet.Proofs.Text.Splitting
import Scriptlet.Proofs.Token.Join

/-! Tokens survive a second reading: their lexemes with single spaces between them are read as the
same tokens. -/
namespace Scriptlet

/-- The lexemes with a space between any two of them. -/
def respaced (ts : List Token) : String := String.intercalate " " (ts.map Token.lexeme)

/-- The lexemes with a space before each of them. -/
def spaced (ts : List Token) : List Char := ts.flatMap fun t => ' ' :: t.lexeme.toList

theorem spaced_cons (t : Token) (ts : List Token) :
    spaced (t :: ts) = ' ' :: (t.lexeme.toList ++ spaced ts) := rfl

/-- The two texts differ by a space at the start, if at all. -/
theorem dropWhile_respaced (ts : List Token) :
    (respaced ts).toList.dropWhile Scan.isBlank = (spaced ts).dropWhile Scan.isBlank := by
  cases ts with
  | nil => rfl
  | cons t ts =>
    have htext : (respaced (t :: ts)).toList = t.lexeme.toList ++ spaced ts := by
      rw [respaced, List.map_cons, Text.toList_intercalate_cons, List.flatMap_map]
      rfl
    have hblank : Scan.isBlank ' ' := rfl
    rw [htext, spaced_cons, List.dropWhile_cons_of_pos hblank]

namespace Scan

/-- Comments have no faults. -/
theorem faults_of_comment {cs : List Char} (h : (lexeme cs).reading.kind = .comment) :
    (lexeme cs).reading.faults = [] := by
  have hfaults := lexeme_faultsOf cs
  rw [h] at hfaults
  exact hfaults.eq_nil_of_other nofun nofun

end Scan

namespace Lexer

variable {l l' : Lexer}

/-- A lexeme does not begin with a blank, so that skipping blanks stops at it. -/
theorem dropWhile_spaced (he : l.ahead.reading.kind ≠ .eof) (ts : List Token) :
    (spaced (l.next.1 :: ts)).dropWhile Scan.isBlank = l.ahead.text ++ spaced ts := by
  obtain ⟨c, cs, hcs⟩ := List.exists_cons_of_ne_nil (Scan.lexeme_text_ne_nil (ahead_ne_nil he))
  have hahead : l.ahead.text = c :: cs := hcs
  have hhead : (l.rest.dropWhile Scan.isBlank).head? = some c := by
    rw [← Scan.lexeme_append (l.rest.dropWhile Scan.isBlank), hcs]
    rfl
  have hc : ¬ Scan.isBlank c := by
    have hnot := List.head?_dropWhile_not Scan.isBlank l.rest
    rw [hhead] at hnot
    simpa using hnot
  have hblank : Scan.isBlank ' ' := rfl
  rw [spaced_cons, lexeme_next, hahead, List.dropWhile_cons_of_pos hblank, List.cons_append,
    List.dropWhile_cons_of_neg hc]

/-- Behind a lexeme that is no comment and no error stands nothing, or a space and more tokens. -/
theorem lexeme_spaced (he : l.ahead.reading.kind ≠ .eof) (hr : l.ahead.reading.kind ≠ .error)
    (hc : l.ahead.reading.kind ≠ .comment) (ts : List Token) :
    Scan.lexeme (l.ahead.text ++ spaced ts) = { l.ahead with rest := spaced ts } := by
  have halone : Scan.lexeme l.ahead.text = l.ahead.alone := Scan.lexeme_text _
  cases ts with
  | nil =>
    rw [spaced, List.flatMap_nil, List.append_nil]
    exact halone
  | cons t ts =>
    have hne : l.ahead.text ≠ [] := by
      intro hnil
      rw [hnil] at halone
      have hkind : l.ahead.reading.kind = .eof := congrArg (fun x => x.reading.kind) halone.symm
      exact he hkind
    have hstring : (Scan.lexeme l.ahead.text).reading ≠ .faulty .unclosedString := by
      rw [halone]
      intro hlost
      have hkind : l.ahead.reading.kind = .error := congrArg Reading.kind hlost
      exact hr hkind
    have hcomment : (Scan.lexeme l.ahead.text).reading.kind = .comment →
        ' ' = '\n' ∧ ¬ OpenComment (Scan.lexeme l.ahead.text).text := by
      rw [halone]
      exact fun hkind => absurd hkind hc
    rw [spaced_cons, Scan.lexeme_separator _ Scan.separates_space hne hstring hcomment, halone]
    rfl

/-- A comment is as if it were not there. -/
theorem tokenize_of_comment (h : l.ahead.reading.kind = .comment) :
    l.tokenize = l.next.2.tokenize ∧ l.next.2.faults = l.faults := by
  have hkept : l.kept = [] := by rw [kept, kind_next, if_pos h]
  constructor
  · rw [tokenize_of_more (by simp [h]) (by simp [h]), hkept]
    rfl
  · have hnone : l.ahead.reading.faults = [] := Scan.faults_of_comment h
    rw [faults_next, hnone, List.append_nil]

private theorem tokenize_ne_nil (l : Lexer) : l.tokenize.1 ≠ [] := by
  obtain ⟨ts, eof, hts, _⟩ := l.tokenize_eof
  simp [hts]

/-- A lexer agrees with one that has only the lexemes of its tokens before it, spaces between
them. -/
theorem agree_spaced (h : l'.rest.dropWhile Scan.isBlank =
    (spaced l.tokenize.1.dropLast).dropWhile Scan.isBlank) : Agree l' l := by
  induction hn : l.rest.length using Nat.strong_induction_on generalizing l l' with
  | _ n ih
  by_cases he : l.ahead.reading.kind = .eof
  · have hahead : l'.ahead = l.ahead := by
      rw [tokenize_of_eof he] at h
      rw [ahead, ahead, h, Scan.eq_nil_of_eof he]
      rfl
    refine .of_ahead (congrArg Lexeme.reading hahead) (congrArg Lexeme.text hahead) fun he' => ?_
    rw [hahead] at he'
    exact absurd he he'
  by_cases hr : l.ahead.reading.kind = .error
  · -- The error is the last lexeme, so that an open string still goes up to the end.
    have hahead : l'.ahead = l.ahead.alone := by
      rw [tokenize_of_error hr] at h
      change _ = (spaced [l.next.1]).dropWhile Scan.isBlank at h
      rw [dropWhile_spaced he, spaced, List.flatMap_nil, List.append_nil] at h
      rw [ahead, h]
      exact Scan.lexeme_text _
    have hreading : l'.ahead.reading = l.ahead.reading := by rw [hahead]; rfl
    have htext : l'.ahead.text = l.ahead.text := by rw [hahead]; rfl
    refine .of_ahead hreading htext fun _ hr' => ?_
    rw [hahead] at hr'
    exact absurd hr hr'
  by_cases hc : l.ahead.reading.kind = .comment
  · obtain ⟨htokens, hfaults⟩ := tokenize_of_comment hc
    rw [htokens] at h
    have hagree := ih _ (hn ▸ next_rest_length he) h rfl
    rw [Agree, ← htokens, hfaults] at hagree
    exact hagree
  · have htokens : l.tokenize.1.dropLast = l.next.1 :: l.next.2.tokenize.1.dropLast := by
      have hc' : l.next.1.kind ≠ .comment := hc
      rw [tokenize_of_more he hr, kept, if_neg hc']
      exact List.dropLast_cons_of_ne_nil l.next.2.tokenize_ne_nil
    have hahead : l'.ahead = { l.ahead with rest := spaced l.next.2.tokenize.1.dropLast } := by
      rw [htokens, dropWhile_spaced he] at h
      rw [ahead, h, lexeme_spaced he hr hc]
    have hrest : l'.next.2.rest = spaced l.next.2.tokenize.1.dropLast := by
      rw [rest_next, hahead]
    have hreading : l'.ahead.reading = l.ahead.reading := by rw [hahead]
    have htext : l'.ahead.text = l.ahead.text := by rw [hahead]
    refine .of_ahead hreading htext fun _ _ => ?_
    exact ih _ (hn ▸ next_rest_length he) (congrArg _ hrest) rfl

end Lexer

/-- The tokens of a text end with the end of input. The lexemes of the others, with single spaces
between them, are read as the same tokens again, with the same faults in the same order. -/
theorem tokenize_respaced (source : String) :
    (tokenize source).1.getLast?.map Token.kind = some .eof ∧
    ((tokenize (respaced (tokenize source).1.dropLast)).1.map fun t =>
        (t.kind, t.lexeme, t.literal)) =
      (tokenize source).1.map (fun t => (t.kind, t.lexeme, t.literal)) ∧
    (tokenize (respaced (tokenize source).1.dropLast)).2.map LexError.fault =
      (tokenize source).2.map LexError.fault := by
  let l := Lexer.ofString source
  let l' := Lexer.ofString (respaced l.tokenize.1.dropLast)
  obtain ⟨htokens, new, hnew', hnew⟩ : Lexer.Agree l' l :=
    Lexer.agree_spaced (dropWhile_respaced l.tokenize.1.dropLast)
  refine ⟨?_, ?_, ?_⟩
  · obtain ⟨ts, eof, hts, hkind, _⟩ := l.tokenize_eof
    change l.tokenize.1.getLast?.map Token.kind = _
    rw [hts, List.getLast?_concat, Option.map_some, hkind]
  · have hparts := congrArg (List.map fun t : Token => (t.kind, t.lexeme, t.literal)) htokens
    rw [List.map_map, List.map_map] at hparts
    exact hparts
  · exact hnew'.trans hnew.symm

end Scriptlet
