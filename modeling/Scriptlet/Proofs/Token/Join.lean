import Scriptlet.Proofs.Parse.Erase
import Scriptlet.Proofs.Token.Diagnostics
import Scriptlet.Proofs.Token.Locality
import Scriptlet.Proofs.Token.Lossless

/-! A newline separates texts: what stands behind it does not change the tokens before it. -/
namespace Scriptlet

namespace Scan

/-- An error is explained by a fault. -/
def Explained (r : Reading) : Prop := r.kind = .error → r.faults ≠ []

theorem lexeme_explained (cs : List Char) : Explained (lexeme cs).reading := by
  intro hk
  have hfaults := lexeme_faultsOf cs
  rw [hk] at hfaults
  exact hfaults.ne_nil_of_error

end Scan

namespace Lexer

/-- The faults recorded so far. -/
def faults (l : Lexer) : List LexFault := l.errors.map LexError.fault

variable {l l' : Lexer}

theorem faults_next (l : Lexer) : l.next.2.faults = l.faults ++ l.ahead.reading.faults := by
  simp [faults, next, ahead, Function.comp_def]

theorem erase_next (l : Lexer) : l.next.1.erase =
    ⟨l.ahead.reading.kind, String.ofList l.ahead.text, l.ahead.reading.literal, default, default⟩ :=
  rfl

theorem erase_kept (hr : l.ahead.reading = l'.ahead.reading) (ht : l.ahead.text = l'.ahead.text) :
    l.kept.map Token.erase = l'.kept.map Token.erase := by
  have herase : l.next.1.erase = l'.next.1.erase := by rw [erase_next, erase_next, hr, ht]
  by_cases hc : l.ahead.reading.kind = .comment
  · have hc' : l'.ahead.reading.kind = .comment := hr ▸ hc
    rw [kept, kept, kind_next, kind_next, if_pos hc, if_pos hc']
  · have hc' : l'.ahead.reading.kind ≠ .comment := hr ▸ hc
    rw [kept, kept, kind_next, kind_next, if_neg hc, if_neg hc', List.map_singleton, herase]
    rfl

/-- Two lexers find the same tokens, up to their places, and the same faults. -/
def Agree (l l' : Lexer) : Prop :=
  l.tokenize.1.map Token.erase = l'.tokenize.1.map Token.erase ∧
    ∃ new, l.tokenize.2.faults = l.faults ++ new ∧ l'.tokenize.2.faults = l'.faults ++ new

/-- Lexers agree if they read the same lexeme and agree behind it. -/
theorem Agree.of_ahead (hr : l.ahead.reading = l'.ahead.reading) (ht : l.ahead.text = l'.ahead.text)
    (hnext : l.ahead.reading.kind ≠ .eof → l.ahead.reading.kind ≠ .error →
      Agree l.next.2 l'.next.2) : Agree l l' := by
  have herase : l.next.1.erase = l'.next.1.erase := by rw [erase_next, erase_next, hr, ht]
  have hfaults := faults_next l'
  rw [← hr] at hfaults
  by_cases he : l.ahead.reading.kind = .eof
  · have he' : l'.ahead.reading.kind = .eof := hr ▸ he
    rw [Agree, tokenize_of_eof he, tokenize_of_eof he']
    exact ⟨congrArg ([·]) herase, _, faults_next l, hfaults⟩
  by_cases hf : l.ahead.reading.kind = .error
  · have hf' : l'.ahead.reading.kind = .error := hr ▸ hf
    rw [Agree, tokenize_of_error hf, tokenize_of_error hf']
    exact ⟨congrArg (fun t => [t, l.next.2.endToken.erase]) herase, _, faults_next l, hfaults⟩
  · have he' : l'.ahead.reading.kind ≠ .eof := hr ▸ he
    have hf' : l'.ahead.reading.kind ≠ .error := hr ▸ hf
    have hkept := erase_kept hr ht
    obtain ⟨htokens, new, hnew, hnew'⟩ := hnext he hf
    rw [Agree, tokenize_of_more he hf, tokenize_of_more he' hf']
    refine ⟨?_, l.ahead.reading.faults ++ new, ?_, ?_⟩
    · rw [List.map_append, List.map_append, hkept, htokens]
    · rw [hnew, faults_next, List.append_assoc]
    · rw [hnew', hfaults, List.append_assoc]

/-- What the tokens are and which faults they have depends on the text alone. -/
theorem tokenize_congr (h : l.rest = l'.rest) : Agree l l' := by
  induction hn : l.rest.length using Nat.strong_induction_on generalizing l l' with
  | _ n ih
  have hahead : l.ahead = l'.ahead := by rw [ahead, ahead, h]
  have hrest : l.next.2.rest = l'.next.2.rest := by rw [rest_next, rest_next, hahead]
  refine .of_ahead (congrArg Lexeme.reading hahead) (congrArg Lexeme.text hahead) fun he _ => ?_
  exact ih _ (hn ▸ next_rest_length he) hrest rfl

/-- Faults are never taken back. -/
theorem faults_tokenize (l : Lexer) : ∃ new, l.tokenize.2.faults = l.faults ++ new := by
  obtain ⟨_, new, hnew, _⟩ := tokenize_congr (l := l) rfl
  exact ⟨new, hnew⟩

theorem allTokens_of_more (he : l.ahead.reading.kind ≠ .eof) :
    l.allTokens.1 = l.next.1 :: l.next.2.allTokens.1 := by
  have he' : l.next.1.kind ≠ .eof := he
  rw [allTokens, dif_neg he']

/-- The newline as a token that stands nowhere. -/
def newlineToken : Token := ⟨.newline, "\n", none, default, default⟩

theorem tokenize_at_newline {l₂ : Lexer} (h : l.ahead = ⟨.plain .newline, ['\n'], l₂.rest⟩) :
    l.tokenize.1.map Token.erase = newlineToken :: l₂.tokenize.1.map Token.erase ∧
      ∃ new, l₂.tokenize.2.faults = l₂.faults ++ new ∧ l.tokenize.2.faults = l.faults ++ new := by
  have hkind : l.ahead.reading.kind = .newline := by rw [h]; rfl
  have hkept : l.kept.map Token.erase = [newlineToken] := by
    rw [kept, kind_next, hkind, if_neg (by decide), List.map_singleton, erase_next, h]
    rfl
  have hfaults : l.next.2.faults = l.faults := by
    rw [faults_next, h]
    exact List.append_nil _
  have hrest : l₂.rest = l.next.2.rest := by rw [rest_next, h]
  obtain ⟨htokens, new, hnew₂, hnew⟩ := tokenize_congr hrest
  rw [tokenize_of_more (by simp [hkind]) (by simp [hkind])]
  refine ⟨?_, new, hnew₂, ?_⟩
  · rw [List.map_append, hkept, htokens]
    rfl
  · rw [hnew, hfaults]

private theorem takeWhile_kept (he : l.ahead.reading.kind ≠ .eof) (ts : List Token) :
    (l.kept ++ ts).takeWhile (·.kind ≠ .eof) = l.kept ++ ts.takeWhile (·.kind ≠ .eof) := by
  have he' : l.next.1.kind ≠ .eof := he
  unfold kept
  split <;> simp [he']

/-- Behind a text without faults and without an open comment, a newline and more text are read as if
they stood alone. -/
theorem tokenize_newline {l₂ : Lexer} (h : l'.rest = l.rest ++ '\n' :: l₂.rest)
    (hclean : l.tokenize.2.faults = [])
    (hclosed : ∀ t ∈ l.allTokens.1, ¬ OpenComment t.lexeme.toList) :
    l'.tokenize.1.map Token.erase = (l.tokenize.1.takeWhile (·.kind ≠ .eof)).map Token.erase ++
        newlineToken :: l₂.tokenize.1.map Token.erase ∧
      ∃ new, l₂.tokenize.2.faults = l₂.faults ++ new ∧ l'.tokenize.2.faults = l'.faults ++ new := by
  induction hn : l.rest.length using Nat.strong_induction_on generalizing l l' with
  | _ n ih
  have hdrop : l'.rest.dropWhile Scan.isBlank =
      l.rest.dropWhile Scan.isBlank ++ '\n' :: l₂.rest := by
    rw [h]
    exact Scan.dropWhile_separator _ rfl
  by_cases he : l.ahead.reading.kind = .eof
  · rw [Scan.eq_nil_of_eof he] at hdrop
    have hahead : l'.ahead = ⟨.plain .newline, ['\n'], l₂.rest⟩ := by
      rw [ahead, hdrop]
      rfl
    have he' : l.next.1.kind = .eof := he
    have hempty : l.tokenize.1.takeWhile (·.kind ≠ .eof) = [] := by
      simp [tokenize_of_eof he, he']
    rw [hempty]
    exact tokenize_at_newline hahead
  by_cases hr : l.ahead.reading.kind = .error
  · rw [tokenize_of_error hr, faults_next] at hclean
    exact absurd (List.append_eq_nil_iff.1 hclean).2 (Scan.lexeme_explained _ hr)
  · rw [tokenize_of_more he hr] at hclean ⊢
    rw [allTokens_of_more he, List.forall_mem_cons] at hclosed
    -- The lexeme is closed, so that it is the same in both texts.
    have hahead : l'.ahead = l.ahead.followedBy ('\n' :: l₂.rest) := by
      have hstring : l.ahead.reading ≠ .faulty .unclosedString := by
        intro heq
        rw [heq] at hr
        exact hr rfl
      have hopen := hclosed.1
      rw [show l.next.1.lexeme.toList = l.ahead.text from String.toList_ofList] at hopen
      rw [ahead, hdrop]
      exact Scan.lexeme_separator _ Scan.separates_newline (ahead_ne_nil he) hstring
        fun _ => ⟨rfl, hopen⟩
    have he' : l'.ahead.reading.kind ≠ .eof := by rw [hahead]; exact he
    have hr' : l'.ahead.reading.kind ≠ .error := by rw [hahead]; exact hr
    have hkept : l'.kept.map Token.erase = l.kept.map Token.erase := by
      apply erase_kept <;> rw [hahead] <;> rfl
    have hrest : l'.next.2.rest = l.next.2.rest ++ '\n' :: l₂.rest := by
      rw [rest_next, hahead]
      rfl
    have hfaults : l'.next.2.faults = l'.faults := by
      obtain ⟨new, hnew⟩ := faults_tokenize l.next.2
      rw [hclean, faults_next] at hnew
      have hnone := (List.append_eq_nil_iff.1 (List.append_eq_nil_iff.1 hnew.symm).1).2
      rw [faults_next, hahead]
      exact (congrArg (l'.faults ++ ·) hnone).trans (List.append_nil _)
    obtain ⟨htokens, new, hnew₂, hnew⟩ :=
      ih _ (hn ▸ next_rest_length he) hrest hclean hclosed.2 rfl
    rw [tokenize_of_more he' hr', takeWhile_kept he]
    refine ⟨?_, new, hnew₂, ?_⟩
    · simp only [List.map_append, hkept, htokens, List.append_assoc]
    · rw [hnew, hfaults]

end Lexer

end Scriptlet
