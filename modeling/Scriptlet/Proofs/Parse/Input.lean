import Mathlib.Data.List.TakeWhile
import Scriptlet.Proofs.Parse.Sided
import Scriptlet.Proofs.Parse.StatementProgress

/-! What a program is read from: the tokens before the first end of input. Readers stop before it
and do not see what stands behind, however far they look ahead. -/
namespace Scriptlet

/-- The first end of input, and the tokens before it. Where there is none, one is made up. -/
def input (tokens : List Token) : Token × List Token :=
  ((tokens.find? (·.kind = .eof)).getD (endOfTokens tokens), tokens.takeWhile (·.kind ≠ .eof))

variable {tokens ts : List Token} {stop : Token}

theorem input_append (hts : ∀ t ∈ ts, t.kind ≠ .eof) {e : Token} (he : e.kind = .eof)
    (rest : List Token) : input (ts ++ e :: rest) = (e, ts) := by
  have hfind : ts.find? (·.kind = .eof) = none := by simpa using hts
  have htake : (ts ++ e :: rest).takeWhile (·.kind ≠ .eof) = ts := by
    rw [List.takeWhile_append_of_pos (by simpa using hts),
      List.takeWhile_cons_of_neg (by simp [he]), List.append_nil]
  rw [input, htake, List.find?_append, hfind, List.find?_cons_of_pos (by simp [he])]
  rfl

theorem input_of_forall (hts : ∀ t ∈ ts, t.kind ≠ .eof) : input ts = (endOfTokens ts, ts) := by
  have hfind : ts.find? (·.kind = .eof) = none := by simpa using hts
  have htake : ts.takeWhile (·.kind ≠ .eof) = ts :=
    List.takeWhile_eq_self_iff.2 (by simpa using hts)
  rw [input, htake, hfind]
  rfl

/-- There is a first end of input, or none. -/
theorem input_cases (tokens : List Token) :
    (∃ ts e rest, tokens = ts ++ e :: rest ∧ (∀ t ∈ ts, t.kind ≠ .eof) ∧ e.kind = .eof) ∨
      ∀ t ∈ tokens, t.kind ≠ .eof := by
  induction tokens with
  | nil => exact .inr (List.forall_mem_nil _)
  | cons t tokens ih =>
    by_cases ht : t.kind = .eof
    · exact .inl ⟨[], t, tokens, rfl, List.forall_mem_nil _, ht⟩
    · obtain ⟨ts, e, rest, rfl, hts, he⟩ | h := ih
      · exact .inl ⟨t :: ts, e, rest, rfl, List.forall_mem_cons.2 ⟨ht, hts⟩, he⟩
      · exact .inr (List.forall_mem_cons.2 ⟨ht, h⟩)

theorem kind_endOfTokens (tokens : List Token) : (endOfTokens tokens).kind = .eof := by
  unfold endOfTokens
  split
  · rfl
  · rfl

theorem kind_ne_eof_input (tokens : List Token) : ∀ t ∈ (input tokens).2, t.kind ≠ .eof := by
  intro t ht
  simpa using List.mem_takeWhile_imp ht

namespace Parse

/-- An end of input ends a program, whatever stands behind it. -/
theorem program_before {e : Token} (he : e.kind = .eof) (stop : Token) (us tail : List Token) :
    program stop (us ++ e :: tail) = (program e us).before (e :: tail) := by
  have hlen : us.length < (us ++ e :: tail).length + 1 := by
    rw [List.length_append]
    omega
  have hc := composed_statements (fun _ => false)
    (composed_within ((us ++ e :: tail).length + 1)).2 ((us ++ e :: tail).length + 1)
  rw [← programWithin_eq hlen]
  exact hc.before_end he stop us tail

end Parse

/-- A program is read from the tokens before the first end of input. -/
theorem parse_eq_input (tokens : List Token) :
    ∃ p, (Parse.program (input tokens).1 (input tokens).2).result = .ok p ∧
      parse tokens = (p, (Parse.program (input tokens).1 (input tokens).2).errors) := by
  obtain ⟨⟨p, hp⟩, _⟩ := Parse.program_total (input tokens).1 (input tokens).2
  refine ⟨p, hp, ?_⟩
  have hparse (r : Reply Program) (h : Parse.program (endOfTokens tokens) tokens = r) :
      parse tokens = (r.result.toOption.getD [], r.errors) := by
    rw [← h]
    rfl
  obtain ⟨ts, e, rest, rfl, hts, he⟩ | h := input_cases tokens
  · rw [input_append hts he] at hp ⊢
    rw [hparse _ (Parse.program_before he _ ts rest), Reply.before, hp]
    rfl
  · rw [input_of_forall h] at hp ⊢
    rw [hparse _ rfl, hp]
    rfl

theorem parse_of_result {p : Program} (ht : input tokens = (stop, ts))
    (hp : (Parse.program stop ts).result = .ok p) :
    parse tokens = (p, (Parse.program stop ts).errors) := by
  obtain ⟨p', hp', h⟩ := parse_eq_input tokens
  rw [ht] at hp' h
  cases hp.symm.trans hp'
  exact h

/-- Parsing without an error is a silent reading of the tokens before the end of input. -/
theorem reads_of_parse (h : (parse tokens).2 = []) :
    ∃ rest, Parse.Reads Parse.program (input tokens).1 (input tokens).2 (parse tokens).1 rest := by
  obtain ⟨p, hp, heq⟩ := parse_eq_input tokens
  rw [heq] at h ⊢
  exact ⟨_, Parse.reads_of_result hp h⟩

/-- A silent reading of the tokens before the end of input is what parsing gives. -/
theorem parse_of_reads {rest : List Token} {p : Program}
    (h : Parse.Reads Parse.program (input tokens).1 (input tokens).2 p rest) :
    parse tokens = (p, []) := by
  obtain ⟨p', hp, heq⟩ := parse_eq_input tokens
  rw [h] at hp heq
  cases hp
  exact heq

end Scriptlet
